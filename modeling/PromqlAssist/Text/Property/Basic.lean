/-!
# Code point properties

A property of the Unicode standard is a sorted list of inclusive code point ranges. The tables of
this folder follow Unicode 15; each is named for its property.
-/

namespace PromqlAssist.Text.Property

/-- Inclusive code point ranges, in increasing order. -/
abbrev Ranges := List (Nat × Nat)

/-- Whether the code point of `c` lies in one of the ranges. -/
def Ranges.holds (ranges : Ranges) (c : Char) : Bool :=
  ranges.any fun r => r.1 ≤ c.toNat && c.toNat ≤ r.2

end PromqlAssist.Text.Property
