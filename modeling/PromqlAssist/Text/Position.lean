import PromqlAssist.Text.Span

/-!
# Lines and columns

An editor counts lines and, inside a line, UTF-16 code units, both from zero. A line ends at the
line feed, which belongs to no column.
-/

namespace PromqlAssist

/-- A line and a column of UTF-16 code units, both counted from zero. -/
structure Position where
  line : Nat
  column : Nat
deriving DecidableEq, Repr, Inhabited

namespace Text

/-- The number of UTF-16 code units of a character. -/
def units (c : Char) : Nat :=
  if c.toNat < 0x10000 then 1 else 2

/-- The number of UTF-16 code units of a text. -/
def unitCount : Text → Nat
  | [] => 0
  | c :: t => units c + unitCount t

/-- The part of the line in front of an offset. -/
def lineBefore (t : Text) (offset : Nat) : Text :=
  trailing (· ≠ '\n') (before t offset)

/-- The line that holds an offset, without its line feed. -/
def lineBounds (t : Text) (offset : Nat) : Span :=
  let cut := clamp t offset
  ⟨cut - size (lineBefore t offset),
    cut + size ((after t offset).takeWhile (· ≠ '\n'))⟩

/-- The position of an offset, which is moved back to a boundary first. -/
def positionOf (t : Text) (offset : Nat) : Position :=
  ⟨(before t offset).count '\n', unitCount (lineBefore t offset)⟩

/-- The offset of a position. A column past the end of its line means the end of the line, a line
past the last means the end of the text, and a column inside a character means the end of that
character. -/
def offsetOf : Text → Position → Nat
  | [], _ => 0
  | c :: t, ⟨0, column⟩ =>
    if column = 0 ∨ c = '\n' then 0 else c.utf8Size + offsetOf t ⟨0, column - units c⟩
  | c :: t, ⟨line + 1, column⟩ =>
    c.utf8Size + offsetOf t ⟨if c = '\n' then line else line + 1, column⟩

end Text

end PromqlAssist
