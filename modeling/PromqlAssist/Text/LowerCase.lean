import PromqlAssist.Text.Basic

/-!
# Lower case for ASCII patterns

Two characters outside ASCII have a lower-case form with an ASCII letter in it. All others are of no
concern to a pattern of ASCII characters, and stay as they are.
-/

namespace PromqlAssist.Text

/-- The lower-case form of a character, as far as an ASCII pattern can tell. -/
def lowerChar (c : Char) : Text :=
  if c.toNat = 0x130 then ['i', Char.ofNat 0x307]
  else if c.toNat = 0x212a then ['k']
  else [c.toLower]

def lower (t : Text) : Text :=
  t.flatMap lowerChar

/-- Whether a text contains an ASCII pattern, in any case. -/
def hasInfixIgnoringCase (pattern t : Text) : Bool :=
  hasInfix (lower pattern) (lower t)

end PromqlAssist.Text
