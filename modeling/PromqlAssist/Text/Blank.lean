/-!
# Blank characters

The characters of the property White_Space, and trimming by them.
-/

namespace PromqlAssist.Text

/-- A character of the property White_Space. The zero-width space and the byte order mark are not
among them. -/
def isBlank (c : Char) : Bool :=
  match c.toNat with
  | 0x20 | 0x85 | 0xa0 | 0x1680 | 0x2028 | 0x2029 | 0x202f | 0x205f | 0x3000 => true
  | n => (0x9 ≤ n && n ≤ 0xd) || (0x2000 ≤ n && n ≤ 0x200a)

end PromqlAssist.Text
