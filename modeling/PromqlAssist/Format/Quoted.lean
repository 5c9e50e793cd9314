import PromqlAssist.Text.Basic
import PromqlAssist.Text.CharClass

/-!
# Quoted text

Text in double quotes for a message. A quote and a backslash are escaped, the common controls have
short forms, and every other character that is not visible by itself is written as its code point.
-/

namespace PromqlAssist.Quoted

/-- The written form of one character. -/
def encodeChar (c : Char) : Text :=
  if c = '"' || c = '\\' then ['\\', c]
  else if c = '\n' then ['\\', 'n']
  else if c = '\r' then ['\\', 'r']
  else if c = '\t' then ['\\', 't']
  else if c.toNat = 0 then ['\\', '0']
  else if Text.isPlain c then [c]
  else "\\u".toList ++ '{' :: Nat.toDigits 16 c.toNat ++ ['}']

/-- A text in quotes. -/
def encode (t : Text) : Text :=
  '"' :: t.flatMap encodeChar ++ ['"']

/-- A string in quotes. -/
def quote (s : String) : String :=
  String.ofList (encode s.toList)

end PromqlAssist.Quoted
