import PromqlAssist.Format.Json.Basic

/-!
# Writing JSON

The compact form has no blanks. The indented form puts each item and each member on a line of its
own, two spaces deeper than its container; empty containers stay on one line.
-/

namespace PromqlAssist.Json

/-- The hexadecimal digits of a number below 16 ^ 4, led by zeros. -/
def hex4 (n : Nat) : Text :=
  let digits := Nat.toDigits 16 n
  List.replicate (4 - digits.length) '0' ++ digits

/-- The written form of a character in a string. -/
def encodeChar (c : Char) : Text :=
  if c = '"' || c = '\\' then ['\\', c]
  else if c = '\n' then ['\\', 'n']
  else if c = '\r' then ['\\', 'r']
  else if c = '\t' then ['\\', 't']
  else if c.toNat = 8 then ['\\', 'b']
  else if c.toNat = 12 then ['\\', 'f']
  else if c.toNat < 0x20 then '\\' :: 'u' :: hex4 c.toNat
  else [c]

def renderString (t : Text) : Text :=
  '"' :: t.flatMap encodeChar ++ ['"']

def renderInt (n : Int) : Text :=
  if n < 0 then '-' :: Decimal.render n.natAbs else Decimal.render n.natAbs

mutual

/-- The compact form. -/
def compact : Json → Text
  | .null => "null".toList
  | .bool b => (if b then "true" else "false").toList
  | .int n => renderInt n
  | .decimal written => written
  | .str t => renderString t
  | .arr items => '[' :: compactItems items ++ [']']
  | .obj members => '{' :: compactMembers members ++ ['}']

def compactItems : List Json → Text
  | [] => []
  | [j] => compact j
  | j :: k :: rest => compact j ++ ',' :: compactItems (k :: rest)

def compactMembers : List (Text × Json) → Text
  | [] => []
  | [(name, j)] => renderString name ++ ':' :: compact j
  | (name, j) :: m :: rest =>
    renderString name ++ ':' :: compact j ++ ',' :: compactMembers (m :: rest)

end

/-- A new line, indented. -/
def newline (depth : Nat) : Text :=
  '\n' :: List.replicate (2 * depth) ' '

mutual

/-- The indented form of a value at a depth of nesting. -/
def indented (depth : Nat) : Json → Text
  | .arr [] => ['[', ']']
  | .arr (j :: items) =>
    '[' :: newline (depth + 1) ++ indented (depth + 1) j ++ indentedItems (depth + 1) items
      ++ newline depth ++ [']']
  | .obj [] => ['{', '}']
  | .obj ((name, j) :: members) =>
    '{' :: newline (depth + 1) ++ renderString name ++ ':' :: ' ' :: indented (depth + 1) j
      ++ indentedMembers (depth + 1) members ++ newline depth ++ ['}']
  | .null => "null".toList
  | .bool b => (if b then "true" else "false").toList
  | .int n => renderInt n
  | .decimal written => written
  | .str t => renderString t

def indentedItems (depth : Nat) : List Json → Text
  | [] => []
  | j :: items => ',' :: newline depth ++ indented depth j ++ indentedItems depth items

def indentedMembers (depth : Nat) : List (Text × Json) → Text
  | [] => []
  | (name, j) :: members =>
    ',' :: newline depth ++ renderString name ++ ':' :: ' ' :: indented depth j
      ++ indentedMembers depth members

end

/-- The indented form. -/
def pretty (j : Json) : Text :=
  indented 0 j

end PromqlAssist.Json
