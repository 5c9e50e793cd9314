import PromqlAssist.Format.Json.Parser

/-!
# Unique identifiers

Identifiers of 128 bits. They are read with or without hyphens, the former also in braces or as a
uniform resource name, in either case of letters, and written with hyphens in lower case.
-/

namespace PromqlAssist

/-- An identifier: 32 hexadecimal digits in lower case. -/
structure Uuid where
  digits : Text
deriving DecidableEq, Repr

namespace Uuid

def isHexDigit (c : Char) : Bool :=
  (Json.hexValue? c).isSome

/-- The sizes of the groups between hyphens. -/
def groups : List Nat :=
  [8, 4, 4, 4, 12]

/-- Takes the hyphens out of a text that is grouped. -/
def ungroup? : List Nat → Text → Option Text
  | [], _ => none
  | [n], t => if t.length = n then some t else none
  | n :: m :: sizes, t =>
    match t.drop n with
    | '-' :: rest => (ungroup? (m :: sizes) rest).map (t.take n ++ ·)
    | _ => none

/-- What a uniform resource name starts with. -/
def resourceName : Text :=
  "urn:uuid:".toList

/-- The grouped form inside braces or behind the start of a resource name. -/
def unwrap (t : Text) : Text :=
  match t.length, t with
  | 38, '{' :: rest => if rest.getLast? = some '}' then rest.dropLast else t
  | 45, t => (Text.dropPart? resourceName t).getD t
  | _, t => t

def ofText? (t : Text) : Option Uuid := do
  let digits ← if t.length = 32 then some t else ungroup? groups (unwrap t)
  if digits.all isHexDigit then some ⟨digits.map Char.toLower⟩ else none

/-- Puts hyphens between groups. -/
def group : List Nat → Text → Text
  | [], t => t
  | [_], t => t
  | n :: m :: sizes, t => t.take n ++ '-' :: group (m :: sizes) (t.drop n)

def render (u : Uuid) : Text :=
  group groups u.digits

end Uuid

end PromqlAssist
