import PromqlAssist.Format.Decimal
import PromqlAssist.Format.Json.Parser

/-!
# Socket addresses

Addresses of the fourth and the sixth version of the internet protocol, each with a port. Names of
hosts are not addresses.
-/

namespace PromqlAssist

inductive SocketAddress where
  /-- Four octets. -/
  | v4 (octets : List Nat) (port : Nat)
  /-- Eight groups of sixteen bits, and the scope that they are valid in. -/
  | v6 (groups : List Nat) (scope port : Nat)
deriving DecidableEq, Repr

namespace SocketAddress

def port : SocketAddress → Nat
  | v4 _ port => port
  | v6 _ _ port => port

def isV6 : SocketAddress → Bool
  | v4 _ _ => false
  | v6 _ _ _ => true

/-- The text behind a character, if it starts a text. -/
def behind? (c : Char) : Text → Option Text
  | d :: t => if d = c then some t else none
  | [] => none

/-- A decimal number below `limit`. -/
def decimal? (limit : Nat) (t : Text) : Option (Nat × Text) :=
  let digits := t.takeWhile Char.isDigit
  (Decimal.digits? digits).bind fun n =>
    if n < limit then some (n, t.drop digits.length) else none

/-- A number below 256, without zeros in front. -/
def octet? (t : Text) : Option (Nat × Text) :=
  match t with
  | '0' :: d :: _ => if d.isDigit then none else decimal? 256 t
  | _ => decimal? 256 t

/-- Four octets, between which dots stand. -/
def octets? (t : Text) : Option (List Nat × Text) := do
  let (a, t) ← octet? t
  let (b, t) ← behind? '.' t >>= octet?
  let (c, t) ← behind? '.' t >>= octet?
  let (d, t) ← behind? '.' t >>= octet?
  some ([a, b, c, d], t)

/-- A number of one to four hexadecimal digits. -/
def group? (t : Text) : Option (Nat × Text) :=
  let digits := t.takeWhile fun c => (Json.hexValue? c).isSome
  if digits.isEmpty || 4 < digits.length then none
  else
    some (digits.foldl (fun n c => n * 16 + (Json.hexValue? c).getD 0) 0, t.drop digits.length)

/-- The groups at the start of a text, at most `limit`. Four octets may stand for the last two. It
is told whether they do. -/
def groupsFrom (first : Bool) : Nat → Text → List Nat × Bool × Text
  | 0, t => ([], false, t)
  | limit + 1, t =>
    match if first then some t else behind? ':' t with
    | none => ([], false, t)
    | some inner =>
      match if limit = 0 then none else octets? inner with
      | some ([a, b, c, d], rest) => ([a * 256 + b, c * 256 + d], true, rest)
      | _ =>
        match group? inner with
        | none => ([], false, t)
        | some (g, rest) =>
          let (later, mapped, rest) := groupsFrom false limit rest
          (g :: later, mapped, rest)

/-- Eight groups, or fewer around a pair of colons, which stands for at least one group of zero. -/
def groups? (t : Text) : Option (List Nat × Text) :=
  let (head, mapped, rest) := groupsFrom true 8 t
  if head.length = 8 then some (head, rest)
  else if mapped then none
  else
    match rest with
    | ':' :: ':' :: rest =>
      let (tail, _, rest) := groupsFrom true (7 - head.length) rest
      some (head ++ List.replicate (8 - head.length - tail.length) 0 ++ tail, rest)
    | _ => none

/-- The scope behind a percent sign, if there is one. -/
def scope (t : Text) : Nat × Text :=
  ((behind? '%' t).bind (decimal? (Nat.pow 2 32))).getD (0, t)

/-- A port behind a colon, with nothing behind it. -/
def port? (t : Text) : Option Nat := do
  let (port, rest) ← behind? ':' t >>= decimal? (Nat.pow 2 16)
  if rest.isEmpty then some port else none

def v4? (t : Text) : Option SocketAddress := do
  let (octets, t) ← octets? t
  some (.v4 octets (← port? t))

def v6? (t : Text) : Option SocketAddress := do
  let (groups, t) ← behind? '[' t >>= groups?
  let (scope, t) := scope t
  some (.v6 groups scope (← behind? ']' t >>= port?))

/-- The address of a text that holds nothing else. -/
def ofText? (t : Text) : Option SocketAddress :=
  (v4? t).orElse fun _ => v6? t

def renderOctets (octets : List Nat) : Text :=
  List.intercalate ['.'] (octets.map Decimal.render)

def renderGroups (groups : List Nat) : Text :=
  List.intercalate [':'] (groups.map (Nat.toDigits 16))

/-- How many groups of zero a list starts with. -/
def zeros (groups : List Nat) : Nat :=
  (groups.takeWhile (· = 0)).length

/-- The number of groups in front of the first of the longest runs of zeros, and its length. -/
def longestZeros : List Nat → Nat × Nat
  | [] => (0, 0)
  | g :: rest =>
    let (start, length) := longestZeros rest
    let here := zeros (g :: rest)
    if length ≤ here then (0, here) else (start + 1, length)

/-- Groups in their shortest form: a run of at least two zeros is left out. -/
def renderShort (groups : List Nat) : Text :=
  let (start, length) := longestZeros groups
  if 1 < length then
    renderGroups (groups.take start) ++ "::".toList ++ renderGroups (groups.drop (start + length))
  else renderGroups groups

/-- The address of the sixth version: one that stands for an address of the fourth shows its
octets. -/
def renderV6 : List Nat → Text
  | [0, 0, 0, 0, 0, 0xffff, g, h] =>
    "::ffff:".toList ++ renderOctets [g / 256, g % 256, h / 256, h % 256]
  | groups => renderShort groups

def render : SocketAddress → Text
  | v4 octets port => renderOctets octets ++ ':' :: Decimal.render port
  | v6 groups scope port =>
    let behind := if scope = 0 then [] else '%' :: Decimal.render scope
    '[' :: renderV6 groups ++ behind ++ ']' :: ':' :: Decimal.render port

end SocketAddress

end PromqlAssist
