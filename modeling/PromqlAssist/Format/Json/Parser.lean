import PromqlAssist.Format.Json.Basic

/-!
# Reading JSON

Strict JSON: no comments, no trailing commas, no control characters in strings, no half of a
surrogate pair alone. Containers may be nested 127 deep.
-/

namespace PromqlAssist.Json

def isSpace (c : Char) : Bool :=
  c = ' ' || c = '\n' || c = '\r' || c = '\t'

def skipSpace (t : Text) : Text :=
  t.dropWhile isSpace

def hexValue? (c : Char) : Option Nat :=
  if c.isDigit then some (c.toNat - '0'.toNat)
  else if 'a' ≤ c ∧ c ≤ 'f' then some (c.toNat - 'a'.toNat + 10)
  else if 'A' ≤ c ∧ c ≤ 'F' then some (c.toNat - 'A'.toNat + 10)
  else none

/-- The number of four hexadecimal digits. -/
def hexNumber? (a b c d : Char) : Option Nat := do
  let a ← hexValue? a
  let b ← hexValue? b
  let c ← hexValue? c
  let d ← hexValue? d
  some (((a * 16 + b) * 16 + c) * 16 + d)

/-- The character behind the backslash of a short escape. -/
def shortEscape? : Char → Option Char
  | '"' => some '"'
  | '\\' => some '\\'
  | '/' => some '/'
  | 'b' => some (Char.ofNat 8)
  | 'f' => some (Char.ofNat 12)
  | 'n' => some '\n'
  | 'r' => some '\r'
  | 't' => some '\t'
  | _ => none

/-- The rest of a string behind its opening quote, and the text behind the closing one. The
characters read so far are in `done`, the last first. -/
def string? (done : Text) : Text → Option (Text × Text)
  | [] => none
  | '"' :: t => some (done.reverse, t)
  | '\\' :: 'u' :: a :: b :: c :: d :: t =>
    match hexNumber? a b c d with
    | none => none
    | some n =>
      if 0xdc00 ≤ n ∧ n < 0xe000 then none
      else if 0xd800 ≤ n ∧ n < 0xdc00 then
        match t with
        | '\\' :: 'u' :: e :: f :: g :: h :: rest =>
          match hexNumber? e f g h with
          | none => none
          | some m =>
            if 0xdc00 ≤ m ∧ m < 0xe000 then
              string? (Char.ofNat (0x10000 + (n - 0xd800) * 0x400 + (m - 0xdc00)) :: done) rest
            else none
        | _ => none
      else string? (Char.ofNat n :: done) t
  | '\\' :: c :: t =>
    match shortEscape? c with
    | some e => string? (e :: done) t
    | none => none
  | c :: t => if c = '\\' || c.toNat < 0x20 then none else string? (c :: done) t

/-- A run of digits, at least one, and the text behind it. -/
def digitRun? (t : Text) : Option (Text × Text) :=
  let digits := t.takeWhile Char.isDigit
  if digits.isEmpty then none else some (digits, t.dropWhile Char.isDigit)

/-- A fraction, if a text starts with a point. -/
def fraction? : Text → Option (Text × Text)
  | '.' :: t => (digitRun? t).map fun (digits, rest) => ('.' :: digits, rest)
  | t => some ([], t)

/-- An exponent, if a text starts with its letter. -/
def exponent? : Text → Option (Text × Text)
  | c :: t =>
    if c = 'e' || c = 'E' then
      let (sign, digits) := match t with
        | s :: rest => if s = '+' || s = '-' then ([s], rest) else ([], t)
        | [] => ([], t)
      (digitRun? digits).map fun (run, rest) => (c :: sign ++ run, rest)
    else some ([], c :: t)
  | [] => some ([], [])

/-- The value of a written exponent. -/
def exponentValue : Text → Int
  | _ :: '-' :: digits => -(Decimal.ofDigits 0 digits : Int)
  | _ :: '+' :: digits => Decimal.ofDigits 0 digits
  | _ :: digits => Decimal.ofDigits 0 digits
  | [] => 0

/-- A number. One without fraction and exponent is an integer if it fits in 64 bits, signed or not.
Numbers beyond the range of binary floating point are refused. -/
def number? (t : Text) : Option (Json × Text) := do
  let (negative, body) := match t with
    | '-' :: rest => (true, rest)
    | _ => (false, t)
  let (whole, rest) ← digitRun? body
  if whole.length > 1 && whole.head? = some '0' then none
  else
    let (fraction, rest) ← fraction? rest
    let (exponent, rest) ← exponent? rest
    let n := Decimal.ofDigits 0 whole
    if fraction.isEmpty && exponent.isEmpty
        && (n < Nat.pow 2 63 || (n < Nat.pow 2 64 && !negative)) then
      -- A negative zero is not an integer.
      if negative && n = 0 then some (.decimal "-0.0".toList, rest)
      else some (.int (if negative then -(n : Int) else n), rest)
    else if Decimal.exceedsDouble whole (fraction.drop 1) (exponentValue exponent) then none
    else
      some (.decimal ((if negative then ['-'] else []) ++ whole ++ fraction ++ exponent), rest)

/-- How deep containers may be nested, and one more. -/
def depthLimit : Nat :=
  128

mutual

/-- A value at the start of a text, and the text behind it. `depth` levels of nesting are left, and
`fuel` bounds the number of characters that are read. -/
def value? (depth : Nat) : Nat → Text → Option (Json × Text)
  | 0, _ => none
  | fuel + 1, t =>
    match skipSpace t with
    | [] => none
    | '"' :: rest => (string? [] rest).map fun (s, rest) => (.str s, rest)
    | '[' :: rest =>
      if depth ≤ 1 then none
      else
        match skipSpace rest with
        | ']' :: rest => some (.arr [], rest)
        | rest => (arrayTail? (depth - 1) fuel rest).map fun (items, rest) => (.arr items, rest)
    | '{' :: rest =>
      if depth ≤ 1 then none
      else
        match skipSpace rest with
        | '}' :: rest => some (.obj [], rest)
        | rest => (objectTail? (depth - 1) fuel rest).map fun (ms, rest) => (.obj ms, rest)
    | c :: rest =>
      if c = '-' || c.isDigit then number? (c :: rest)
      else if let some rest := Text.dropPart? "null".toList (c :: rest) then some (.null, rest)
      else if let some rest := Text.dropPart? "true".toList (c :: rest) then some (.bool true, rest)
      else if let some rest := Text.dropPart? "false".toList (c :: rest) then
        some (.bool false, rest)
      else none

/-- The items of an array up to its closing bracket. -/
def arrayTail? (depth : Nat) : Nat → Text → Option (List Json × Text)
  | 0, _ => none
  | fuel + 1, t =>
    match value? depth fuel t with
    | none => none
    | some (j, rest) =>
      match skipSpace rest with
      | ']' :: rest => some ([j], rest)
      | ',' :: rest => (arrayTail? depth fuel rest).map fun (items, rest) => (j :: items, rest)
      | _ => none

/-- The members of an object up to its closing brace. -/
def objectTail? (depth : Nat) : Nat → Text → Option (List (Text × Json) × Text)
  | 0, _ => none
  | fuel + 1, t =>
    match skipSpace t with
    | '"' :: rest =>
      match string? [] rest with
      | none => none
      | some (name, rest) =>
        match skipSpace rest with
        | ':' :: rest =>
          match value? depth fuel rest with
          | none => none
          | some (j, rest) =>
            match skipSpace rest with
            | '}' :: rest => some ([(name, j)], rest)
            | ',' :: rest =>
              (objectTail? depth fuel rest).map fun (ms, rest) => ((name, j) :: ms, rest)
            | _ => none
        | _ => none
    | _ => none

end

/-- The value of a text that holds nothing else. -/
def parse? (t : Text) : Option Json :=
  match value? depthLimit (2 * t.length + 2) t with
  | some (j, rest) => if (skipSpace rest).isEmpty then some j else none
  | none => none

end PromqlAssist.Json
