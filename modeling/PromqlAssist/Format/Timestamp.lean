import PromqlAssist.Format.Date
import PromqlAssist.Format.Decimal

/-!
# Timestamps

Points in time, written as in RFC 3339 and kept in universal time. Reading is lenient: numbers may
miss their leading zeros, blanks may stand between the parts, a space may stand for the `T`, and a
year beyond four digits has a sign. Of a fraction, nine digits count. The second may be 60.
-/

namespace PromqlAssist

/-- A point in universal time. -/
structure Timestamp where
  date : Date
  hour : Nat
  minute : Nat
  second : Nat
  nanosecond : Nat
deriving DecidableEq, Repr

namespace Timestamp

/-- Years run from the negated bound up to, not including, one less than it. -/
def yearBound : Int :=
  262143

def yearInRange (year : Int) : Bool :=
  -yearBound ≤ year && year < yearBound

/-- A number of at most `width` digits, and the text behind it. Blanks may stand in front. -/
def number? (width : Nat) (t : Text) : Option (Nat × Text) :=
  let t := Text.trimStart t
  let digits := (t.take width).takeWhile Char.isDigit
  if digits.isEmpty then none else some (Decimal.ofDigits 0 digits, t.drop digits.length)

/-- A year: four digits, or any number behind a sign. -/
def year? (t : Text) : Option (Int × Text) :=
  match Text.trimStart t with
  | '-' :: rest => signed (-1) rest
  | '+' :: rest => signed 1 rest
  | t => (number? 4 t).map fun r => ((r.1 : Int), r.2)
where
  signed (sign : Int) (t : Text) : Option (Int × Text) :=
    let digits := t.takeWhile Char.isDigit
    if digits.isEmpty then none
    else some (sign * Decimal.ofDigits 0 digits, t.drop digits.length)

/-- A number behind a separator, between which blanks may stand. -/
def next? (separator : Char) (t : Text) : Option (Nat × Text) :=
  match Text.trimStart t with
  | c :: rest => if c = separator then number? 2 rest else none
  | [] => none

def date? (t : Text) : Option (Date × Text) := do
  let (year, t) ← year? t
  let (month, t) ← next? '-' t
  let (day, t) ← next? '-' t
  let date : Date := ⟨year, month, day⟩
  if date.IsValid ∧ yearInRange year then some (date, t) else none

/-- The nanoseconds of a fraction, if a text starts with one. -/
def fraction? : Text → Option (Nat × Text)
  | '.' :: t =>
    let digits := t.takeWhile Char.isDigit
    if digits.isEmpty then none
    else
      let kept := digits.take 9
      some (Decimal.ofDigits 0 kept * Nat.pow 10 (9 - kept.length), t.drop digits.length)
  | t => some (0, t)

/-- The distance to universal time in minutes, less than a day. -/
def offset? (t : Text) : Option (Int × Text) :=
  match t with
  | 'Z' :: rest | 'z' :: rest => some (0, rest)
  | c :: h₁ :: h₂ :: rest =>
    if (t.take 3).map Char.toUpper = "UTC".toList then some (0, rest)
    else do
      let sign : Int ← if c = '+' then some 1
        else if c = '-' || c = '\u2212' then some (-1) else none
      let hours ← Decimal.digits? [h₁, h₂]
      match rest.dropWhile fun d => d = ':' || Text.isBlank d with
      | m₁ :: m₂ :: rest =>
        let minutes ← Decimal.digits? [m₁, m₂]
        if hours < 24 ∧ minutes < 60 then some (sign * (hours * 60 + minutes : Nat), rest) else none
      | _ => none
  | _ => none

/-- The time of a day that is `minutes` past midnight, perhaps of the day before or after. -/
def ofMinutes (date : Date) (minutes : Int) (second nanosecond : Nat) : Timestamp :=
  let day := if minutes < 0 then date.previous else if minutes < 1440 then date else date.next
  let minutes := (minutes % 1440).toNat
  ⟨day, minutes / 60, minutes % 60, second, nanosecond⟩

/-- Reads a timestamp. -/
def ofText? (t : Text) : Option Timestamp := do
  let (date, t) ← date? t
  let t ← match t with
    | c :: rest => if c = 'T' || c = 't' || c = ' ' then some rest else none
    | [] => none
  let (hour, t) ← number? 2 t
  let (minute, t) ← next? ':' t
  let (second, t) ← next? ':' t
  let (nanosecond, t) ← fraction? t
  let (offset, t) ← offset? (Text.trimStart t)
  if hour < 24 ∧ minute < 60 ∧ second ≤ 60 ∧ t.isAllBlank then
    let stamp := ofMinutes date (hour * 60 + minute - offset) second nanosecond
    if yearInRange stamp.date.year then some stamp else none
  else none

/-- A year in four digits, or with a sign when that is not enough. -/
def renderYear (year : Int) : Text :=
  if 0 ≤ year ∧ year < 10000 then Decimal.renderPadded 4 year.toNat
  else (if year < 0 then '-' else '+') :: Decimal.renderPadded 4 year.natAbs

/-- A fraction in as many groups of three digits as it needs. -/
def renderFraction (nanosecond : Nat) : Text :=
  if nanosecond = 0 then []
  else if nanosecond % 1000000 = 0 then '.' :: Decimal.renderPadded 3 (nanosecond / 1000000)
  else if nanosecond % 1000 = 0 then '.' :: Decimal.renderPadded 6 (nanosecond / 1000)
  else '.' :: Decimal.renderPadded 9 nanosecond

def render (s : Timestamp) : Text :=
  let two := Decimal.renderPadded 2
  renderYear s.date.year ++ '-' :: two s.date.month ++ '-' :: two s.date.day
    ++ 'T' :: two s.hour ++ ':' :: two s.minute ++ ':' :: two s.second
    ++ renderFraction s.nanosecond ++ ['Z']

end Timestamp

end PromqlAssist
