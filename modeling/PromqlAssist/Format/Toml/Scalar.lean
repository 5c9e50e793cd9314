import PromqlAssist.Format.Date
import PromqlAssist.Format.Decimal
import PromqlAssist.Format.Json.Parser
import PromqlAssist.Format.Toml.Basic

/-!
# Unquoted values

Numbers, truth values, dates and times.
-/

namespace PromqlAssist.Toml

/-- Digits, between which single underscores may stand. -/
def groupedDigits? (isDigit : Char → Bool) : Text → Option Text
  | [] => none
  | [c] => if isDigit c then some [c] else none
  | c :: '_' :: rest =>
    if isDigit c then (groupedDigits? isDigit rest).map (c :: ·) else none
  | c :: d :: rest =>
    if isDigit c then (groupedDigits? isDigit (d :: rest)).map (c :: ·) else none

/-- The number that digits denote in a base. -/
def ofDigitsIn (base : Nat) (digits : Text) : Nat :=
  digits.foldl (fun n c => n * base + (Json.hexValue? c).getD 0) 0

/-- An unsigned number in a base, written with the digits of the base. -/
def radix? (base : Nat) (t : Text) : Option Toml :=
  (groupedDigits? (fun c => ((Json.hexValue? c).map fun v => decide (v < base)).getD false) t).map
    fun digits => .integer (ofDigitsIn base digits)

/-- Decimal digits without a zero in front, except that zero is written as one. -/
def whole? (t : Text) : Option Text := do
  let digits ← groupedDigits? Char.isDigit t
  if digits.length > 1 && digits.head? = some '0' then none else some digits

/-- An exponent behind its letter. -/
def exponent? : Text → Option Int
  | '-' :: t => (groupedDigits? Char.isDigit t).map fun d => -(Decimal.ofDigits 0 d : Int)
  | '+' :: t => (groupedDigits? Char.isDigit t).map fun d => (Decimal.ofDigits 0 d : Int)
  | t => (groupedDigits? Char.isDigit t).map fun d => (Decimal.ofDigits 0 d : Int)

/-- A number with fraction or exponent, without its sign. -/
def float? (t : Text) : Option Toml := do
  let mantissa := t.takeWhile fun c => c ≠ 'e' && c ≠ 'E'
  let exponent ← match t.drop mantissa.length with
    | [] => some 0
    | _ :: written => exponent? written
  let (whole, fraction) ← match Text.splitAt? ['.'] mantissa with
    | none => (whole? mantissa).map fun w => (w, [])
    | some (w, f) => do some (← whole? w, ← groupedDigits? Char.isDigit f)
  some (.float !(Decimal.exceedsDouble whole fraction exponent))

/-- A decimal number without its sign. -/
def decimal? (negative : Bool) (t : Text) : Option Toml :=
  if t = "inf".toList || t = "nan".toList then some (.float true)
  else
    match whole? t with
    | some digits =>
      let n : Int := Decimal.ofDigits 0 digits
      some (.integer (if negative then -n else n))
    | none => float? t

/-- A number of two digits below `limit`. -/
def twoDigits? (limit : Nat) (a b : Char) : Option Nat :=
  (Decimal.digits? [a, b]).bind fun n => if n < limit then some n else none

/-- The text behind a time of day. -/
def afterClock? : Text → Option Text
  | h₁ :: h₂ :: ':' :: m₁ :: m₂ :: ':' :: s₁ :: s₂ :: rest => do
    let _ ← twoDigits? 24 h₁ h₂
    let _ ← twoDigits? 60 m₁ m₂
    let _ ← twoDigits? 61 s₁ s₂
    match rest with
    | '.' :: rest =>
      let digits := rest.takeWhile Char.isDigit
      if digits.isEmpty then none else some (rest.drop digits.length)
    | _ => some rest
  | _ => none

/-- Whether a text is empty or a distance to universal time. -/
def isOffset : Text → Bool
  | [] => true
  | [c] => c = 'Z' || c = 'z'
  | [sign, h₁, h₂, ':', m₁, m₂] =>
    (sign = '+' || sign = '-') && (twoDigits? 24 h₁ h₂).isSome && (twoDigits? 60 m₁ m₂).isSome
  | _ => false

/-- The text behind a date of the calendar. -/
def afterDate? : Text → Option Text
  | y₁ :: y₂ :: y₃ :: y₄ :: '-' :: m₁ :: m₂ :: '-' :: d₁ :: d₂ :: rest => do
    let year ← Decimal.digits? [y₁, y₂, y₃, y₄]
    let date : Date := ⟨year, ← Decimal.digits? [m₁, m₂], ← Decimal.digits? [d₁, d₂]⟩
    if date.IsValid then some rest else none
  | _ => none

/-- A date, a time of day, or a date with a time of day and perhaps an offset. -/
def isDateTime (t : Text) : Bool :=
  match afterDate? t with
  | some [] => true
  | some (c :: rest) =>
    (c = 'T' || c = 't' || c = ' ') && ((afterClock? rest).map isOffset).getD false
  | none => ((afterClock? t).map List.isEmpty).getD false

/-- The value of an unquoted word. -/
def scalar? (t : Text) : Option Toml :=
  match t with
  | '+' :: rest => decimal? false rest
  | '-' :: rest => decimal? true rest
  | '0' :: 'x' :: rest => radix? 16 rest
  | '0' :: 'o' :: rest => radix? 8 rest
  | '0' :: 'b' :: rest => radix? 2 rest
  | _ =>
    if t = "true".toList then some (.boolean true)
    else if t = "false".toList then some (.boolean false)
    else if isDateTime t then some .dateTime
    else decimal? false t

end PromqlAssist.Toml
