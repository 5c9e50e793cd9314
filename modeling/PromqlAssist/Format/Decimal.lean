import PromqlAssist.Text.Basic

/-!
# Decimal numbers

Unsigned decimal numbers with an optional plus sign, below a limit, and the range of numbers with a
fraction or an exponent.
-/

namespace PromqlAssist.Decimal

/-- The value of a digit. -/
def digitValue (c : Char) : Nat :=
  c.toNat - '0'.toNat

/-- The number that a run of digits denotes, continuing `value`. -/
def ofDigits (value : Nat) : Text → Nat
  | [] => value
  | c :: t => ofDigits (10 * value + digitValue c) t

/-- The number of a text that holds digits only, at least one. -/
def digits? (t : Text) : Option Nat :=
  if !t.isEmpty && t.all Char.isDigit then some (ofDigits 0 t) else none

/-- The number of an unsigned numeral: digits, perhaps after a plus sign, of a value below
`limit`. -/
def parse? (limit : Nat) (t : Text) : Option Nat :=
  let body := match t with
    | '+' :: rest => rest
    | _ => t
  (digits? body).bind fun n => if n < limit then some n else none

/-- The least number that binary floating point of 64 bits rounds up to infinity. -/
def doubleBound : Nat :=
  Nat.pow 2 1024 - Nat.pow 2 970

/-- Whether a decimal is too large for binary floating point of 64 bits. `whole` are the digits in
front of the point and `fraction` those behind it. -/
def exceedsDouble (whole fraction : Text) (exponent : Int) : Bool :=
  let digits := whole ++ fraction
  let significant := digits.dropWhile (· = '0')
  -- The value is below ten to this power, and not below a tenth of that.
  let magnitude := exponent + whole.length - (digits.length - significant.length : Nat)
  !significant.isEmpty && (309 < magnitude || (magnitude = 309 &&
    doubleBound * Nat.pow 10 significant.length ≤ ofDigits 0 significant * Nat.pow 10 309))

/-- The decimal digits of a number. -/
def render (n : Nat) : Text :=
  Nat.toDigits 10 n

/-- The decimal digits of a number, led by zeros to a least width. -/
def renderPadded (width n : Nat) : Text :=
  let digits := render n
  List.replicate (width - digits.length) '0' ++ digits

end PromqlAssist.Decimal
