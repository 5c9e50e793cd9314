/-!
# Dates

Dates of the Gregorian calendar, extended to all years.
-/

namespace PromqlAssist

structure Date where
  year : Int
  month : Nat
  day : Nat
deriving DecidableEq, Repr

namespace Date

def isLeapYear (year : Int) : Bool :=
  year % 4 = 0 && (year % 100 ≠ 0 || year % 400 = 0)

def daysInMonth (year : Int) : Nat → Nat
  | 2 => if isLeapYear year then 29 else 28
  | 4 | 6 | 9 | 11 => 30
  | _ => 31

/-- Whether a date is in the calendar. -/
def IsValid (d : Date) : Prop :=
  1 ≤ d.month ∧ d.month ≤ 12 ∧ 1 ≤ d.day ∧ d.day ≤ daysInMonth d.year d.month

instance (d : Date) : Decidable d.IsValid :=
  inferInstanceAs (Decidable (_ ∧ _))

/-- The day after. -/
def next (d : Date) : Date :=
  if d.day < daysInMonth d.year d.month then { d with day := d.day + 1 }
  else if d.month < 12 then ⟨d.year, d.month + 1, 1⟩
  else ⟨d.year + 1, 1, 1⟩

/-- The day before. -/
def previous (d : Date) : Date :=
  if 1 < d.day then { d with day := d.day - 1 }
  else if 1 < d.month then ⟨d.year, d.month - 1, daysInMonth d.year (d.month - 1)⟩
  else ⟨d.year - 1, 12, 31⟩

theorem previous_next {d : Date} (h : d.IsValid) : d.next.previous = d := by
  obtain ⟨year, month, day⟩ := d
  obtain ⟨hm, hm', hd, hd'⟩ := h
  dsimp only at hm hm' hd hd'
  dsimp only [next]
  split
  · simp [previous, Nat.lt_of_lt_of_le Nat.zero_lt_one hd]
  · split
    · have : day = daysInMonth year month := by omega
      simp [previous, Nat.lt_of_lt_of_le Nat.zero_lt_one hm, this]
    · have hmonth : month = 12 := by omega
      subst hmonth
      have : day = 31 := by
        have : daysInMonth year 12 = 31 := rfl
        omega
      simp [previous, this]

end Date

end PromqlAssist
