import PromqlAssist.Proofs.Text.Bracket
import PromqlAssist.Proofs.Text.Mask
import PromqlAssist.Rule.Arithmetic
import PromqlAssist.Rule.Call
import PromqlAssist.Rule.LabelMatcher

/-!
# How character classes lie to each other

Letters, digits and the few other ASCII characters of queries are neither blank nor brackets.
-/

namespace PromqlAssist.Text

theorem isBlank_eq_false {c : Char} (low : 0x20 < c.toNat) (high : c.toNat < 0x80) :
    isBlank c = false := by
  unfold isBlank
  split
  all_goals first
    | omega
    | simp only [Bool.or_eq_false_iff, Bool.and_eq_false_iff, decide_eq_false_iff_not]
      omega

theorem toNat_of_isAlphanum {c : Char} (h : c.isAlphanum) : 0x20 < c.toNat ∧ c.toNat < 0x80 := by
  change (decide (65 ≤ c.val ∧ c.val ≤ 90) || (decide (97 ≤ c.val) && decide (c.val ≤ 122)) ||
    (decide (48 ≤ c.val) && decide (c.val ≤ 57))) = true at h
  simp only [Bool.or_eq_true, Bool.and_eq_true, decide_eq_true_eq, UInt32.le_iff_toNat_le] at h
  change ((65 ≤ c.toNat ∧ c.toNat ≤ 90) ∨ (97 ≤ c.toNat ∧ c.toNat ≤ 122)) ∨
    (48 ≤ c.toNat ∧ c.toNat ≤ 57) at h
  omega

theorem isAlphanum_of_isDigit {c : Char} (h : c.isDigit) : c.isAlphanum := by
  simp [Char.isAlphanum, h]

theorem isIdent_of_isLabelChar {c : Char} (h : isLabelChar c) : isIdent c := by
  rw [isLabelChar, Bool.or_eq_true] at h
  rcases h with h | h <;> simp [isIdent, h]

theorem isIdent_of_isDigit {c : Char} (h : c.isDigit) : isIdent c := by
  simp [isIdent, isAlphanum_of_isDigit h]

theorem isBlank_of_isIdent {c : Char} (h : isIdent c) : isBlank c = false := by
  have range : 0x20 < c.toNat ∧ c.toNat < 0x80 := by
    simp only [isIdent, Bool.or_eq_true, decide_eq_true_eq] at h
    rcases h with (rfl | rfl) | h
    · decide
    · decide
    · exact toNat_of_isAlphanum h
  exact isBlank_eq_false range.1 range.2

/-- The code points of the blanks. -/
def blankCodes : List Nat :=
  [0x9, 0xa, 0xb, 0xc, 0xd, 0x20, 0x85, 0xa0, 0x1680, 0x2000, 0x2001, 0x2002, 0x2003, 0x2004,
    0x2005, 0x2006, 0x2007, 0x2008, 0x2009, 0x200a, 0x2028, 0x2029, 0x202f, 0x205f, 0x3000]

theorem toNat_mem_of_isBlank {c : Char} (h : isBlank c) : c.toNat ∈ blankCodes := by
  simp only [blankCodes, List.mem_cons, List.not_mem_nil, or_false]
  unfold isBlank at h
  split at h
  all_goals first
    | omega
    | simp only [Bool.or_eq_true, Bool.and_eq_true, decide_eq_true_eq] at h
      omega

/-- There are few enough blanks to look at each of them. -/
theorem eq_false_of_isBlank {p : Char → Bool} (h : ∀ n ∈ blankCodes, p (Char.ofNat n) = false)
    {c : Char} (hc : isBlank c) : p c = false :=
  Char.ofNat_toNat c ▸ h c.toNat (toNat_mem_of_isBlank hc)

theorem isWordChar_of_isBlank {c : Char} (h : isBlank c) : isWordChar c = false :=
  eq_false_of_isBlank (p := isWordChar) (by decide +kernel) h

theorem isIdent_of_isBlank {c : Char} (h : isBlank c) : isIdent c = false :=
  eq_false_of_isBlank (p := isIdent) (by decide) h

theorem isBracket_of_isBlank {c : Char} (h : isBlank c) : isBracket c = false :=
  eq_false_of_isBlank (p := isBracket) (by decide) h

theorem ne_of_isBlank {c d : Char} (hc : isBlank c) (hd : isBlank d = false) : c ≠ d := by
  rintro rfl
  rw [hc] at hd
  cases hd

theorem isBracket_of_isIdent {c : Char} (h : isIdent c) : isBracket c = false := by
  cases hc : isBracket c with
  | false => rfl
  | true =>
    unfold isBracket closerOf? openerOf? at hc
    split at hc <;> split at hc <;> first
      | exact absurd h (by decide)
      | cases hc

theorem isQuote_of_isIdent {c : Char} (h : isIdent c) : isQuote c = false := by
  cases hc : isQuote c with
  | false => rfl
  | true =>
    simp only [isQuote, Bool.or_eq_true, decide_eq_true_eq] at hc
    rcases hc with (rfl | rfl) | rfl <;> exact absurd h (by decide)

/-- Every identifier character is a word character but the colon. -/
theorem isWordChar_of_isIdent {c : Char} (h : isIdent c) (hc : c ≠ ':') : isWordChar c := by
  have hclass : c = '_' ∨ c.isAlphanum := by
    simp only [isIdent, Bool.or_eq_true, decide_eq_true_eq] at h
    rcases h with (h | h) | h
    · exact .inl h
    · exact absurd h hc
    · exact .inr h
  rw [isWordChar, if_pos]
  · rcases hclass with rfl | h <;> simp [*]
  · rcases hclass with rfl | h
    · decide
    · exact (toNat_of_isAlphanum h).2

end PromqlAssist.Text

namespace PromqlAssist.Rule

open Text

theorem isComparisonChar_of_isIdent {c : Char} (h : isIdent c) : isComparisonChar c = false := by
  cases hc : isComparisonChar c with
  | false => rfl
  | true =>
    simp only [isComparisonChar, Bool.or_eq_true, decide_eq_true_eq] at hc
    rcases hc with (((rfl | rfl) | rfl) | rfl) | rfl <;> exact absurd h (by decide)

theorem isArithmetic_of_isIdent {c : Char} (h : isIdent c) : isArithmetic c = false := by
  cases hc : isArithmetic c with
  | false => rfl
  | true =>
    simp only [isArithmetic, Bool.or_eq_true, decide_eq_true_eq] at hc
    rcases hc with ((((rfl | rfl) | rfl) | rfl) | rfl) | rfl <;> exact absurd h (by decide)

theorem isArithmetic_of_isBlank {c : Char} (h : isBlank c) : isArithmetic c = false :=
  eq_false_of_isBlank (p := isArithmetic) (by decide) h

theorem endsOperand_of_isBlank {c : Char} (h : isBlank c) : endsOperand c = false :=
  eq_false_of_isBlank (p := endsOperand) (by decide) h

end PromqlAssist.Rule
