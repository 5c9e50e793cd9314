import Mathlib.Algebra.Group.Nat.Defs
import PromqlAssist.Format.Decimal

/-!
# Numerals

A number is read back from its digits. Numerals of one length are ordered as texts just as they are
as numbers, since the first digit in which they differ outweighs all that follow it.
-/

namespace PromqlAssist

namespace Decimal

theorem ofDigits_eq_ofDigitChars (value : Nat) (t : Text) :
    ofDigits value t = Nat.ofDigitChars 10 t value := by
  induction t generalizing value with
  | nil => exact Nat.ofDigitChars_nil.symm
  | cons c t ih =>
    rw [Nat.ofDigitChars_cons]
    exact ih _

theorem isDigit_of_mem_render {c : Char} {n : Nat} (h : c ∈ render n) : c.isDigit :=
  Nat.isDigit_of_mem_toDigits (by decide) (by decide) h

theorem digits?_render (n : Nat) : digits? (render n) = some n := by
  have nonempty : (render n).isEmpty = false := by
    simp [render, Nat.toDigits_ne_nil]
  have digits : (render n).all Char.isDigit = true :=
    List.all_eq_true.mpr fun _ h => isDigit_of_mem_render h
  have value : ofDigits 0 (render n) = n := by
    rw [ofDigits_eq_ofDigitChars, render, Nat.ofDigitChars_ten_toDigits]
  simp [digits?, nonempty, digits, value]

theorem render_injective : Function.Injective render := by
  intro m n h
  apply Option.some.inj
  rw [← digits?_render m, h, digits?_render]

/-- A number below the limit is read back from its decimal digits. -/
theorem parse?_render {limit n : Nat} (h : n < limit) : parse? limit (render n) = some n := by
  unfold parse?
  split
  · rename_i rest heq
    have : '+' ∈ render n := by simp [heq]
    exact absurd (isDigit_of_mem_render this) (by decide)
  · simp only [digits?_render, Option.bind_some, if_pos h]

theorem lt_of_parse? {limit n : Nat} {t : Text} (h : parse? limit t = some n) : n < limit := by
  obtain ⟨m, -, hm⟩ := Option.bind_eq_some_iff.mp h
  split at hm
  · simp_all
  · simp at hm

/-- A numeral holds digits and perhaps a plus sign. -/
theorem mem_of_parse? {limit n : Nat} {t : Text} {c : Char} (h : parse? limit t = some n)
    (hc : c ∈ t) : c.isDigit ∨ c = '+' := by
  obtain ⟨m, hm, -⟩ := Option.bind_eq_some_iff.mp h
  have digits : ∀ body : Text, digits? body = some m → ∀ d ∈ body, d.isDigit := by
    intro body hbody d hd
    rw [digits?] at hbody
    split at hbody
    · rename_i hall
      exact List.all_eq_true.mp (Bool.and_eq_true_iff.mp hall).2 d hd
    · simp at hbody
  split at hm
  · rcases List.mem_cons.mp hc with rfl | hc
    · exact .inr rfl
    · exact .inl (digits _ hm _ hc)
  · exact .inl (digits _ hm _ hc)

/-! ## The order of numerals -/

variable {c d : Char} {s t : Text} {m n width : Nat}

theorem isDigit_iff : c.isDigit ↔ 48 ≤ c.toNat ∧ c.toNat ≤ 57 := by
  rw [Char.isDigit, Bool.and_eq_true, decide_eq_true_eq, decide_eq_true_eq]
  exact Iff.rfl

theorem digitValue_lt_ten (h : c.isDigit) : digitValue c < 10 := by
  have hrange := isDigit_iff.mp h
  change c.toNat - 48 < 10
  omega

theorem digitValue_lt (hc : c.isDigit) (h : c < d) : digitValue c < digitValue d := by
  have hrange := isDigit_iff.mp hc
  have hlt : c.toNat < d.toNat := h
  change c.toNat - 48 < d.toNat - 48
  omega

theorem ofDigits_cons (value : Nat) (c : Char) (t : Text) :
    ofDigits value (c :: t) = ofDigits (10 * value + digitValue c) t := by
  unfold digitValue
  rfl

/-- Digits that follow keep a value at least. -/
theorem le_ofDigits (value : Nat) (t : Text) : value * 10 ^ t.length ≤ ofDigits value t := by
  induction t generalizing value with
  | nil => exact Nat.le_of_eq (Nat.mul_one value)
  | cons c t ih =>
    rw [ofDigits_cons, List.length_cons, Nat.pow_succ', ← Nat.mul_assoc, Nat.mul_comm value]
    exact Nat.le_trans (Nat.mul_le_mul_right _ (Nat.le_add_right _ _)) (ih _)

theorem ofDigits_lt (h : ∀ c ∈ t, c.isDigit) (value : Nat) :
    ofDigits value t < (value + 1) * 10 ^ t.length := by
  induction t generalizing value with
  | nil => exact Nat.lt_of_lt_of_eq value.lt_succ_self (Nat.mul_one _).symm
  | cons c t ih =>
    obtain ⟨hc, ht⟩ := List.forall_mem_cons.mp h
    have hdigit := digitValue_lt_ten hc
    rw [ofDigits_cons, List.length_cons, Nat.pow_succ', ← Nat.mul_assoc, Nat.mul_comm _ 10]
    exact Nat.lt_of_lt_of_le (ih ht _) (Nat.mul_le_mul_right _ (by omega))

/-- The induction is over the digits that both numerals have in front, which have one value. -/
theorem lt_of_ofDigits_lt (hlength : s.length = t.length) (hs : ∀ c ∈ s, c.isDigit)
    (ht : ∀ c ∈ t, c.isDigit) {value : Nat} (h : ofDigits value s < ofDigits value t) : s < t := by
  induction s generalizing t value with
  | nil =>
    obtain rfl := List.length_eq_zero_iff.mp hlength.symm
    exact absurd h (Nat.lt_irrefl _)
  | cons c s ih =>
    cases t with
    | nil => cases hlength
    | cons d t =>
      have htails : s.length = t.length := Nat.succ.inj hlength
      obtain ⟨hc, hs⟩ := List.forall_mem_cons.mp hs
      obtain ⟨hd, htail⟩ := List.forall_mem_cons.mp ht
      rw [List.cons_lt_cons_iff]
      by_cases heq : c = d
      · subst heq
        exact .inr ⟨rfl, ih htails hs htail h⟩
      · refine .inl (Decidable.byContradiction fun hge => ?_)
        -- A greater first digit makes a greater number.
        have hvalue : digitValue d < digitValue c :=
          digitValue_lt hd (Std.lt_of_le_of_ne (Std.not_lt.mp hge) (Ne.symm heq))
        have hle := Nat.mul_le_mul_right (10 ^ t.length)
          (show 10 * value + digitValue d + 1 ≤ 10 * value + digitValue c by omega)
        have hupper := ofDigits_lt htail (10 * value + digitValue d)
        have hlower := le_ofDigits (10 * value + digitValue c) s
        rw [htails] at hlower
        rw [ofDigits_cons, ofDigits_cons] at h
        omega

/-! ## Numerals led by zeros -/

theorem isDigit_of_mem_renderPadded (h : c ∈ renderPadded width n) : c.isDigit := by
  rcases List.mem_append.mp h with hzero | hdigit
  · rw [List.eq_of_mem_replicate hzero]
    decide
  · exact isDigit_of_mem_render hdigit

theorem ofDigits_renderPadded (width n : Nat) : ofDigits 0 (renderPadded width n) = n := by
  rw [ofDigits_eq_ofDigitChars, renderPadded, Nat.ofDigitChars_append,
    Nat.ofDigitChars_replicate_zero, Nat.mul_zero, render, Nat.ofDigitChars_ten_toDigits]

theorem length_renderPadded (h : n < 10 ^ width) (hwidth : 0 < width) :
    (renderPadded width n).length = width := by
  have hle : (render n).length ≤ width := (Nat.length_toDigits_le_iff (by decide) hwidth).mpr h
  rw [renderPadded, List.length_append, List.length_replicate]
  omega

/-- Numbers that fit into the width are ordered as their numerals are. -/
theorem renderPadded_lt (hmn : m < n) (hn : n < 10 ^ width) :
    renderPadded width m < renderPadded width n := by
  have hwidth : 0 < width := by
    rw [Nat.pos_iff_ne_zero]
    rintro rfl
    omega
  have hlength : (renderPadded width m).length = (renderPadded width n).length := by
    rw [length_renderPadded (Nat.lt_trans hmn hn) hwidth, length_renderPadded hn hwidth]
  apply lt_of_ofDigits_lt hlength (fun _ => isDigit_of_mem_renderPadded)
    (fun _ => isDigit_of_mem_renderPadded)
  rwa [ofDigits_renderPadded, ofDigits_renderPadded]

end Decimal

end PromqlAssist
