import PromqlAssist.Template.Snippet

/-!
# Escaped text

Escaping is undone by unescaping wherever the two meet in whole pieces. A text that is cut inside
an escaped character keeps the backslash that protected it, so backslashes are counted: cutting
never loses one.
-/

namespace PromqlAssist.Snippet

theorem isSpecial_iff {c : Char} : isSpecial c ↔ c = '\\' ∨ c = '$' ∨ c = '}' := by
  simp [isSpecial, or_assoc]

@[simp] theorem unescape_nil : unescape [] = [] := rfl

theorem unescape_cons {c : Char} (h : c ≠ '\\') (t : Text) :
    unescape (c :: t) = c :: unescape t := by
  cases t with
  | nil => rfl
  | cons d t => simp [unescape, h]

theorem unescape_special {c : Char} (h : isSpecial c) (t : Text) :
    unescape ('\\' :: c :: t) = c :: unescape t := by
  simp [unescape, h]

theorem ne_backslash_of_not_special {c : Char} (h : ¬ isSpecial c) : c ≠ '\\' := by
  rintro rfl
  exact h (by decide)

/-- Escaped text is unescaped whatever stands behind it. -/
theorem unescape_escape_append (s t : Text) : unescape (escape s ++ t) = s ++ unescape t := by
  induction s with
  | nil => rfl
  | cons c s ih =>
    by_cases h : isSpecial c
    · simp [escape, h, unescape_special h, ih]
    · simp [escape, h, unescape_cons (ne_backslash_of_not_special h), ih]

theorem unescape_escape_self (s : Text) : unescape (escape s) = s := by
  simpa using unescape_escape_append s []

@[simp] theorem escape_append (s t : Text) : escape (s ++ t) = escape s ++ escape t := by
  induction s with
  | nil => rfl
  | cons c s ih => by_cases h : isSpecial c <;> simp [escape, h, ih]

theorem escape_eq_self {t : Text} (h : ∀ c ∈ t, ¬ isSpecial c) : escape t = t := by
  induction t with
  | nil => rfl
  | cons c t ih =>
    rw [escape, if_neg (h c (by simp)), ih fun d hd => h d (by simp [hd])]

/-- Escaping adds backslashes and nothing else. -/
theorem mem_escape {c : Char} (h : c ≠ '\\') {t : Text} : c ∈ escape t ↔ c ∈ t := by
  induction t with
  | nil => rfl
  | cons d t ih => by_cases hd : isSpecial d <;> simp [escape, hd, h, ih]

theorem escape_eq_nil_iff {t : Text} : escape t = [] ↔ t = [] := by
  cases t with
  | nil => simp [escape]
  | cons c t => by_cases h : isSpecial c <;> simp [escape, h]

/-- The number of backslashes of a text. -/
def backslashes (t : Text) : Nat :=
  t.count '\\'

@[simp] theorem backslashes_nil : backslashes [] = 0 := rfl

@[simp] theorem backslashes_append (s t : Text) :
    backslashes (s ++ t) = backslashes s + backslashes t :=
  List.count_append

theorem backslashes_cons {c : Char} (h : c ≠ '\\') (t : Text) :
    backslashes (c :: t) = backslashes t :=
  List.count_cons_of_ne h

@[simp] theorem backslashes_backslash (t : Text) :
    backslashes ('\\' :: t) = backslashes t + 1 :=
  List.count_cons_self

theorem backslashes_eq_zero {t : Text} (h : '\\' ∉ t) : backslashes t = 0 :=
  List.count_eq_zero.mpr h

/-- Text without a backslash is not changed, whatever stands behind it. -/
theorem unescape_append_of_not_mem {s : Text} (h : '\\' ∉ s) (t : Text) :
    unescape (s ++ t) = s ++ unescape t := by
  induction s with
  | nil => rfl
  | cons c s ih =>
    rw [List.mem_cons, not_or] at h
    rw [List.cons_append, unescape_cons (Ne.symm h.1), ih h.2, List.cons_append]

theorem backslashes_unescape_append {s : Text} (h : '\\' ∉ s) (t : Text) :
    backslashes (unescape (s ++ t)) = backslashes (unescape t) := by
  rw [unescape_append_of_not_mem h, backslashes_append, backslashes_eq_zero h, Nat.zero_add]

/-- Cutting a text in front of a character that is no backslash loses no backslash, and may keep
one that would have protected the character. -/
theorem backslashes_unescape_append_le (s : Text) {c : Char} (h : c ≠ '\\') (t : Text) :
    backslashes (unescape (s ++ c :: t)) ≤
      backslashes (unescape s) + backslashes (unescape (c :: t)) := by
  have count : ∀ d u, backslashes (d :: u) = backslashes [d] + backslashes u :=
    fun d u => backslashes_append [d] u
  induction s using unescape.induct with
  | case1 => simp
  | case2 d =>
    by_cases hd : (decide (d = '\\') && isSpecial c) = true
    · simp only [List.singleton_append, unescape, if_pos hd, unescape_cons h, backslashes_cons h]
      exact Nat.le_add_left _ _
    · simp only [List.singleton_append, unescape, if_neg hd]
      exact Nat.le_of_eq (count d _)
  | case3 d e s hde ih =>
    simp only [List.cons_append, unescape, if_pos hde]
    rw [count e, count e (unescape s)]
    omega
  | case4 d e s hde ih =>
    simp only [List.cons_append, unescape, if_neg hde] at ih ⊢
    rw [count d, count d (unescape (e :: s))]
    omega

end PromqlAssist.Snippet
