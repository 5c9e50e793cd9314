import PromqlAssist.Text.Bracket
import PromqlAssist.Text.Word

/-!
# Cutting texts

An offset that is the size of a first part cuts behind that part, and what a text starts with can be
dropped from it.
-/

namespace PromqlAssist.Text

/-- A text is checked character by character, and not by going through all characters there are. -/
instance {p : Char → Prop} [DecidablePred p] (t : Text) : Decidable (∀ c ∈ t, p c) :=
  List.decidableBAll p t

/-- Brackets take one byte each. -/
@[simp] theorem utf8Size_bracket :
    ('(' : Char).utf8Size = 1 ∧ (')' : Char).utf8Size = 1 ∧ ('[' : Char).utf8Size = 1 ∧
      (']' : Char).utf8Size = 1 ∧ ('{' : Char).utf8Size = 1 ∧ ('}' : Char).utf8Size = 1 := by
  decide

@[simp] theorem before_zero (t : Text) : before t 0 = [] := by
  cases t with
  | nil => rfl
  | cons c t => exact if_neg (Nat.not_le.mpr c.utf8Size_pos)

@[simp] theorem after_zero (t : Text) : after t 0 = t := by
  cases t with
  | nil => rfl
  | cons c t => exact if_neg (Nat.not_le.mpr c.utf8Size_pos)

@[simp] theorem before_append (s t : Text) (n : Nat) :
    before (s ++ t) (size s + n) = s ++ before t n := by
  induction s with
  | nil => simp
  | cons c s ih =>
    rw [List.cons_append, before, size_cons, if_pos (by omega), Nat.add_assoc,
      Nat.add_sub_cancel_left, ih, List.cons_append]

@[simp] theorem after_append (s t : Text) (n : Nat) :
    after (s ++ t) (size s + n) = after t n := by
  induction s with
  | nil => simp
  | cons c s ih =>
    rw [List.cons_append, after, size_cons, if_pos (by omega), Nat.add_assoc,
      Nat.add_sub_cancel_left, ih]

@[simp] theorem before_size_append (s t : Text) : before (s ++ t) (size s) = s := by
  simpa using before_append s t 0

@[simp] theorem after_size_append (s t : Text) : after (s ++ t) (size s) = t := by
  simpa using after_append s t 0

theorem after_append_cons (s : Text) (c : Char) (t : Text) :
    after (s ++ c :: t) (size s + c.utf8Size) = t := by
  rw [List.append_cons, ← Nat.add_zero c.utf8Size, ← size_nil, ← size_cons, ← size_append,
    after_size_append]

theorem before_append_of_le {s : Text} {n : Nat} (h : n ≤ size s) (t : Text) :
    before (s ++ t) n = before s n := by
  induction s generalizing n with
  | nil =>
    obtain rfl := Nat.le_zero.mp h
    simp
  | cons c s ih =>
    rw [size_cons] at h
    simp only [List.cons_append, before]
    split
    · rw [ih (by omega)]
    · rfl

theorem after_append_of_le {s : Text} {n : Nat} (h : n ≤ size s) (t : Text) :
    after (s ++ t) n = after s n ++ t := by
  induction s generalizing n with
  | nil =>
    obtain rfl := Nat.le_zero.mp h
    simp
  | cons c s ih =>
    rw [size_cons] at h
    simp only [List.cons_append, after]
    split
    · exact ih (by omega)
    · rfl

/-- The part between two others. -/
theorem slice_append (s t u : Text) : slice (s ++ (t ++ u)) (size s) (size s + size t) = t := by
  rw [slice, after_size_append, Nat.add_sub_cancel_left, before_size_append]

theorem dropPart?_eq_some_iff {part t rest : Text} :
    dropPart? part t = some rest ↔ t = part ++ rest := by
  induction part generalizing t with
  | nil => simp [dropPart?, eq_comm]
  | cons p part ih =>
    cases t with
    | nil => simp [dropPart?]
    | cons c t =>
      by_cases h : p = c
      · simp [dropPart?, h, ih]
      · simp [dropPart?, h, Ne.symm h]

theorem hasInfix_iff {part t : Text} : hasInfix part t ↔ part <:+: t := by
  induction t with
  | nil => simp [hasInfix]
  | cons c t ih =>
    rw [hasInfix, Bool.or_eq_true, List.isPrefixOf_iff_prefix, ih, List.infix_cons_iff]

theorem forall_ne_of_not_mem {c : Char} {t : Text} (h : c ∉ t) :
    ∀ d ∈ t, decide (d ≠ c) = true := by
  intro d hd
  simpa using fun heq : d = c => h (heq ▸ hd)

theorem takeWhile_ne_append {c : Char} {s : Text} (h : c ∉ s) (t : Text) :
    (s ++ c :: t).takeWhile (· ≠ c) = s := by
  rw [List.takeWhile_append_of_pos (forall_ne_of_not_mem h),
    List.takeWhile_cons_of_neg (by simp), List.append_nil]

theorem dropWhile_ne_append {c : Char} {s : Text} (h : c ∉ s) (t : Text) :
    (s ++ c :: t).dropWhile (· ≠ c) = c :: t := by
  rw [List.dropWhile_append_of_pos (forall_ne_of_not_mem h),
    List.dropWhile_cons_of_neg (by simp)]

theorem dropWhile_ne_eq_nil {c : Char} {t : Text} (h : c ∉ t) : t.dropWhile (· ≠ c) = [] := by
  induction t with
  | nil => rfl
  | cons d t ih =>
    rw [List.mem_cons, not_or] at h
    rw [List.dropWhile_cons_of_pos (by simpa using Ne.symm h.1), ih h.2]

/-- A run of characters of a class ends where no character of the class follows. -/
theorem takeWhile_run {p : Char → Bool} {s t : Text} (hs : ∀ c ∈ s, p c)
    (ht : ∀ c ∈ t.head?, p c = false) : (s ++ t).takeWhile p = s := by
  rw [List.takeWhile_append_of_pos hs]
  cases t with
  | nil => simp
  | cons c t => rw [List.takeWhile_cons_of_neg (by simp [ht c rfl]), List.append_nil]

theorem dropWhile_run {p : Char → Bool} {s t : Text} (hs : ∀ c ∈ s, p c)
    (ht : ∀ c ∈ t.head?, p c = false) : (s ++ t).dropWhile p = t := by
  rw [List.dropWhile_append_of_pos hs]
  cases t with
  | nil => rfl
  | cons c t => exact List.dropWhile_cons_of_neg (by simp [ht c rfl])

theorem head?_dropWhile (p : Char → Bool) (t : Text) :
    ∀ c ∈ (t.dropWhile p).head?, p c = false := by
  intro c hc
  have hdrop := List.head?_dropWhile_not p t
  rw [Option.mem_def.mp hc] at hdrop
  simpa using hdrop

theorem splitAt?_append {c : Char} {s : Text} (h : c ∉ s) (t : Text) :
    splitAt? [c] (s ++ c :: t) = some (s, t) := by
  induction s with
  | nil => simp [splitAt?, dropPart?]
  | cons d s ih =>
    rw [List.mem_cons, not_or] at h
    simp [splitAt?, dropPart?, h.1, ih h.2]

theorem splitAt?_eq_none {c : Char} {t : Text} (h : c ∉ t) : splitAt? [c] t = none := by
  induction t with
  | nil => rfl
  | cons d t ih =>
    rw [List.mem_cons, not_or] at h
    simp [splitAt?, dropPart?, h.1, ih h.2]

/-- A text is split at the first place where the part stands. -/
theorem splitAt?_eq_some {part t a b : Text} (hpart : part ≠ [])
    (h : splitAt? part t = some (a, b)) : t = a ++ (part ++ b) ∧ ¬ part <:+: a := by
  induction t generalizing a with
  | nil => simp [splitAt?, hpart] at h
  | cons c t ih =>
    rw [splitAt?] at h
    split at h
    · rename_i rest hdrop
      obtain ⟨rfl, rfl⟩ : [] = a ∧ rest = b := by simpa using h
      refine ⟨?_, by simpa using hpart⟩
      rw [List.nil_append]
      exact dropPart?_eq_some_iff.mp hdrop
    · rename_i hdrop
      obtain ⟨⟨front, behind⟩, hsplit, heq⟩ := Option.map_eq_some_iff.mp h
      obtain ⟨rfl, rfl⟩ : c :: front = a ∧ behind = b := by simpa using heq
      obtain ⟨rfl, hinfix⟩ := ih hsplit
      refine ⟨rfl, ?_⟩
      rw [List.infix_cons_iff, not_or]
      refine ⟨?_, hinfix⟩
      rintro ⟨rest, hrest⟩
      have hstart : dropPart? part (c :: (front ++ (part ++ behind))) =
          some (rest ++ (part ++ behind)) := by
        rw [dropPart?_eq_some_iff, ← List.cons_append, ← hrest, List.append_assoc]
      rw [hdrop] at hstart
      cases hstart

theorem not_infix_of_splitAt? {part t : Text} (h : splitAt? part t = none) : ¬ part <:+: t := by
  induction t with
  | nil =>
    intro hinfix
    obtain rfl := List.infix_nil.mp hinfix
    simp [splitAt?] at h
  | cons c t ih =>
    rw [splitAt?] at h
    split at h
    · cases h
    · rename_i hdrop
      rw [List.infix_cons_iff, not_or]
      refine ⟨?_, ih (Option.map_eq_none_iff.mp h)⟩
      rintro ⟨rest, hrest⟩
      rw [dropPart?_eq_some_iff.mpr hrest.symm] at hdrop
      cases hdrop

/-- Two characters that differ do not overlap with themselves, so they are found where they stand
first. -/
theorem splitAt?_pair {c d : Char} {s : Text} (hne : c ≠ d) (h : ¬ [c, d] <:+: s) (t : Text) :
    splitAt? [c, d] (s ++ c :: d :: t) = some (s, t) := by
  induction s with
  | nil => simp [splitAt?, dropPart?]
  | cons x s ih =>
    rw [List.infix_cons_iff, not_or] at h
    have hdrop : dropPart? [c, d] (x :: (s ++ c :: d :: t)) = none := by
      rw [Option.eq_none_iff_forall_ne_some]
      intro rest hrest
      obtain ⟨rfl, htail⟩ : x = c ∧ s ++ c :: d :: t = d :: rest := by
        simpa using dropPart?_eq_some_iff.mp hrest
      cases s with
      | nil => exact hne (List.cons.inj htail).1
      | cons y s =>
        obtain ⟨rfl, -⟩ := List.cons.inj htail
        exact h.1 ⟨s, rfl⟩
    rw [List.cons_append, splitAt?, hdrop, ih h.2]
    rfl

theorem afterLast?_eq_some {c : Char} {t rest : Text} (h : afterLast? c t = some rest) :
    ∃ front, t = front ++ c :: rest := by
  induction t with
  | nil => cases h
  | cons d t ih =>
    rw [afterLast?] at h
    cases hlater : afterLast? c t with
    | some later =>
      rw [hlater] at h
      obtain ⟨front, rfl⟩ := ih (hlater.trans h)
      exact ⟨d :: front, rfl⟩
    | none =>
      rw [hlater] at h
      obtain ⟨rfl, rfl⟩ : d = c ∧ t = rest := by simpa using h
      exact ⟨[], rfl⟩

/-- A character that does not occur in the second part stands in the first. -/
theorem exists_append_of_not_mem {c : Char} {s t front behind : Text} (hs : c ∉ s)
    (h : t ++ s = front ++ c :: behind) :
    ∃ rest, t = front ++ c :: rest ∧ behind = rest ++ s := by
  obtain ⟨lead, -, rfl⟩ | ⟨tail, rfl, htail⟩ := List.append_eq_append_iff.mp h
  · simp at hs
  · cases tail with
    | nil =>
      obtain rfl : c :: behind = s := htail
      simp at hs
    | cons d tail =>
      obtain ⟨rfl, rfl⟩ := List.cons.inj htail
      exact ⟨tail, rfl, rfl⟩

theorem afterLast?_append_cons (c : Char) (front behind : Text) :
    afterLast? c (front ++ c :: behind) = some ((afterLast? c behind).getD behind) := by
  induction front with
  | nil =>
    rw [List.nil_append, afterLast?, if_pos rfl]
    cases afterLast? c behind <;> rfl
  | cons d front ih => rw [List.cons_append, afterLast?, ih, Option.orElse_some]

theorem afterLast?_append {c : Char} {behind : Text} (hc : c ∉ behind) (front : Text) :
    afterLast? c (front ++ c :: behind) = some behind := by
  rw [afterLast?_append_cons]
  cases hlast : afterLast? c behind with
  | none => rfl
  | some rest =>
    obtain ⟨front, rfl⟩ := afterLast?_eq_some hlast
    simp at hc

theorem trimStart_of_head {c : Char} (h : isBlank c = false) (t : Text) :
    trimStart (c :: t) = c :: t :=
  List.dropWhile_cons_of_neg (by simp [h])

theorem trimStart_blank {c : Char} (h : isBlank c) (t : Text) : trimStart (c :: t) = trimStart t :=
  List.dropWhile_cons_of_pos h

theorem trim_eq_self {t : Text} (h : ∀ c ∈ t, isBlank c = false) : trim t = t := by
  have keep : ∀ s : Text, (∀ c ∈ s, isBlank c = false) → s.dropWhile isBlank = s := by
    intro s hs
    cases s with
    | nil => rfl
    | cons c s => exact List.dropWhile_cons_of_neg (by simp [hs c])
  rw [trim, trimEnd, trimStart, keep t h, dropTrailing,
    keep t.reverse fun c hc => h c (List.mem_reverse.mp hc), List.reverse_reverse]

theorem mem_trim (hmem : c ∈ t) (hc : isBlank c = false) : c ∈ trim t := by
  have hstart : ∀ {s : Text}, c ∈ s → c ∈ s.dropWhile isBlank := by
    intro s hs
    rw [← List.takeWhile_append_dropWhile (p := isBlank) (l := s), List.mem_append] at hs
    refine hs.resolve_left fun hblank => ?_
    rw [List.all_eq_true.mp List.all_takeWhile c hblank] at hc
    cases hc
  rw [trim, trimEnd, dropTrailing, List.mem_reverse]
  exact hstart (List.mem_reverse.mpr (hstart hmem))

end PromqlAssist.Text
