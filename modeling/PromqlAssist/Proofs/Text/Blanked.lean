import PromqlAssist.Proofs.Text.Boundary
import PromqlAssist.Text.Literal

/-!
# Blanked texts

Masking a text blanks some of its characters and leaves the others where they are. So wherever a
masked text can be cut next to a character that is no blank, the text itself can be cut as well, and
the parts of the one are the blanked parts of the other.
-/

namespace PromqlAssist.Text

/-- The second text is the first with some characters blanked, each by as many blanks as it has
bytes. -/
inductive Blanked : Text → Text → Prop where
  | nil : Blanked [] []
  | keep (c : Char) {t m : Text} (h : Blanked t m) : Blanked (c :: t) (c :: m)
  | blank (c : Char) {t m : Text} (h : Blanked t m) : Blanked (c :: t) (blankFor c ++ m)

variable {t m a b p w s : Text} {c d : Char}

@[simp] theorem size_blankFor (c : Char) : size (blankFor c) = c.utf8Size := by
  have replicate : ∀ n, size (List.replicate n ' ') = n := by
    intro n
    induction n with
    | zero => rfl
    | succ n ih =>
      have hspace : (' ' : Char).utf8Size = 1 := by decide
      rw [List.replicate_succ, size_cons, ih, hspace, Nat.add_comm]
  exact replicate _

theorem eq_blank_of_mem_blankFor (h : d ∈ blankFor c) : d = ' ' :=
  List.eq_of_mem_replicate h

namespace Blanked

theorem size_eq (h : Blanked t m) : size t = size m := by
  induction h with
  | nil => rfl
  | keep c _ ih => rw [size_cons, size_cons, ih]
  | blank c _ ih => rw [size_cons, size_append, size_blankFor, ih]

theorem eq_nil (h : Blanked t []) : t = [] :=
  size_eq_zero_iff.mp h.size_eq

theorem self (t : Text) : Blanked t t := by
  induction t with
  | nil => exact .nil
  | cons c t ih => exact .keep c ih

theorem maskFrom (state : LiteralState) (t : Text) : Blanked t (maskFrom state t) := by
  induction t generalizing state with
  | nil => cases state <;> exact .nil
  | cons c t ih =>
    cases state with
    | outside => exact .keep c (ih _)
    | inside =>
      rw [Text.maskFrom]
      split
      · exact .keep c (ih _)
      · exact .blank c (ih _)
    | escaped => exact .blank c (ih _)

theorem mask (t : Text) : Blanked t t.mask :=
  maskFrom .outside t

/-- The parts of a text are blanked one by one. -/
theorem exists_of_append (h : Blanked (a ++ b) m) :
    ∃ am bm, m = am ++ bm ∧ Blanked a am ∧ Blanked b bm := by
  induction a generalizing m with
  | nil => exact ⟨[], m, rfl, .nil, h⟩
  | cons c a ih =>
    cases h with
    | keep _ h =>
      obtain ⟨am, bm, rfl, ha, hb⟩ := ih h
      exact ⟨c :: am, bm, rfl, .keep c ha, hb⟩
    | blank _ h =>
      obtain ⟨am, bm, rfl, ha, hb⟩ := ih h
      exact ⟨blankFor c ++ am, bm, (List.append_assoc _ _ _).symm, .blank c ha, hb⟩

/-- A character that is no blank stands in the text as well, between the parts that were blanked. -/
theorem exists_of_append_cons (h : Blanked t (p ++ c :: s)) (hc : c ≠ ' ') :
    ∃ p' s', t = p' ++ c :: s' ∧ Blanked p' p ∧ Blanked s' s := by
  generalize hm : p ++ c :: s = m at h
  induction h generalizing p with
  | nil => exact absurd hm (by simp)
  | @keep d t m h ih =>
    cases p with
    | nil =>
      obtain ⟨rfl, rfl⟩ := List.cons.inj hm
      exact ⟨[], t, rfl, .nil, h⟩
    | cons e p =>
      obtain ⟨rfl, rfl⟩ := List.cons.inj hm
      obtain ⟨p', s', rfl, hp, hs⟩ := ih rfl
      exact ⟨e :: p', s', rfl, .keep e hp, hs⟩
  | @blank d t m h ih =>
    rcases List.append_eq_append_iff.mp hm with ⟨r, hblank, hrest⟩ | ⟨r, rfl, hrest⟩
    · -- The blanks would reach up to the character.
      cases r with
      | nil =>
        obtain ⟨p', s', rfl, hp, hs⟩ := ih (p := []) hrest
        obtain rfl := hp.eq_nil
        refine ⟨[d], s', rfl, ?_, hs⟩
        rw [List.append_nil] at hblank
        simpa [← hblank] using Blanked.blank d .nil
      | cons e r =>
        obtain ⟨rfl, -⟩ := List.cons.inj hrest
        have hmem : c ∈ blankFor d := by simp [hblank]
        exact absurd (eq_blank_of_mem_blankFor hmem) hc
    · obtain ⟨p', s', rfl, hp, hs⟩ := ih hrest.symm
      exact ⟨d :: p', s', rfl, .blank d hp, hs⟩

/-- So does a word without blanks, here at the start. -/
theorem exists_of_word (h : Blanked t (w ++ s)) (hw : ∀ c ∈ w, c ≠ ' ') :
    ∃ s', t = w ++ s' ∧ Blanked s' s := by
  induction w generalizing t with
  | nil => exact ⟨t, rfl, h⟩
  | cons c w ih =>
    obtain ⟨p', t', rfl, hp, ht⟩ := exists_of_append_cons (p := []) h (hw c (by simp))
    obtain rfl := hp.eq_nil
    obtain ⟨s', rfl, hs⟩ := ih ht fun d hd => hw d (by simp [hd])
    exact ⟨s', rfl, hs⟩

theorem exists_of_append_word (h : Blanked t (p ++ (w ++ s))) (hw : ∀ c ∈ w, c ≠ ' ')
    (hne : w ≠ []) : ∃ p' s', t = p' ++ (w ++ s') ∧ Blanked p' p ∧ Blanked s' s := by
  cases w with
  | nil => exact absurd rfl hne
  | cons c w =>
    obtain ⟨p', t', rfl, hp, ht⟩ := exists_of_append_cons h (hw c (by simp))
    obtain ⟨s', rfl, hs⟩ := ht.exists_of_word fun d hd => hw d (by simp [hd])
    exact ⟨p', s', rfl, hp, hs⟩

theorem isBoundary_size (h : Blanked t m) : t.IsBoundary (size m) :=
  h.size_eq ▸ Text.isBoundary_size t

theorem isBoundary_before (h : Blanked t (p ++ c :: s)) (hc : c ≠ ' ') :
    t.IsBoundary (size p) := by
  obtain ⟨p', s', rfl, hp, -⟩ := h.exists_of_append_cons hc
  exact hp.size_eq ▸ isBoundary_size_append p' (c :: s')

theorem isBoundary_behind (h : Blanked t (p ++ c :: s)) (hc : c ≠ ' ') :
    t.IsBoundary (size p + c.utf8Size) := by
  obtain ⟨p', s', rfl, hp, -⟩ := h.exists_of_append_cons hc
  have hfront : size (p' ++ [c]) = size p + c.utf8Size := by simp [hp.size_eq]
  rw [← hfront, List.append_cons]
  exact isBoundary_size_append (p' ++ [c]) s'

end Blanked

end PromqlAssist.Text
