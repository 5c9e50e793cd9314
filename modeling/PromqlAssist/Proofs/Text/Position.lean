import PromqlAssist.Proofs.Text.Boundary
import PromqlAssist.Text.Position

/-!
# Positions of offsets

The position of a boundary leads back to it, positions grow with their offsets, and neither the line
nor the column of a position is larger than the text.
-/

namespace PromqlAssist

/-- Positions are ordered by their lines, and inside a line by their columns. -/
instance : LE Position where
  le p q := p.line < q.line ∨ (p.line = q.line ∧ p.column ≤ q.column)

theorem Position.le_iff {p q : Position} :
    p ≤ q ↔ p.line < q.line ∨ (p.line = q.line ∧ p.column ≤ q.column) :=
  Iff.rfl

namespace Text

variable {t a b : Text} {c : Char} {m n : Nat}

theorem units_pos (c : Char) : 0 < units c := by
  unfold units
  split <;> omega

theorem units_le_utf8Size (c : Char) : units c ≤ c.utf8Size := by
  have hpos := c.utf8Size_pos
  unfold units
  split
  · exact hpos
  · rename_i hlarge
    -- A character of two code units has four bytes.
    unfold Char.utf8Size
    simp only [Char.toNat, UInt32.le_iff_toNat_le] at hlarge ⊢
    grind

@[simp] theorem unitCount_append (a b : Text) : unitCount (a ++ b) = unitCount a + unitCount b := by
  induction a with
  | nil => simp [unitCount]
  | cons c a ih => simp only [List.cons_append, unitCount, ih, Nat.add_assoc]

theorem unitCount_le_size (t : Text) : unitCount t ≤ size t := by
  induction t with
  | nil => exact Nat.le_refl 0
  | cons c t ih => exact Nat.add_le_add (units_le_utf8Size c) ih

theorem length_le_size (t : Text) : t.length ≤ size t := by
  induction t with
  | nil => exact Nat.le_refl 0
  | cons c t ih =>
    have hpos := c.utf8Size_pos
    simp only [List.length_cons, size_cons]
    omega

theorem trailing_append_of_forall {p : Char → Bool} (h : ∀ c ∈ b, p c) (a : Text) :
    trailing p (a ++ b) = trailing p a ++ b := by
  rw [trailing, List.reverse_append,
    List.takeWhile_append_of_pos fun c hc => h c (List.mem_reverse.mp hc), List.reverse_append,
    List.reverse_reverse, trailing]

theorem takeWhile_append_cons_of_neg {p : Char → Bool} (h : p c = false) (s t : Text) :
    (s ++ c :: t).takeWhile p = s.takeWhile p := by
  induction s with
  | nil => simp [h]
  | cons d s ih => simp only [List.cons_append, List.takeWhile_cons, ih]

/-- The run at the end does not reach beyond a character that is outside the class. -/
theorem trailing_append_of_mem {p : Char → Bool} (hmem : c ∈ b) (h : p c = false) (a : Text) :
    trailing p (a ++ b) = trailing p b := by
  obtain ⟨s, r, rfl⟩ := List.append_of_mem hmem
  simp only [trailing, List.reverse_append, List.reverse_cons, List.append_assoc,
    List.cons_append, takeWhile_append_cons_of_neg h]

/-- A line is a part of the text. -/
theorem exists_lineBounds (t : Text) (n : Nat) :
    ∃ a line b, t = a ++ (line ++ b) ∧ lineBounds t n = ⟨size a, size a + size line⟩ := by
  have hfront : before t n = dropTrailing (· ≠ '\n') (before t n) ++ lineBefore t n :=
    (dropTrailing_append_trailing _ _).symm
  obtain ⟨ht, hclamp⟩ := eq_append_of_before hfront
  refine ⟨dropTrailing (· ≠ '\n') (before t n),
    lineBefore t n ++ (after t n).takeWhile (· ≠ '\n'), (after t n).dropWhile (· ≠ '\n'), ?_, ?_⟩
  · rw [List.append_assoc, List.takeWhile_append_dropWhile]
    exact ht
  · rw [lineBounds, hclamp, Nat.add_sub_cancel, size_append, Nat.add_assoc]

theorem trailing_eq_nil {p : Char → Bool} (h : ∀ c ∈ t.getLast?, p c = false) :
    trailing p t = [] := by
  rw [← List.head?_reverse] at h
  rw [trailing]
  cases hreverse : t.reverse with
  | nil => rfl
  | cons c s => rw [List.takeWhile_cons_of_neg (by simp [h c (by rw [hreverse]; rfl)])]; rfl

/-- A part between line feeds is the line of every offset in it, also of one inside a character. -/
theorem lineBounds_append {line : Text} (ha : ∀ c ∈ a.getLast?, c = '\n') (hline : '\n' ∉ line)
    (hb : ∀ c ∈ b.head?, c = '\n') (hlow : size a ≤ n) (hhigh : n ≤ size a + size line) :
    lineBounds (a ++ (line ++ b)) n = ⟨size a, size a + size line⟩ := by
  obtain ⟨k, rfl⟩ := Nat.exists_eq_add_of_le hlow
  have hk : k ≤ size line := by omega
  have hsplit := before_append_after line k
  have hkeeps := forall_ne_of_not_mem hline
  have hbefore : ∀ c ∈ before line k, decide (c ≠ '\n') = true := by
    intro c hc
    exact hkeeps c (hsplit ▸ List.mem_append_left _ hc)
  have hafter : ∀ c ∈ after line k, decide (c ≠ '\n') = true := by
    intro c hc
    exact hkeeps c (hsplit ▸ List.mem_append_right _ hc)
  have hfront : trailing (· ≠ '\n') a = [] := by
    apply trailing_eq_nil
    intro c hc
    simp [ha c hc]
  have hbehind : b.takeWhile (· ≠ '\n') = [] := by
    cases b with
    | nil => rfl
    | cons c b => exact List.takeWhile_cons_of_neg (by simp [hb c rfl])
  have hsize : size (before line k) + size (after line k) = size line := by
    rw [← size_append, hsplit]
  rw [lineBounds, lineBefore, clamp, before_append, before_append_of_le hk, after_append,
    after_append_of_le hk, trailing_append_of_forall hbefore, hfront, List.nil_append,
    List.takeWhile_append_of_pos hafter, hbehind, List.append_nil, size_append]
  simp only [Span.mk.injEq]
  omega

theorem positionOf_size_append (a b : Text) :
    positionOf (a ++ b) (size a) = ⟨a.count '\n', unitCount (trailing (· ≠ '\n') a)⟩ := by
  rw [positionOf, lineBefore, before_size_append]

/-- The line counts the line feeds in front, the column what follows the last of them. -/
theorem offsetOf_append (a b : Text) :
    offsetOf (a ++ b) ⟨a.count '\n', unitCount (trailing (· ≠ '\n') a)⟩ = size a := by
  induction a with
  | nil => cases b <;> simp [offsetOf, trailing, unitCount]
  | cons c a ih =>
    by_cases hmem : '\n' ∈ a
    · -- The column is that of the rest, and the line is not the first one.
      have hcolumn : trailing (· ≠ '\n') (c :: a) = trailing (· ≠ '\n') a :=
        trailing_append_of_mem hmem (by simp) [c]
      have hcount : 0 < a.count '\n' := List.count_pos_iff.mpr hmem
      obtain ⟨k, hk⟩ := Nat.exists_eq_succ_of_ne_zero (Nat.ne_of_gt hcount)
      rw [hk] at ih
      by_cases hc : c = '\n'
      · subst hc
        rw [hcolumn, List.count_cons_self, hk, List.cons_append, offsetOf, if_pos rfl, ih,
          size_cons]
      · rw [hcolumn, List.count_cons_of_ne hc, hk, List.cons_append, offsetOf, if_neg hc, ih,
          size_cons]
    · have hplain := forall_ne_of_not_mem hmem
      have hcount : a.count '\n' = 0 := List.count_eq_zero.mpr hmem
      have hall : trailing (· ≠ '\n') a = a := by
        simpa [trailing] using trailing_append_of_forall hplain []
      rw [hcount, hall] at ih
      by_cases hc : c = '\n'
      · subst hc
        have hcolumn : trailing (· ≠ '\n') ('\n' :: a) = a := by
          simpa [trailing] using trailing_append_of_forall hplain ['\n']
        rw [hcolumn, List.count_cons_self, hcount, List.cons_append, offsetOf, if_pos rfl, ih,
          size_cons]
      · have hcolumn : trailing (· ≠ '\n') (c :: a) = c :: a := by
          simpa [trailing, hc] using trailing_append_of_forall hplain [c]
        have hne : ¬ (units c + unitCount a = 0 ∨ c = '\n') := by
          have hpos := units_pos c
          simp only [hc, or_false]
          omega
        rw [hcolumn, List.count_cons_of_ne hc, hcount, List.cons_append, unitCount, offsetOf,
          if_neg hne, Nat.add_sub_cancel_left, ih, size_cons]

/-- A boundary is found again from its position. -/
theorem offsetOf_positionOf (h : IsBoundary t n) : offsetOf t (positionOf t n) = n := by
  obtain ⟨a, b, rfl, rfl⟩ := h.exists_append
  rw [positionOf_size_append, offsetOf_append]

theorem positionOf_mono (hm : IsBoundary t m) (hn : IsBoundary t n) (h : m ≤ n) :
    positionOf t m ≤ positionOf t n := by
  obtain ⟨a, r, rfl, rfl⟩ := hm.exists_append
  obtain ⟨d, s, hd, rfl⟩ := hn.exists_append
  obtain ⟨b, rfl, rfl⟩ := exists_append_of_size_le hd h
  rw [positionOf_size_append, ← List.append_assoc, positionOf_size_append, Position.le_iff]
  by_cases hmem : '\n' ∈ b
  · left
    have hcount : 0 < b.count '\n' := List.count_pos_iff.mpr hmem
    simp only [List.count_append]
    omega
  · right
    have hplain := forall_ne_of_not_mem hmem
    rw [trailing_append_of_forall hplain, unitCount_append, List.count_append,
      List.count_eq_zero.mpr hmem]
    exact ⟨rfl, Nat.le_add_right _ _⟩

theorem line_positionOf_le (t : Text) (n : Nat) : (positionOf t n).line ≤ size t := by
  have hcount : (before t n).count '\n' ≤ (before t n).length := List.count_le_length
  have hsize : size (before t n) ≤ size t := (isBoundary_clamp t n).le_size
  exact Nat.le_trans (Nat.le_trans hcount (length_le_size _)) hsize

theorem column_positionOf_le (t : Text) (n : Nat) : (positionOf t n).column ≤ size t := by
  have hcut : size (before t n) ≤ size t := (isBoundary_clamp t n).le_size
  have hline : size (lineBefore t n) ≤ size (before t n) := by
    conv => rhs; rw [← dropTrailing_append_trailing (· ≠ '\n') (before t n), size_append]
    exact Nat.le_add_left _ _
  exact Nat.le_trans (Nat.le_trans (unitCount_le_size _) hline) hcut

end Text

end PromqlAssist
