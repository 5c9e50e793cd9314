import PromqlAssist.Proofs.Text.Basic

/-!
# Boundaries

An offset is a boundary exactly when the text can be cut there, so boundaries and spans that fit are
handled as ways to write a text as an append.
-/

namespace PromqlAssist.Text

variable {t a b : Text} {m n : Nat}

theorem size_eq_zero_iff : size t = 0 ↔ t = [] := by
  cases t with
  | nil => simp
  | cons c t =>
    have hpos := c.utf8Size_pos
    simp only [size_cons, reduceCtorEq, iff_false]
    omega

/-- Of two first parts of a text the one that is not longer starts the other. -/
theorem exists_append_of_size_le {r s : Text} (h : a ++ r = b ++ s) (hle : size a ≤ size b) :
    ∃ c, b = a ++ c ∧ r = c ++ s := by
  rcases List.append_eq_append_iff.mp h with ⟨c, hb, hr⟩ | ⟨c, ha, hs⟩
  · exact ⟨c, hb, hr⟩
  · have hc : c = [] := by
      apply size_eq_zero_iff.mp
      rw [ha, size_append] at hle
      omega
    subst hc
    exact ⟨[], by simpa using ha.symm, by simpa using hs.symm⟩

theorem isBoundary_size_append (a b : Text) : IsBoundary (a ++ b) (size a) := by
  rw [IsBoundary, before_size_append]

theorem IsBoundary.exists_append (h : IsBoundary t n) : ∃ a b, t = a ++ b ∧ size a = n :=
  ⟨before t n, after t n, (before_append_after t n).symm, h⟩

theorem isBoundary_iff : IsBoundary t n ↔ ∃ a b, t = a ++ b ∧ size a = n := by
  constructor
  · exact IsBoundary.exists_append
  · rintro ⟨a, b, rfl, rfl⟩
    exact isBoundary_size_append a b

theorem IsBoundary.le_size (h : IsBoundary t n) : n ≤ size t := by
  obtain ⟨a, b, rfl, rfl⟩ := h.exists_append
  rw [size_append]
  exact Nat.le_add_right _ _

theorem isBoundary_zero (t : Text) : IsBoundary t 0 :=
  isBoundary_size_append [] t

theorem isBoundary_size (t : Text) : IsBoundary t (size t) := by
  simpa using isBoundary_size_append t []

theorem isBoundary_clamp (t : Text) (n : Nat) : IsBoundary t (clamp t n) := by
  conv => arg 1; rw [← before_append_after t n]
  exact isBoundary_size_append (before t n) (after t n)

theorem clamp_eq_self (h : IsBoundary t n) : clamp t n = n := h

theorem clamp_le (t : Text) (n : Nat) : clamp t n ≤ n := by
  unfold clamp
  induction t generalizing n with
  | nil => exact Nat.zero_le n
  | cons c t ih =>
    rw [before]
    split
    · have hrest := ih (n - c.utf8Size)
      rw [size_cons]
      omega
    · exact Nat.zero_le n

/-- No boundary lies between an offset and its clamp. -/
theorem le_clamp (h : IsBoundary t m) (hle : m ≤ n) : m ≤ clamp t n := by
  obtain ⟨a, b, rfl, rfl⟩ := h.exists_append
  obtain ⟨k, rfl⟩ := Nat.exists_eq_add_of_le hle
  rw [clamp, before_append, size_append]
  exact Nat.le_add_right _ _

/-- A clamped offset cuts the text where the offset did. -/
theorem before_clamp (t : Text) (n : Nat) : before t (clamp t n) = before t n := by
  conv => lhs; arg 1; rw [← before_append_after t n]
  exact before_size_append (before t n) (after t n)

theorem after_clamp (t : Text) (n : Nat) : after t (clamp t n) = after t n := by
  conv => lhs; arg 1; rw [← before_append_after t n]
  exact after_size_append (before t n) (after t n)

/-- A part of what lies before an offset is followed by the rest of it. -/
theorem eq_append_of_before (h : before t n = a ++ b) :
    t = a ++ (b ++ after t n) ∧ clamp t n = size a + size b := by
  constructor
  · conv => lhs; rw [← before_append_after t n]
    rw [h, List.append_assoc]
  · rw [clamp, h, size_append]

end PromqlAssist.Text

namespace PromqlAssist.Span

open Text

variable {s : Span} {t : Text}

theorem fits_append (a b c : Text) : Fits ⟨size a, size a + size b⟩ (a ++ (b ++ c)) := by
  refine ⟨Nat.le_add_right _ _, isBoundary_size_append a (b ++ c), ?_⟩
  rw [← size_append, ← List.append_assoc]
  exact isBoundary_size_append (a ++ b) c

/-- A span that fits cuts the text into three parts. -/
theorem Fits.exists_append (h : s.Fits t) :
    ∃ a b c, t = a ++ (b ++ c) ∧ s = ⟨size a, size a + size b⟩ := by
  obtain ⟨start, stop⟩ := s
  obtain ⟨hle, hstart, hstop⟩ := h
  obtain ⟨a, r, rfl, rfl⟩ := hstart.exists_append
  obtain ⟨d, c, hd, rfl⟩ := hstop.exists_append
  obtain ⟨b, rfl, rfl⟩ := exists_append_of_size_le hd hle
  exact ⟨a, b, c, rfl, by rw [size_append]⟩

theorem fits_iff : s.Fits t ↔ ∃ a b c, t = a ++ (b ++ c) ∧ s = ⟨size a, size a + size b⟩ := by
  constructor
  · exact Fits.exists_append
  · rintro ⟨a, b, c, rfl, rfl⟩
    exact fits_append a b c

theorem Fits.stop_le_size (h : s.Fits t) : s.stop ≤ t.size :=
  h.2.2.le_size

theorem replace_append (a b c new : Text) :
    Span.replace ⟨size a, size a + size b⟩ (a ++ (b ++ c)) new = a ++ (new ++ c) := by
  rw [Span.replace, before_size_append, ← List.append_assoc a b c, ← size_append,
    after_size_append, List.append_assoc]

/-- A span that is moved into a text fits it. -/
theorem fits_clamp (t : Text) (start stop : Nat) :
    Fits ⟨t.clamp start, max (t.clamp stop) (t.clamp start)⟩ t := by
  refine ⟨Nat.le_max_right _ _, isBoundary_clamp t start, ?_⟩
  rcases Nat.le_total (t.clamp stop) (t.clamp start) with h | h
  · rw [Nat.max_eq_right h]
    exact isBoundary_clamp t start
  · rw [Nat.max_eq_left h]
    exact isBoundary_clamp t stop

end PromqlAssist.Span
