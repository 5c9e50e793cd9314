import PromqlAssist.Proofs.Text.Boundary

/-!
# Cutting by offsets

The functions on texts are defined for all offsets. An implementation that holds a text as bytes
cuts it at two offsets instead, and can do so only if they are boundaries in the right order. It
counts with numbers that have no negatives, and the commas of a list are those of a copy of the same
size. Here cutting, subtracting and splitting fail where they have to.
-/

namespace PromqlAssist

/-- What can go wrong when a text is read by offsets. -/
inductive Fault where
  /-- The span cuts out no part of the text. -/
  | badCut (span : Span)
  /-- A number was to be taken from a smaller one. -/
  | belowZero
  /-- A list and its masked copy are not equally long. -/
  | unlikeSizes
deriving DecidableEq, Repr

/-- A result, unless reading went wrong. -/
abbrev Checked (α : Type) := Except Fault α

namespace Checked

variable {α β : Type}

@[simp] theorem ok_bind (a : α) (f : α → Checked β) : ((.ok a : Checked α) >>= f) = f a := rfl

theorem exists_of_bind {x : Checked α} {f : α → Checked β} {b : β} (h : (x >>= f) = .ok b) :
    ∃ a, x = .ok a ∧ f a = .ok b := by
  cases x with
  | error fault => cases h
  | ok a => exact ⟨a, rfl, h⟩

@[simp] theorem pure_eq (a : α) : (pure a : Checked α) = .ok a := rfl

/-- The difference of two numbers. -/
def sub (m n : Nat) : Checked Nat :=
  if n ≤ m then .ok (m - n) else .error .belowZero

@[simp] theorem sub_add (m n : Nat) : sub (m + n) n = .ok m := by
  rw [sub, if_pos (Nat.le_add_left n m), Nat.add_sub_cancel]

theorem sub_of_le {m n : Nat} (h : n ≤ m) : sub m n = .ok (m - n) :=
  if_pos h

section Loop

variable {σ : Type} {measure : σ → Nat} {step : σ → Checked (α ⊕ σ)}
variable {smaller : ∀ s s', step s = .ok (.inr s') → measure s' < measure s} {s s' : σ} {a : α}

/-- Takes steps until one gives a result or goes wrong. Every step makes the state smaller. -/
def loop (measure : σ → Nat) (step : σ → Checked (α ⊕ σ))
    (smaller : ∀ s s', step s = .ok (.inr s') → measure s' < measure s) (s : σ) : Checked α :=
  match h : step s with
  | .error fault => .error fault
  | .ok (.inl a) => .ok a
  | .ok (.inr s') =>
    have := smaller s s' h
    loop measure step smaller s'
termination_by measure s

theorem loop_done (h : step s = .ok (.inl a)) : loop measure step smaller s = .ok a := by
  rw [loop]
  split
  · rename_i hstep
    exact nomatch hstep.symm.trans h
  · rename_i hstep
    cases hstep.symm.trans h
    rfl
  · rename_i hstep
    exact nomatch hstep.symm.trans h

theorem loop_next (h : step s = .ok (.inr s')) :
    loop measure step smaller s = loop measure step smaller s' := by
  rw [loop]
  split
  · rename_i hstep
    exact nomatch hstep.symm.trans h
  · rename_i hstep
    exact nomatch hstep.symm.trans h
  · rename_i hstep
    cases hstep.symm.trans h
    rfl

end Loop

end Checked

namespace Text

/-- The part of a text between two offsets. -/
def cut (t : Text) (start stop : Nat) : Checked Text :=
  if (⟨start, stop⟩ : Span).Fits t then .ok (t.slice start stop)
  else .error (.badCut ⟨start, stop⟩)

/-- The part of a text from an offset on. -/
def cutFrom (t : Text) (start : Nat) : Checked Text :=
  t.cut start t.size

/-- The part of a text in front of an offset. -/
def cutTo (t : Text) (stop : Nat) : Checked Text :=
  t.cut 0 stop

variable {t s : Text} {start stop n : Nat}

theorem cut_of_fits {span : Span} (h : span.Fits t) :
    t.cut span.start span.stop = .ok (span.slice t) :=
  if_pos h

theorem fits_of_cut (h : t.cut start stop = .ok s) : (⟨start, stop⟩ : Span).Fits t := by
  unfold cut at h
  split at h
  · assumption
  · cases h

theorem cut_append (a b c : Text) :
    cut (a ++ (b ++ c)) (size a) (size a + size b) = .ok b := by
  have hslice : (⟨size a, size a + size b⟩ : Span).slice (a ++ (b ++ c)) = b := slice_append a b c
  rw [cut_of_fits (Span.fits_append a b c), hslice]

theorem cutFrom_append (a b : Text) : cutFrom (a ++ b) (size a) = .ok b := by
  simpa [cutFrom] using cut_append a b []

theorem cutTo_append (a b : Text) : cutTo (a ++ b) (size a) = .ok a := by
  simpa [cutTo] using cut_append [] a b

theorem isBoundary_of_cutFrom (h : t.cutFrom n = .ok s) : t.IsBoundary n :=
  (fits_of_cut h).2.1

end Text

end PromqlAssist
