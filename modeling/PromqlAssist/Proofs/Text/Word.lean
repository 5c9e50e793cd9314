import PromqlAssist.Proofs.Text.Basic

/-!
# Words and what stands around them

A word is cut off where no identifier character follows, and every word of a text is a piece of it
with no identifier character on either side. `runs_words` tells what the search for words does, and
leaves out the word it has open on the way.
-/

namespace PromqlAssist.Text

/-- Whether no word starts or goes on at the start of a text. -/
def NoWord (t : Text) : Prop :=
  ∀ c ∈ t.head?, isIdent c = false

/-- Whether no word is open at the end of a text. -/
def ClosesWord (t : Text) : Prop :=
  ∀ c ∈ t.getLast?, isIdent c = false

variable {w t : Text}

theorem NoWord.cons {c : Char} (h : isIdent c = false) (t : Text) : NoWord (c :: t) := by
  intro d hd
  obtain rfl : c = d := by simpa using hd
  exact h

theorem closesWord_dropTrailing (t : Text) : ClosesWord (dropTrailing isIdent t) := by
  intro c hc
  rw [dropTrailing, List.getLast?_reverse] at hc
  exact head?_dropWhile isIdent t.reverse c hc

theorem isIdent_of_mem_trailing {c : Char} (h : c ∈ trailing isIdent t) : isIdent c :=
  List.all_eq_true.mp List.all_takeWhile c (List.mem_reverse.mp h)

theorem takeWhile_word (hw : ∀ c ∈ w, isIdent c) (ht : NoWord t) :
    (w ++ t).takeWhile isIdent = w :=
  takeWhile_run hw ht

theorem dropWhile_word (hw : ∀ c ∈ w, isIdent c) (ht : NoWord t) :
    (w ++ t).dropWhile isIdent = t :=
  dropWhile_run hw ht

/-- The open word, with the offset of its start, if it has a character yet. -/
def openWord? (start : Nat) (w : Text) : Option (Nat × Text) :=
  if w = [] then none else some (start, w.reverse)

theorem openWord?_cons (c : Char) (start : Nat) (w : Text) :
    some (((openWord? start w).getD (start + size w, [])).1,
      c :: ((openWord? start w).getD (start + size w, [])).2) = openWord? start (w ++ [c]) := by
  cases w with
  | nil => simp [openWord?]
  | cons d w => simp [openWord?]

/-- A word of a text, with the offset of its start and no identifier character on either side. -/
def IsWord (t : Text) (start : Nat) (word : Text) : Prop :=
  ∃ p s, t = p ++ (word ++ s) ∧ start = size p ∧ ClosesWord p ∧ (∀ c ∈ word, isIdent c) ∧
    word ≠ [] ∧ NoWord s

/-- The words of a text at an offset, one behind the other. A character that belongs to no word is
passed over, and a word goes on until no identifier character follows. -/
inductive Runs : Nat → Text → List (Nat × Text) → Prop where
  | nil (n : Nat) : Runs n [] []
  | gap {n : Nat} {c : Char} {t : Text} {ws : List (Nat × Text)} (hc : isIdent c = false)
      (h : Runs (n + c.utf8Size) t ws) : Runs n (c :: t) ws
  | word {n : Nat} {w t : Text} {ws : List (Nat × Text)} (hne : w ≠ []) (hw : ∀ c ∈ w, isIdent c)
      (ht : NoWord t) (h : Runs (n + size w) t ws) : Runs n (w ++ t) ((n, w) :: ws)

theorem not_noWord_append (hne : w ≠ []) (hw : ∀ c ∈ w, isIdent c) (t : Text) :
    ¬ NoWord (w ++ t) := by
  intro h
  cases w with
  | nil => exact hne rfl
  | cons c w => simpa [hw c (by simp)] using h c rfl

/-- An open word ends where no identifier character follows. -/
theorem Runs.close {n : Nat} {ws : List (Nat × Text)} (hw : ∀ c ∈ w, isIdent c) (ht : NoWord t)
    (h : Runs (n + size w) t ws) :
    Runs n (w ++ t) (((openWord? n w).map fun w => (w.1, w.2.reverse)).toList ++ ws) := by
  cases w with
  | nil => exact h
  | cons c w => simpa [openWord?] using Runs.word (by simp) hw ht h

/-- The invariant of the search for words: `w` is the open word, and it started at `n`. -/
theorem runs_wordsFrom {n : Nat} (hw : ∀ c ∈ w, isIdent c) :
    Runs n (w ++ t) (wordsFrom (n + size w) (openWord? n w) t) := by
  induction t generalizing n w with
  | nil => simpa [wordsFrom] using Runs.close hw (by simp [NoWord]) (.nil (n + size w))
  | cons c t ih =>
    rw [wordsFrom]
    split
    · rename_i hc
      have hword : ∀ d ∈ w ++ [c], isIdent d :=
        List.forall_mem_append.mpr ⟨hw, List.forall_mem_singleton.mpr hc⟩
      have hsize : n + size w + c.utf8Size = n + size (w ++ [c]) := by
        simp [Nat.add_assoc]
      simp only [openWord?_cons, hsize]
      rw [List.append_cons]
      exact ih hword
    · rename_i hc
      rw [Bool.not_eq_true] at hc
      exact Runs.close hw (NoWord.cons hc t) (.gap hc (ih (w := []) (by simp)))

theorem runs_words (t : Text) : Runs 0 t (words t) :=
  runs_wordsFrom (w := []) (by simp)

/-- What is read as a word is one, if the text in front leaves none open. -/
theorem Runs.isWord {n start : Nat} {front word : Text} {ws : List (Nat × Text)} (h : Runs n t ws)
    (hn : n = size front) (hfront : ClosesWord front ∨ NoWord t) (hmem : (start, word) ∈ ws) :
    IsWord (front ++ t) start word := by
  induction h generalizing front with
  | nil n => cases hmem
  | @gap n c t ws hc h ih =>
    have hclosed : ClosesWord (front ++ [c]) := by simpa [ClosesWord] using hc
    rw [List.append_cons]
    exact ih (by simp [hn]) (.inl hclosed) hmem
  | @word n w t ws hne hw ht h ih =>
    rcases List.mem_cons.mp hmem with hhead | htail
    · obtain ⟨rfl, rfl⟩ := Prod.mk.inj hhead
      exact ⟨front, t, rfl, hn, hfront.resolve_right (not_noWord_append hne hw t), hw, hne, ht⟩
    · rw [← List.append_assoc]
      exact ih (by simp [hn]) (.inr ht) htail

theorem isWord_of_mem_words {word : Text} {start : Nat} (h : (start, word) ∈ words t) :
    IsWord t start word := by
  have hnone : ClosesWord [] := by simp [ClosesWord]
  exact (runs_words t).isWord size_nil.symm (.inl hnone) h

end PromqlAssist.Text
