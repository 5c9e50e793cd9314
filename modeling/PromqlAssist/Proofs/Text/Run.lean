import Mathlib.Data.List.Basic
import PromqlAssist.Proofs.Text.Position
import PromqlAssist.Proofs.Text.Word

/-!
# Listing words and looking back

`Text.words` reads a text from its start with an open word in hand, and `Text.wordBefore` looks back
from a cursor. `scanLaw_words` says that both see the same words, in every text and from every
offset. What the reader lists is a `Runs` of the text, and what such a list holds is read off by
induction on it.
-/

namespace PromqlAssist.Text

variable {t a b w front rest word : Text} {n cursor start : Nat} {ws : List (Nat × Text)}

/-- How listing the words of a text goes with looking back from a cursor. The listed words are the
maximal runs of identifier characters, from left to right with something between each two, and every
identifier character is in one of them. From the end of a word looking back finds that word, from
inside one the part in front of the cursor, and where no word is open it finds nothing. -/
structure ScanLaw (t : Text) : Prop where
  apart : (words t).Pairwise fun v w => v.1 + size v.2 < w.1
  mem_iff : ∀ start word, (start, word) ∈ words t ↔ IsWord t start word
  covered : ∀ front c rest, t = front ++ c :: rest → isIdent c →
    ∃ w ∈ words t, w.1 ≤ size front ∧ size front + c.utf8Size ≤ w.1 + size w.2
  back : ∀ w ∈ words t, wordBefore t (w.1 + size w.2) = (⟨w.1, w.1 + size w.2⟩, w.2)
  typed : ∀ cursor, ¬ ClosesWord (before t cursor) →
    ∃ start front rest, (start, front ++ rest) ∈ words t ∧ front ≠ [] ∧
      wordBefore t cursor = (⟨start, start + size front⟩, front)
  empty : ∀ cursor, ClosesWord (before t cursor) →
    wordBefore t cursor = (.point (clamp t cursor), [])

/-! ## Listing -/

theorem ClosesWord.of_append (h : ClosesWord (a ++ b)) : ClosesWord b := by
  intro c hc
  refine h c ?_
  rw [Option.mem_def] at hc ⊢
  rw [List.getLast?_append, hc, Option.some_or]

theorem ClosesWord.eq_nil (h : ClosesWord a) (ha : ∀ c ∈ a, isIdent c) : a = [] := by
  obtain rfl | ⟨s, c, rfl⟩ := List.eq_nil_or_concat' a
  · rfl
  · have hc : isIdent c = false := h c (by simp)
    rw [ha c (by simp)] at hc
    cases hc

/-- No word of the text is passed over or split. -/
theorem Runs.mem (h : Runs n t ws) (hcut : t = front ++ (word ++ rest)) (hfront : ClosesWord front)
    (hword : ∀ c ∈ word, isIdent c) (hne : word ≠ []) (hrest : NoWord rest) :
    (n + size front, word) ∈ ws := by
  induction h generalizing front with
  | nil n => simp_all
  | @gap n c t ws hc h ih =>
    cases front with
    | nil =>
      have hstart : NoWord (word ++ rest) := hcut ▸ NoWord.cons hc t
      exact absurd hstart (not_noWord_append hne hword rest)
    | cons d front =>
      obtain ⟨rfl, rfl⟩ := List.cons.inj hcut
      rw [size_cons, ← Nat.add_assoc]
      exact ih rfl (ClosesWord.of_append (a := [c]) hfront)
  | @word n w t ws hne' hw ht h ih =>
    rcases List.append_eq_append_iff.mp hcut with ⟨behind, rfl, rfl⟩ | ⟨tail, rfl, htail⟩
    · rw [size_append, ← Nat.add_assoc]
      exact List.mem_cons_of_mem _ (ih rfl hfront.of_append)
    · -- No word starts in the middle of a run.
      obtain rfl := hfront.eq_nil fun c hc => hw c (List.mem_append_left tail hc)
      rw [List.nil_append] at hw
      have heq : word = tail := by
        rw [← takeWhile_word hword hrest, htail, takeWhile_word hw ht]
      simp [heq]

theorem mem_words_iff : (start, word) ∈ words t ↔ IsWord t start word := by
  constructor
  · exact isWord_of_mem_words
  · rintro ⟨front, rest, hcut, rfl, hfront, hword, hne, hrest⟩
    simpa using (runs_words t).mem hcut hfront hword hne hrest

theorem Runs.le_start (h : Runs n t ws) : ∀ w ∈ ws, n ≤ w.1 := by
  induction h with
  | nil n => simp
  | gap hc h ih => exact fun w hmem => Nat.le_trans (Nat.le_add_right _ _) (ih w hmem)
  | word hne hw ht h ih =>
    rw [List.forall_mem_cons]
    exact ⟨Nat.le_refl _, fun w hmem => Nat.le_trans (Nat.le_add_right _ _) (ih w hmem)⟩

/-- Where no word starts, the next one stands at a distance. -/
theorem Runs.lt_start (h : Runs n t ws) (ht : NoWord t) : ∀ w ∈ ws, n < w.1 := by
  cases h with
  | nil n => simp
  | @gap n c t ws hc h =>
    have hpos := c.utf8Size_pos
    intro w hmem
    have hle := h.le_start w hmem
    omega
  | word hne hw ht' h => exact absurd ht (not_noWord_append hne hw _)

theorem Runs.apart (h : Runs n t ws) : ws.Pairwise fun v w => v.1 + size v.2 < w.1 := by
  induction h with
  | nil n => exact .nil
  | gap hc h ih => exact ih
  | word hne hw ht h ih => exact .cons (h.lt_start ht) ih

/-! ## Looking back -/

/-- The run of identifier characters around a place in a text. -/
theorem isWord_append (hne : trailing isIdent a ++ b.takeWhile isIdent ≠ []) :
    IsWord (a ++ b) (size (dropTrailing isIdent a))
      (trailing isIdent a ++ b.takeWhile isIdent) := by
  refine ⟨dropTrailing isIdent a, b.dropWhile isIdent, ?_, rfl, closesWord_dropTrailing a, ?_, hne,
    head?_dropWhile isIdent b⟩
  · rw [List.append_assoc, List.takeWhile_append_dropWhile, ← List.append_assoc,
      dropTrailing_append_trailing]
  · intro c hc
    rcases List.mem_append.mp hc with hc | hc
    · exact isIdent_of_mem_trailing hc
    · exact List.all_eq_true.mp List.all_takeWhile c hc

/-- Looking back takes the identifier characters in front of the cursor up to a character that is
none. -/
theorem wordBefore_of_before (h : before t cursor = a ++ b) (ha : ClosesWord a)
    (hb : ∀ c ∈ b, isIdent c) : wordBefore t cursor = (⟨size a, size a + size b⟩, b) := by
  have htrailing : trailing isIdent (a ++ b) = b := by
    rw [trailing_append_of_forall hb, trailing_eq_nil ha, List.nil_append]
  have hdrop : dropTrailing isIdent (a ++ b) = a := by
    have hcut := dropTrailing_append_trailing isIdent (a ++ b)
    rw [htrailing] at hcut
    exact List.append_cancel_right hcut
  rw [wordBefore, wordStart, h, htrailing, hdrop, (eq_append_of_before h).2]

theorem wordBefore_of_isWord (h : IsWord t start word) :
    wordBefore t (start + size word) = (⟨start, start + size word⟩, word) := by
  obtain ⟨front, rest, rfl, rfl, hfront, hword, -, -⟩ := h
  refine wordBefore_of_before ?_ hfront hword
  rw [before_append, before_size_append]

theorem wordBefore_of_closesWord (h : ClosesWord (before t cursor)) :
    wordBefore t cursor = (.point (clamp t cursor), []) :=
  wordBefore_of_before (List.append_nil _).symm h (by simp)

/-- Looking back from inside a word finds the part of it that is in front of the cursor. -/
theorem exists_of_not_closesWord (h : ¬ ClosesWord (before t cursor)) :
    ∃ start front rest, IsWord t start (front ++ rest) ∧ front ≠ [] ∧
      wordBefore t cursor = (⟨start, start + size front⟩, front) := by
  have hcut := dropTrailing_append_trailing isIdent (before t cursor)
  have hne : trailing isIdent (before t cursor) ≠ [] := by
    intro hnil
    rw [hnil, List.append_nil] at hcut
    exact h (hcut ▸ closesWord_dropTrailing _)
  refine ⟨size (dropTrailing isIdent (before t cursor)), trailing isIdent (before t cursor),
    (after t cursor).takeWhile isIdent, ?_, hne, ?_⟩
  · have hword := isWord_append (b := after t cursor) (List.append_ne_nil_of_left_ne_nil hne _)
    rwa [before_append_after] at hword
  · exact wordBefore_of_before hcut.symm (closesWord_dropTrailing _)
      fun c => isIdent_of_mem_trailing

/-- Every identifier character is in a word. -/
theorem exists_isWord_of_isIdent {c : Char} (hc : isIdent c) (front rest : Text) :
    ∃ start word, IsWord (front ++ c :: rest) start word ∧ start ≤ size front ∧
      size front + c.utf8Size ≤ start + size word := by
  have hhead : (c :: rest).takeWhile isIdent = c :: rest.takeWhile isIdent :=
    List.takeWhile_cons_of_pos hc
  refine ⟨_, _, isWord_append (by simp [hhead]), ?_, ?_⟩
  all_goals
    have hsize := congrArg size (dropTrailing_append_trailing isIdent front)
    simp only [size_append, hhead, size_cons] at hsize ⊢
    omega

/-- Listing words and looking back tell the same. -/
theorem scanLaw_words (t : Text) : ScanLaw t where
  apart := (runs_words t).apart
  mem_iff _ _ := mem_words_iff
  covered front c rest hcut hc := by
    subst hcut
    obtain ⟨start, word, hword, hle, hbehind⟩ := exists_isWord_of_isIdent hc front rest
    exact ⟨(start, word), mem_words_iff.mpr hword, hle, hbehind⟩
  back _ hmem := wordBefore_of_isWord (mem_words_iff.mp hmem)
  typed _ h := by
    obtain ⟨start, front, rest, hword, hne, hback⟩ := exists_of_not_closesWord h
    exact ⟨start, front, rest, mem_words_iff.mpr hword, hne, hback⟩
  empty _ := wordBefore_of_closesWord

/-- Words at both ends of a text, with a character of two bytes between them. -/
theorem scanLaw_words_accented :
    let t := ['a', ':', '\u00e9', '_', '1']
    ((4, ['_', '1']) ∈ words t ∧ wordBefore t 6 = (⟨4, 6⟩, ['_', '1'])) ∧
      (ClosesWord (before t 4) ∧ wordBefore t 4 = (.point 4, [])) := by
  intro t
  have hmem : (4, ['_', '1']) ∈ words t := by decide
  have hcloses : ClosesWord (before t 4) := by
    have hlast : (before t 4).getLast? = some '\u00e9' := by decide
    intro c hc
    rw [hlast] at hc
    obtain rfl := Option.some.inj hc
    decide
  exact ⟨⟨hmem, (scanLaw_words t).back _ hmem⟩, hcloses, (scanLaw_words t).empty 4 hcloses⟩

end PromqlAssist.Text
