import Mathlib.Algebra.Ring.Parity
import PromqlAssist.Proofs.Rule.Masked

/-!
# String literals by the quotes of the mask

The rule on string literals reads the query and the mask is read by all other rules. They agree: what
the rule reports can be told from the quotes that the mask shows, their kinds and the parity of the
double ones.
-/

namespace PromqlAssist.Text

variable {t : Text}

theorem count_quote_blanks (n : Nat) : (List.replicate n ' ').count '"' = 0 :=
  List.count_eq_zero.mpr fun h => absurd (List.eq_of_mem_replicate h) (by decide)

/-- Every double quote of the mask opens or closes a literal, so by their parity the reader is where
it started. -/
theorem after_eq_outside_iff (state : LiteralState) (t : Text) :
    state.after t = .outside ↔ (Even ((maskFrom state t).count '"') ↔ state = .outside) := by
  -- A quote turns both the parity and the state around; all else keeps both.
  induction t generalizing state with
  | nil => simp
  | cons c t ih =>
    rw [LiteralState.after_cons, ih]
    cases state with
    | outside =>
      rw [maskFrom_outside_cons]
      by_cases hc : c = '"'
      · subst hc
        simp [LiteralState.next, Nat.even_add_one]
      · simp [LiteralState.next, hc]
    | inside =>
      rw [maskFrom, List.count_append]
      by_cases hc : c = '"'
      · subst hc
        simp [LiteralState.next, Nat.even_add]
      · rw [if_neg hc, blankFor, count_quote_blanks, Nat.zero_add]
        simp [LiteralState.next_inside_ne hc]
    | escaped =>
      rw [maskFrom, List.count_append, blankFor, count_quote_blanks, Nat.zero_add]
      simp [LiteralState.next]

theorem closed_iff_even : Closed t ↔ Even (t.mask.count '"') :=
  (after_eq_outside_iff .outside t).trans (iff_true_right rfl)

/-- Whether behind the quote that opens a literal everything to the end is blanked. -/
def BlankedToEnd (t : Text) : Prop :=
  ∃ front rest, t = front ++ '"' :: rest ∧ Closed front ∧
    t.mask = front.mask ++ '"' :: List.replicate (size rest) ' '

theorem blankedToEnd_iff_odd : BlankedToEnd t ↔ Odd (t.mask.count '"') := by
  constructor
  · rintro ⟨front, rest, -, hclosed, hmask⟩
    rw [hmask, List.count_append, List.count_cons_self, count_quote_blanks]
    exact (closed_iff_even.mp hclosed).add_one
  · intro h
    rw [← Nat.not_even_iff_odd, ← closed_iff_even] at h
    obtain ⟨front, rest, rfl, hclosed, hrest⟩ := exists_open_of_not_closed h
    refine ⟨front, rest, rfl, hclosed, ?_⟩
    rw [hclosed.mask_append, ← hrest]
    rfl

/-- A text is cut at its last character of a kind in one way only. -/
theorem last_unique {front front' rest rest' : Text} {c : Char}
    (h : front ++ c :: rest = front' ++ c :: rest') (hrest : c ∉ rest) (hrest' : c ∉ rest') :
    front = front' := by
  have hback : ∀ (front : Text) {rest : Text}, c ∉ rest →
      (front ++ c :: rest).reverse.takeWhile (· ≠ c) = rest.reverse := by
    intro front rest hrest
    rw [List.reverse_append, List.reverse_cons, List.append_assoc, List.singleton_append,
      takeWhile_ne_append (by simpa using hrest)]
  have hreverse : rest.reverse = rest'.reverse := by
    rw [← hback front hrest, h, hback front' hrest']
  rw [List.reverse_injective hreverse] at h
  exact List.append_cancel_right h

end PromqlAssist.Text

namespace PromqlAssist.Rule

open Text

variable {v : Vocabulary} {query front rest a : Text} {c : Char} {n opened : Nat}
  {state : LiteralState}

/-- Whether a character is a quote, and not a double one. -/
def IsWrongQuote (c : Char) : Prop :=
  c = '\x27' ∨ c = '\x60'

instance (c : Char) : Decidable (IsWrongQuote c) :=
  inferInstanceAs (Decidable (_ ∨ _))

theorem IsWrongQuote.isShown (h : IsWrongQuote c) : IsShown c := by
  rcases h with rfl | rfl <;> decide

/-- The reader of literals passes the texts whose mask shows no wrong quote. -/
theorem literalDefectFrom?_append (h : ∀ c ∈ maskFrom state a, ¬ IsWrongQuote c)
    (n opened : Nat) (rest : Text) :
    ∃ opened', literalDefectFrom? n state opened (a ++ rest) =
      literalDefectFrom? (n + size a) (state.after a) opened' rest := by
  induction a generalizing n state opened with
  | nil => exact ⟨opened, rfl⟩
  | cons c a ih =>
    have hpass : ¬ (state = .outside ∧ (c = '\x27' ∨ c = '\x60')) := by
      rintro ⟨rfl, hc⟩
      exact h c (List.mem_cons_self ..) hc
    rw [List.cons_append, literalDefectFrom?, if_neg hpass, size_cons, ← Nat.add_assoc]
    exact ih (fun d hd => h d (mem_maskFrom_cons hd)) _ _

/-- Behind an opening quote the reader finds nothing else where all is blanked. -/
theorem literalDefectFrom?_open (h : maskFrom .inside rest = List.replicate (size rest) ' ') :
    literalDefectFrom? n .inside opened rest = some opened := by
  have hmask := literalDefectFrom?_maskFrom n .inside opened rest
  have hblanks := literalDefectFrom?_blanks n opened (size rest) []
  rw [List.append_nil] at hblanks
  rw [← hmask, h]
  exact hblanks

theorem stringLiterals_of_wrongQuote (hmask : query.mask = front ++ c :: rest)
    (hc : IsWrongQuote c) (hfirst : ∀ d ∈ front, ¬ IsWrongQuote d) :
    stringLiterals v query = some (.ofLength (size front) 1) := by
  obtain ⟨a, b, rfl, rfl, -, hclosed⟩ := exists_of_mask_append_cons hmask hc.isShown
  obtain ⟨opened', hpass⟩ := literalDefectFrom?_append hfirst 0 0 (c :: b)
  have hfound : literalDefectFrom? (size a) .outside opened' (c :: b) = some (size a) :=
    if_pos ⟨rfl, hc⟩
  rw [stringLiterals, hpass, Nat.zero_add, hclosed, hfound, size_mask]
  rfl

theorem stringLiterals_of_closed (hwrong : ∀ c ∈ query.mask, ¬ IsWrongQuote c)
    (h : Closed query) : stringLiterals v query = none := by
  obtain ⟨opened', hpass⟩ := literalDefectFrom?_append hwrong 0 0 []
  rw [List.append_nil, show LiteralState.outside.after query = .outside from h] at hpass
  rw [stringLiterals, hpass]
  rfl

theorem stringLiterals_of_blankedToEnd (hwrong : ∀ c ∈ query.mask, ¬ IsWrongQuote c)
    (h : BlankedToEnd query) : ∃ front n, query.mask = front ++ '"' :: List.replicate n ' ' ∧
      stringLiterals v query = some (.ofLength (size front) 1) := by
  obtain ⟨front, rest, rfl, hclosed, hmask⟩ := h
  have hblank : maskFrom .inside rest = List.replicate (size rest) ' ' := by
    rw [hclosed.mask_append] at hmask
    exact (List.cons.inj (List.append_cancel_left hmask)).2
  have hfront : ∀ c ∈ front.mask, ¬ IsWrongQuote c :=
    fun c hc => hwrong c (hmask ▸ List.mem_append_left _ hc)
  obtain ⟨opened', hpass⟩ := literalDefectFrom?_append hfront 0 0 ('"' :: rest)
  have hopen : literalDefectFrom? (size front) .outside opened' ('"' :: rest) =
      literalDefectFrom? (size front + 1) .inside (size front) rest := rfl
  refine ⟨front.mask, size rest, hmask, ?_⟩
  rw [stringLiterals, hpass, Nat.zero_add, hclosed, hopen, literalDefectFrom?_open hblank, size_mask]
  rfl

theorem exists_first_wrongQuote {t : Text} (h : ∃ c ∈ t, IsWrongQuote c) :
    ∃ front c rest, t = front ++ c :: rest ∧ IsWrongQuote c ∧ ∀ d ∈ front, ¬ IsWrongQuote d := by
  have hsome : (t.find? fun c => IsWrongQuote c).isSome := by simpa using h
  obtain ⟨c, hfind⟩ := Option.isSome_iff_exists.mp hsome
  obtain ⟨hc, front, rest, rfl, hfirst⟩ := List.find?_eq_some_iff_append.mp hfind
  exact ⟨front, c, rest, rfl, by simpa using hc, by simpa using hfirst⟩

theorem not_isWrongQuote_of_reported (hmask : query.mask = front ++ '"' :: rest)
    (hreport : stringLiterals v query = some (.ofLength (size front) 1)) :
    ∀ c ∈ query.mask, ¬ IsWrongQuote c := by
  by_contra hno
  simp only [not_forall, not_not, exists_prop] at hno
  obtain ⟨front', c, rest', hmask', hc, hfirst⟩ := exists_first_wrongQuote hno
  -- The two reports are one, so at one offset there would stand two quotes.
  have hspan := hreport.symm.trans (stringLiterals_of_wrongQuote hmask' hc hfirst)
  have hsize : size front = size front' := congrArg Span.start (Option.some.inj hspan)
  obtain ⟨-, hrest⟩ := append_inj_of_size (hmask.symm.trans hmask') hsize
  obtain ⟨rfl, -⟩ := List.cons.inj hrest
  exact absurd hc (by decide)

theorem blankedToEnd_of_reported {span : Span} (hwrong : ∀ c ∈ query.mask, ¬ IsWrongQuote c)
    (hreport : stringLiterals v query = some span) : BlankedToEnd query := by
  rw [blankedToEnd_iff_odd, ← Nat.not_even_iff_odd, ← closed_iff_even]
  intro hclosed
  rw [stringLiterals_of_closed hwrong hclosed] at hreport
  cases hreport

/-- What the rule reports of a query, by the quotes that its mask shows. -/
structure DecidesQuotes (v : Vocabulary) (query : Text) : Prop where
  wrong : ∀ front c rest, query.mask = front ++ c :: rest → IsWrongQuote c →
    (∀ d ∈ front, ¬ IsWrongQuote d) → stringLiterals v query = some ⟨size front, size front + 1⟩
  unclosed : (∀ c ∈ query.mask, ¬ IsWrongQuote c) → Odd (query.mask.count '"') →
    ∀ front rest, query.mask = front ++ '"' :: rest → '"' ∉ rest →
      stringLiterals v query = some ⟨size front, size front + 1⟩
  passes : (∀ c ∈ query.mask, ¬ IsWrongQuote c) → Even (query.mask.count '"') →
    stringLiterals v query = none
  /-- A double quote is left over where everything behind the last one is blanked. -/
  blanked : BlankedToEnd query ↔ Odd (query.mask.count '"')
  /-- There a literal is reported as unclosed, unless a wrong quote comes first. -/
  reported : (∃ front rest, query.mask = front ++ '"' :: rest ∧
      stringLiterals v query = some ⟨size front, size front + 1⟩) ↔
    BlankedToEnd query ∧ ∀ c ∈ query.mask, ¬ IsWrongQuote c

/-- The rule and the mask read the string literals of a query alike. -/
theorem stringLiterals_agrees (v : Vocabulary) (query : Text) : DecidesQuotes v query where
  wrong _ _ _ := stringLiterals_of_wrongQuote
  unclosed hwrong hodd front rest hmask hrest := by
    obtain ⟨front', n, hmask', hreport⟩ :=
      stringLiterals_of_blankedToEnd hwrong (blankedToEnd_iff_odd.mpr hodd)
    have hblank : '"' ∉ List.replicate n ' ' := List.count_eq_zero.mp (count_quote_blanks n)
    rw [last_unique (hmask.symm.trans hmask') hrest hblank]
    exact hreport
  passes hwrong heven := stringLiterals_of_closed hwrong (closed_iff_even.mpr heven)
  blanked := blankedToEnd_iff_odd
  reported := by
    constructor
    · rintro ⟨front, rest, hmask, hreport⟩
      have hwrong := not_isWrongQuote_of_reported hmask hreport
      exact ⟨blankedToEnd_of_reported hwrong hreport, hwrong⟩
    · rintro ⟨hblanked, hwrong⟩
      obtain ⟨front, n, hmask, hreport⟩ := stringLiterals_of_blankedToEnd hwrong hblanked
      exact ⟨front, _, hmask, hreport⟩

/-- A literal with another quote and an escaped one inside, and one that ends in a backslash. -/
example : stringLiterals .empty "\"'\\\"\" + \"é\\".toList = some ⟨8, 9⟩ := by
  decide +kernel

end PromqlAssist.Rule
