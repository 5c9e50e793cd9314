import PromqlAssist.Completion.Suggestion
import PromqlAssist.Proofs.Context.Nesting

/-!
# Scopes and open parentheses

An expression is in nested scope if more parentheses are opened in front of it than are closed. A
closer that no opener precedes counts there as well, so the balance is not the number of open
parentheses but falls short of it by the number of such stray closers. Nested scope therefore means
that a parenthesis is open, but an open parenthesis means nested scope only if it is not outnumbered
by closers that have nothing to do with it.
-/

namespace PromqlAssist.Context

open Text

/-- Whether a parenthesis of a text is unclosed: the parentheses opened from there on less those
closed never come to nothing. -/
def Unclosed (t : Text) : Prop :=
  ∃ front behind, t = front ++ '(' :: behind ∧ ∀ p, p <+: behind → parenBalance ('(' :: p) ≠ 0

/-- The closers of a text that close no parenthesis of the text. -/
def strayClosers : Text → Nat
  | [] => 0
  | c :: t =>
    if c = '(' then strayClosers t - 1
    else if c = ')' then strayClosers t + 1
    else strayClosers t

/-- The parentheses of a text that the text leaves open. A parenthesis takes the first stray closer
behind it, if there is one. -/
def openParens : Text → Nat
  | [] => 0
  | c :: t => if c = '(' ∧ strayClosers t = 0 then openParens t + 1 else openParens t

/-- What the scope of an expression says about the parentheses in the text `t` in front of it, and
when templates are suggested there. -/
structure ScopeLaw (vocabulary : Vocabulary) (t : Text) (scope : Scope) : Prop where
  unclosed_of_nested : scope = .nested → Unclosed t
  nested_iff : Unclosed t → (scope = .nested ↔ strayClosers t < openParens t)
  template_iff : ∀ span, (∃ p ∈ suggest vocabulary (.functionOrMetric scope) span,
    p.category = .template) ↔ openParens t ≤ strayClosers t

variable {vocabulary : Vocabulary} {t p : Text} {cursor : Nat} {scope : Scope} {span : Span}
variable {c : Char} {keyword : String}

/-! ## Balance -/

@[simp] theorem parenBalance_nil : parenBalance [] = 0 := rfl

@[simp] theorem parenBalance_open (t : Text) : parenBalance ('(' :: t) = parenBalance t + 1 := by
  simp [parenBalance]
  omega

@[simp] theorem parenBalance_close (t : Text) : parenBalance (')' :: t) = parenBalance t - 1 := by
  simp [parenBalance]
  omega

theorem parenBalance_other (hopen : c ≠ '(') (hclose : c ≠ ')') (t : Text) :
    parenBalance (c :: t) = parenBalance t := by
  simp [parenBalance, hopen, hclose]

@[simp] theorem strayClosers_open (t : Text) : strayClosers ('(' :: t) = strayClosers t - 1 := rfl

@[simp] theorem strayClosers_close (t : Text) : strayClosers (')' :: t) = strayClosers t + 1 := rfl

theorem strayClosers_other (hopen : c ≠ '(') (hclose : c ≠ ')') (t : Text) :
    strayClosers (c :: t) = strayClosers t := by
  simp [strayClosers, hopen, hclose]

theorem openParens_open (t : Text) :
    openParens ('(' :: t) = if strayClosers t = 0 then openParens t + 1 else openParens t := by
  simp [openParens]

theorem openParens_other (hopen : c ≠ '(') (t : Text) : openParens (c :: t) = openParens t := by
  simp [openParens, hopen]

/-- The balance counts what is open and takes off what is stray. -/
theorem parenBalance_eq (t : Text) : parenBalance t = openParens t - strayClosers t := by
  induction t with
  | nil => rfl
  | cons c t ih =>
    by_cases hopen : c = '('
    · subst hopen
      rw [parenBalance_open, ih, openParens_open, strayClosers_open]
      -- The parenthesis is open, or one closer less is stray.
      split <;> omega
    · rw [openParens_other hopen]
      by_cases hclose : c = ')'
      · subst hclose
        rw [parenBalance_close, ih, strayClosers_close]
        omega
      · rw [parenBalance_other hopen hclose, strayClosers_other hopen hclose, ih]

/-! ## Unclosed parentheses -/

theorem forall_prefix_cons {P : Text → Prop} :
    (∀ p, p <+: c :: t → P p) ↔ P [] ∧ ∀ p, p <+: t → P (c :: p) := by
  constructor
  · intro h
    exact ⟨h [] List.nil_prefix, fun p hp => h (c :: p) ((List.prefix_cons_inj c).mpr hp)⟩
  · rintro ⟨hnil, hcons⟩ p hp
    obtain rfl | ⟨q, rfl, hq⟩ := List.prefix_cons_iff.mp hp
    · exact hnil
    · exact hcons q hq

/-- At most `depth` closers are stray just if the balance never falls short of `-depth`. -/
theorem strayClosers_le_iff (t : Text) (depth : Nat) :
    strayClosers t ≤ depth ↔ ∀ p, p <+: t → parenBalance p + (depth + 1) ≠ 0 := by
  induction t generalizing depth with
  | nil =>
    refine iff_of_true (Nat.zero_le depth) fun p hp => ?_
    rw [List.prefix_nil.mp hp, parenBalance_nil]
    omega
  | cons c t ih =>
    have hnil : parenBalance [] + (depth + 1) ≠ 0 := by
      rw [parenBalance_nil]
      omega
    rw [forall_prefix_cons, and_iff_right hnil]
    by_cases hopen : c = '('
    · subst hopen
      rw [strayClosers_open, Nat.sub_le_iff_le_add, ih]
      refine forall₂_congr fun p _ => ?_
      rw [parenBalance_open]
      omega
    · by_cases hclose : c = ')'
      · subst hclose
        rw [strayClosers_close]
        cases depth with
        | zero =>
          -- The closer itself brings the balance down to `-1`.
          refine iff_of_false (Nat.not_succ_le_zero _) fun h => ?_
          exact h [] List.nil_prefix rfl
        | succ depth =>
          rw [Nat.succ_le_succ_iff, ih]
          refine forall₂_congr fun p _ => ?_
          rw [parenBalance_close]
          omega
      · rw [strayClosers_other hopen hclose, ih]
        simp only [parenBalance_other hopen hclose]

/-- The scan behind the parenthesis of a grouping clause counts the closers that are stray there. -/
theorem staysInside_iff (t : Text) (depth : Nat) :
    staysInside depth t ↔ strayClosers t ≤ depth := by
  induction t generalizing depth with
  | nil => cases depth <;> simp [staysInside, strayClosers]
  | cons c t ih =>
    by_cases hopen : c = '('
    · subst hopen
      rw [staysInside_open, ih, strayClosers_open, Nat.sub_le_iff_le_add]
    · by_cases hclose : c = ')'
      · subst hclose
        rw [strayClosers_close]
        cases depth with
        | zero => simp [staysInside]
        | succ depth => rw [staysInside_close, ih, Nat.succ_le_succ_iff]
      · rw [staysInside_other hopen hclose, ih, strayClosers_other hopen hclose]

/-- A parenthesis is unclosed if no closer behind it is stray. -/
theorem unclosed_iff_exists_strayClosers :
    Unclosed t ↔ ∃ front behind, t = front ++ '(' :: behind ∧ strayClosers behind = 0 := by
  refine exists₂_congr fun front behind => and_congr_right fun _ => ?_
  rw [← Nat.le_zero, strayClosers_le_iff]
  simp

theorem unclosed_cons_iff : Unclosed (c :: t) ↔ c = '(' ∧ strayClosers t = 0 ∨ Unclosed t := by
  simp only [unclosed_iff_exists_strayClosers]
  constructor
  · rintro ⟨front, behind, ht, hstray⟩
    cases front with
    | nil =>
      obtain ⟨rfl, rfl⟩ := List.cons.inj ht
      exact .inl ⟨rfl, hstray⟩
    | cons d front => exact .inr ⟨front, behind, (List.cons.inj ht).2, hstray⟩
  · rintro (⟨rfl, hstray⟩ | ⟨front, behind, rfl, hstray⟩)
    · exact ⟨[], t, rfl, hstray⟩
    · exact ⟨c :: front, behind, rfl, hstray⟩

theorem openParens_pos_iff (t : Text) : 0 < openParens t ↔ Unclosed t := by
  induction t with
  | nil =>
    refine iff_of_false (Nat.lt_irrefl 0) ?_
    rintro ⟨front, behind, ht, -⟩
    simp at ht
  | cons c t ih =>
    rw [unclosed_cons_iff, ← ih, openParens]
    split
    · rename_i hopens
      simp [hopens]
    · rename_i hopens
      simp [hopens]

instance (t : Text) : Decidable (Unclosed t) :=
  decidable_of_iff _ (openParens_pos_iff t)

/-- The parenthesis of a grouping clause in which the cursor is found is unclosed, whatever stray
closers there are in front of it. -/
theorem unclosed_of_openClause? (h : openClause? t = some keyword) : Unclosed t := by
  obtain ⟨⟨keyword', inner⟩, hlast, h⟩ := Option.bind_eq_some_iff.mp h
  obtain ⟨front, ht, -⟩ := groupedBy_of_lastClause? hlast
  simp only at h
  split at h
  · rename_i hinside
    rw [staysInside_iff, Nat.le_zero] at hinside
    exact unclosed_iff_exists_strayClosers.mpr ⟨front, inner, ht, hinside⟩
  · cases h

/-! ## Scope -/

theorem parenBalance_of_isAllBlank (h : t.isAllBlank) : parenBalance t = 0 := by
  have hcount : ∀ d, isBlank d = false → t.count d = 0 := by
    intro d hd
    refine List.count_eq_zero.mpr fun hmem => ?_
    rw [List.all_eq_true.mp h d hmem] at hd
    cases hd
  rw [parenBalance, hcount '(' (by decide), hcount ')' (by decide)]
  rfl

theorem nested_iff_of_expressionScope? (h : expressionScope? t = some scope) :
    scope = .nested ↔ strayClosers t < openParens t := by
  have hbalance : 0 < parenBalance t ↔ strayClosers t < openParens t := by
    rw [parenBalance_eq]
    omega
  rw [← hbalance]
  unfold expressionScope? at h
  split at h
  · rename_i hblank
    obtain rfl := Option.some.inj h
    simp [parenBalance_of_isAllBlank hblank]
  · simp only at h
    split at h
    · obtain rfl := Option.some.inj h
      split <;> simp_all
    · cases h

/-- Only the rule about expressions gives a scope. -/
theorem expressionScope?_of_ofPrefix (h : ofPrefix vocabulary t = .functionOrMetric scope) :
    expressionScope? t = some scope := by
  rw [ofPrefix_of_not_inBlock (by rw [h]; exact id)] at h
  split at h
  · cases h
  split at h
  · cases h
  split at h
  · cases h
  split at h
  · rename_i found hfound
    obtain rfl := Context.functionOrMetric.inj h
    exact hfound
  · cases h

/-! ## Templates -/

theorem mem_suggest_iff {context : Context} {p : Proposal} :
    p ∈ suggest vocabulary context span ↔ p ∈ Suggestion.candidates vocabulary span context := by
  rw [suggest, Proposal.ranked, List.mem_append, List.mem_filter, List.mem_filter,
    ← and_or_left, and_iff_left]
  simpa using Decidable.em _

/-- Templates are suggested at the start of a query only. -/
theorem exists_template_iff : (∃ p ∈ suggest vocabulary (.functionOrMetric scope) span,
    p.category = .template) ↔ scope = .start := by
  simp only [mem_suggest_iff, Suggestion.candidates]
  constructor
  · rintro ⟨p, hmem, hcategory⟩
    simp only [List.mem_append] at hmem
    obtain ((htemplate | haggregation) | hfunction) | hmetric := hmem
    · by_contra hscope
      rw [if_neg hscope] at htemplate
      cases htemplate
    · obtain ⟨op, -, rfl⟩ := List.mem_map.mp haggregation
      cases hcategory
    · obtain ⟨f, -, rfl⟩ := List.mem_map.mp hfunction
      cases hcategory
    · obtain ⟨name, -, rfl⟩ := List.mem_map.mp hmetric
      cases hcategory
  · rintro rfl
    have hne : Suggestion.templates span ≠ [] := by
      simp [Suggestion.templates, Template.builtin]
    obtain ⟨p, hmem⟩ := List.exists_mem_of_ne_nil _ hne
    have hcategory : p.category = .template := by
      obtain ⟨template, -, rfl⟩ := List.mem_map.mp hmem
      rfl
    exact ⟨p, by simp [hmem], hcategory⟩

/-! ## What the scope says -/

/-- Nested scope means that a parenthesis is unclosed. An unclosed parenthesis means nested scope if
more parentheses are open than closers are stray, and templates are suggested otherwise. -/
theorem scopeLaw_of_classify (h : classify vocabulary t cursor = .functionOrMetric scope) :
    ScopeLaw vocabulary (before t cursor) scope := by
  have hscope := nested_iff_of_expressionScope? (expressionScope?_of_ofPrefix h)
  constructor
  · intro hnested
    exact (openParens_pos_iff _).mp (Nat.zero_lt_of_lt (hscope.mp hnested))
  · exact fun _ => hscope
  · intro span
    have hstart : scope = .start ↔ ¬ scope = .nested := by
      cases scope <;> simp
    rw [exists_template_iff, hstart, hscope, Nat.not_lt]

/-- One closer is stray and two parentheses are open. -/
theorem scopeLaw_of_classify_rate :
    classify .builtin "é) + sum(rate(up".toList 17 = .functionOrMetric .nested ∧
      ScopeLaw .builtin (before "é) + sum(rate(up".toList 17) .nested := by
  have hclassify :
      classify .builtin "é) + sum(rate(up".toList 17 = .functionOrMetric .nested := by
    decide +kernel
  exact ⟨hclassify, scopeLaw_of_classify hclassify⟩

/-- A stray closer hides the call that the cursor is in, and whole queries are suggested as its
argument. -/
theorem start_of_unclosed : classify .builtin "up) + rate(".toList 11 = .functionOrMetric .start ∧
    Unclosed (before "up) + rate(".toList 11) ∧
      ∃ p ∈ suggest .builtin (.functionOrMetric .start) (.point 11), p.category = .template :=
  ⟨by decide +kernel, by decide +kernel, exists_template_iff.mpr rfl⟩

end PromqlAssist.Context
