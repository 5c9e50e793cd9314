import PromqlAssist.Proofs.Grammar.Nested
import PromqlAssist.Proofs.Grammar.Operand
import PromqlAssist.Proofs.Rule.Call

/-!
# Calls in queries

Every name of a query stands in front of what the rules on calls ask for. An aggregation keyword is
in front of its arguments or its clause, or else it is a label in front of a comma, a closing
parenthesis or the operator of a matcher.
-/

namespace PromqlAssist.Grammar

open Text Rule

variable {t : Text}

theorem Digits.isAggregation_text (d : Digits) : Operator.isAggregation d.text = false := by
  obtain ⟨text, nonempty, digits⟩ := d
  obtain ⟨c, text, rfl⟩ := List.exists_cons_of_ne_nil nonempty
  exact isAggregation_of_isDigit (digits c (by simp)) text

theorem Digits.calls (d : Digits) (h : Delimited t) : Calls none (d.text ++ t) :=
  Calls.plain (fun c hc => isIdent_of_isDigit (d.digits c hc)) d.isAggregation_text h

theorem Number.calls (v : Number) (h : Delimited t) : Calls none (v.text ++ t) := by
  cases v with
  | integer whole => exact whole.calls h
  | decimal whole fraction =>
    rw [text, List.append_assoc]
    exact whole.calls (Delimited.symbol (by decide) (by decide) (fraction.calls h))

/-- A range starts with a digit. -/
theorem Range.isAggregation_text (r : Range) : Operator.isAggregation r.text = false := by
  have hduration : ∀ (d : Duration) (u : Text), Operator.isAggregation (d.text ++ u) = false := by
    rintro ⟨amounts, nonempty⟩ u
    obtain ⟨a, amounts, rfl⟩ := List.exists_cons_of_ne_nil nonempty
    obtain ⟨c, v, hcount⟩ := List.exists_cons_of_ne_nil a.count.nonempty
    have hc : c.isDigit := a.count.digits c (by simp [hcount])
    simp only [Duration.text, List.flatMap_cons, Amount.text, hcount, List.cons_append]
    exact isAggregation_of_isDigit hc _
  cases r with
  | plain range =>
    have hrange := hduration range []
    rwa [List.append_nil] at hrange
  | stepped range resolution? => exact hduration range _

theorem Range.delimited (r : Range) (h : Calls none t) :
    Delimited ('[' :: (r.text ++ ']' :: t)) := by
  refine Delimited.symbol (by decide) (by decide) ?_
  apply Calls.plain (fun c hc => r.isIdent_of_mem hc) r.isAggregation_text
  exact .symbol (by decide) (by decide) h

namespace Matcher

variable (m : Matcher)

/-- The label of a matcher is in front of its operator. -/
theorem calls (h : Calls none t) : Calls none (m.render StringLiteral.masked ++ t) := by
  have hvalue : Calls none (m.value.masked ++ t) := by
    refine Calls.symbols ?_ h
    intro c hc
    rcases m.value.mem_masked hc with rfl | rfl
    · decide
    · decide
  obtain ⟨c, u, hop, hc⟩ := m.operator_cons
  have hlabel : followsLabel c := by
    rcases hc with rfl | rfl
    · decide
    · decide
  have hu : ∀ d ∈ u, isIdent d = false := by
    intro d hd
    have hmem : d ∈ m.op.token.toList := by
      rw [hop]
      exact List.mem_cons_of_mem c hd
    rcases m.mem_operator hmem with rfl | rfl | rfl
    · decide
    · decide
    · decide
  rw [render, hop, List.append_assoc, List.append_assoc, List.cons_append]
  refine Calls.label (fun d hd => m.label.isIdent_of_mem hd) hlabel ?_
  exact Calls.symbols hu hvalue

end Matcher

theorem Block.calls (b : Block) (h : Calls none t) :
    Calls none (b.render StringLiteral.masked ++ t) := by
  have hmore : Calls none ((b.more.map (Matcher.render StringLiteral.masked)).flatMap
      (fun m => ',' :: ' ' :: m) ++ t) := by
    induction b.more with
    | nil => exact h
    | cons m more ih =>
      simp only [List.map_cons, List.flatMap_cons, List.cons_append, List.append_assoc]
      refine Calls.symbol (by decide) ?_
      refine Calls.symbol (by decide) ?_
      exact m.calls ih
  rw [render, commaList, List.append_assoc]
  exact b.first.calls hmore

theorem Selector.calls (s : Selector) (h : Delimited t) :
    Calls none (s.render StringLiteral.masked ++ t) := by
  obtain ⟨metric, block?⟩ := s
  rw [render, List.append_assoc]
  apply Calls.plain (fun c hc => metric.isIdent_of_mem hc) metric.notKeyword
  cases block? with
  | none => exact h
  | some b =>
    refine Delimited.symbol (by decide) (by decide) ?_
    rw [List.append_eq, List.append_assoc]
    apply b.calls
    exact Calls.symbol (by decide) h.calls

namespace Labels

variable (l : Labels)

/-- Each label is in front of a comma or the closing parenthesis. -/
theorem calls (h : Calls none t) : Calls none (l.text ++ ')' :: t) := by
  obtain ⟨first, more⟩ := l
  rw [text, commaList, List.append_assoc]
  induction more generalizing first with
  | nil => exact Calls.label (fun c hc => first.isIdent_of_mem hc) (by decide) h
  | cons label more ih =>
    simp only [List.map_cons, List.flatMap_cons, List.cons_append, List.append_assoc]
    refine Calls.label (fun c hc => first.isIdent_of_mem hc) (by decide) ?_
    refine Calls.symbol (by decide) ?_
    exact ih label

theorem level : Level l.text := by
  refine Level.flat ?_
  intro c hc
  rcases l.mem_text hc with hc | rfl | rfl
  · have hbracket := isBracket_of_isIdent hc
    exact ⟨ne_of_isBracket hbracket rfl, ne_of_isBracket hbracket rfl⟩
  · decide
  · decide

end Labels

theorem Clause.calls (l : Clause) (h : Calls none t) : Calls none (l.text ++ t) := by
  have keywords : ∀ op ∈ Operator.groupings,
      (∀ c ∈ op.token.toList, isIdent c) ∧ Operator.isAggregation op.token.toList = false := by
    decide
  obtain ⟨hident, hkeyword⟩ := keywords l.keyword l.known
  have hlabels : Delimited (' ' :: '(' :: (l.labels.text ++ ')' :: t)) := by
    refine Delimited.symbol (by decide) (by decide) ?_
    refine Calls.symbol (by decide) ?_
    exact l.labels.calls h
  have htext : l.text ++ t =
      l.keyword.token.toList ++ ' ' :: '(' :: (l.labels.text ++ ')' :: t) := by
    simp [text]
  rw [htext]
  exact Calls.plain hident hkeyword hlabels

namespace Binary

variable (op : Binary)

theorem calls (h : Calls none t) : Calls none (op.op.token.toList ++ ' ' :: t) := by
  have operators : ∀ op ∈ Operator.binaries, (∀ c ∈ op.token.toList, isIdent c = false) ∨
      (∀ c ∈ op.token.toList, isIdent c) ∧ Operator.isAggregation op.token.toList = false := by
    decide
  rcases operators op.op op.known with hsymbols | ⟨hident, hkeyword⟩
  · apply Calls.symbols hsymbols
    exact Calls.symbol (by decide) h
  · apply Calls.plain hident hkeyword
    exact .symbol (by decide) (by decide) h

end Binary

theorem FunctionOf.isWordChar_of_mem {kind : FunctionKind} (f : FunctionOf kind) {c : Char}
    (h : c ∈ f.function.name.toList) : isWordChar c := by
  have names : ∀ f ∈ QueryFunction.all, ':' ∉ f.name.toList := by
    decide +kernel
  apply isWordChar_of_isIdent (f.isIdent_of_mem h)
  rintro rfl
  exact names f.function f.known h

theorem FunctionOf.isAggregation_name {kind : FunctionKind} (f : FunctionOf kind) :
    Operator.isAggregation f.function.name.toList = false := by
  have names : ∀ f ∈ QueryFunction.all, Operator.isAggregation f.name.toList = false := by
    decide +kernel
  exact names f.function f.known

theorem FunctionOf.callFits (f : FunctionOf .utility) (t : Text) :
    CallFits none f.function.name.toList ('(' :: t) := by
  have names : ∀ f ∈ QueryFunction.all, f.kind = .utility → f.name.toList ∉ rateNames := by
    decide +kernel
  constructor
  · intro _ hkeyword
    rw [f.isAggregation_name] at hkeyword
    cases hkeyword
  · intro _ hrate
    exact absurd hrate (names f.function f.known f.isKind)

namespace Part

variable {k : Kind}

theorem level (q : Part k) : Level q.masked :=
  q.nested.level

end Part

namespace Aggregation

variable (a : Aggregation)

theorem isWordChar_of_mem {c : Char} (h : c ∈ a.op.token.toList) : isWordChar c := by
  have keywords : ∀ op ∈ Operator.aggregations, ':' ∉ op.token.toList := by decide
  apply isWordChar_of_isIdent (a.isIdent_of_mem h)
  rintro rfl
  exact keywords a.op a.known h

theorem callFits (args : Part .arguments) (t : Text) :
    CallFits none a.op.token.toList ('(' :: (args.masked ++ ')' :: t)) := by
  have keywords : ∀ op ∈ Operator.aggregations, op.token.toList ∉ rateNames := by decide
  constructor
  · intro _ _
    obtain ⟨c, hmem, hc⟩ := args.starts
    right
    rw [trimStart_of_head (c := '(') (by decide)]
    exact hasCallBody_append args.level hc hmem t
  · intro _ hrate
    exact absurd hrate (keywords a.op a.known)

end Aggregation

/-- The arguments of an aggregation are found behind its clause. -/
theorem Clause.hasCallBody_masked (clause : Clause) (args : Part .arguments) (t : Text) :
    hasCallBody (trimStart (' ' :: (clause.text ++ ' ' :: '(' :: (args.masked ++ ')' :: t)))) := by
  have keywords : ∀ op ∈ Operator.groupings, op.token.toList ≠ [] ∧
      ∀ c ∈ op.token.toList, isBlank c = false := by
    decide
  obtain ⟨hne, hkeyword⟩ := keywords clause.keyword clause.known
  obtain ⟨d, u, hu⟩ := List.exists_cons_of_ne_nil hne
  have hblank : isBlank d = false := hkeyword d (by simp [hu])
  obtain ⟨c, hmem, hc⟩ := args.starts
  have htext : clause.text ++ ' ' :: '(' :: (args.masked ++ ')' :: t) =
      clause.keyword.token.toList ++ ' ' :: '(' :: (clause.labels.text ++ ')' :: ' ' :: '(' ::
        (args.masked ++ ')' :: t)) := by
    simp [Clause.text]
  rw [trimStart_blank (c := ' ') (by decide), htext]
  rw [hu, List.cons_append, trimStart_of_head hblank, ← List.cons_append, ← hu]
  exact hasCallBody_clause clause.known clause.labels.level args.level hc hmem t

namespace Part

variable {k : Kind}

/-- Every call of a query is complete, in front of any text that may follow. -/
theorem calls (q : Part k) (h : Delimited t) : Calls none (q.masked ++ t) := by
  have hclose : ∀ {u : Text}, Calls none u → Delimited (')' :: u) := by
    intro u hu
    exact .symbol (by decide) (by decide) hu
  have hblank : ∀ {u : Text}, Calls none u → Delimited (' ' :: u) := by
    intro u hu
    exact .symbol (by decide) (by decide) hu
  induction q generalizing t with
  | number value => exact value.calls h
  | selector s => exact s.calls h
  | rangeCall f s range =>
    have hbody : Level (s.render StringLiteral.masked ++ '[' :: (range.text ++ [']'])) :=
      (s.nested.append (.range range)).level
    have hfits := callFits_range hbody (by simp) f.isAggregation_name t
    simp only [List.append_assoc, List.cons_append, List.nil_append] at hfits
    simp only [masked, render, List.append_assoc, List.cons_append, List.nil_append]
    refine Calls.call (fun c hc => f.isIdent_of_mem hc) (fun c hc => f.isWordChar_of_mem hc)
      hfits ?_
    apply s.calls
    apply range.delimited
    exact (hclose h.calls).calls
  | call f args ih =>
    rw [masked, render, List.append_assoc, List.cons_append, List.append_assoc]
    refine Calls.call (fun c hc => f.isIdent_of_mem hc) (fun c hc => f.isWordChar_of_mem hc)
      (f.callFits _) ?_
    exact ih (hclose h.calls)
  | aggregate a args ih =>
    rw [masked, render, List.append_assoc, List.cons_append, List.append_assoc]
    refine Calls.call (fun c hc => a.isIdent_of_mem hc) (fun c hc => a.isWordChar_of_mem hc)
      (a.callFits args t) ?_
    exact ih (hclose h.calls)
  | aggregateBy a clause args ih =>
    simp only [masked, render, List.append_assoc, List.cons_append, List.nil_append]
    refine Calls.name (fun c hc => a.isIdent_of_mem hc) (hblank (clause.calls ?_)) ?_
    · refine Calls.symbol (by decide) (Calls.symbol (by decide) ?_)
      exact ih (hclose h.calls)
    · intro _
      right
      exact clause.hasCallBody_masked args t
  | aggregateOver a args clause ih =>
    simp only [masked, render, List.append_assoc, List.cons_append]
    refine Calls.call (fun c hc => a.isIdent_of_mem hc) (fun c hc => a.isWordChar_of_mem hc)
      (a.callFits args _) ?_
    apply ih
    apply hclose
    exact Calls.symbol (by decide) (clause.calls h.calls)
  | group e ih =>
    rw [masked, render, List.cons_append, List.append_assoc]
    apply Calls.symbol (by decide)
    exact ih (hclose h.calls)
  | operand e ih => exact ih h
  | signed sign e ih =>
    rw [masked, render, List.cons_append]
    refine Calls.symbol ?_ (ih h)
    cases sign <;> decide
  | binary left op right admits ihl ihr =>
    simp only [masked, render, List.append_assoc, List.cons_append]
    apply ihl
    apply hblank
    exact op.calls (ihr h)
  | argument e ih => exact ih h
  | string s =>
    refine Calls.symbols ?_ h.calls
    intro c hc
    rcases s.mem_masked hc with rfl | rfl
    · decide
    · decide
  | last arg ih => exact ih h
  | more arg args iharg ih =>
    simp only [masked, render, List.append_assoc, List.cons_append]
    apply iharg
    refine .symbol (by decide) (by decide) ?_
    exact Calls.symbol (by decide) (ih h)

end Part

end PromqlAssist.Grammar
