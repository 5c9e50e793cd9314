import Mathlib.Data.List.Nodup
import PromqlAssist.Proofs.Finding
import PromqlAssist.Proofs.Rule.LabelMatcher
import PromqlAssist.Proofs.Rule.Span
import PromqlAssist.Proofs.Text.Literal

/-!
# What the gates keep from a report

The gate of a rule is there to save its check where nothing can be wrong. Those on ranges, arithmetic
and rates do no more than that. The gate on label blocks also leaves out every query that spells a
call of `label_replace`, in a string literal too, and then hides the defects that the check finds.
-/

namespace PromqlAssist

open Text

namespace Rule

variable {r : Rule} {v : Vocabulary} {query t : Text} {f : Finding} {span : Span} {n : Nat}

theorem mem_of_badRangeFrom? {resume : Nat} (h : badRangeFrom? n resume t = some span) :
    '[' ∈ t := by
  induction t generalizing n resume with
  | nil => cases h
  | cons c t ih =>
    by_cases hc : c = '['
    · exact hc ▸ List.mem_cons_self ..
    · rw [badRangeFrom?, if_pos (.inr hc)] at h
      exact List.mem_cons_of_mem c (ih h)

theorem any_of_firstOperatorFrom? {last? : Option Char} {m : Nat}
    (h : firstOperatorFrom? n last? t = some m) : t.any isArithmetic := by
  induction t generalizing n last? with
  | nil => cases h
  | cons c t ih =>
    rw [List.any_cons, Bool.or_eq_true]
    rw [firstOperatorFrom?] at h
    split at h
    · rename_i hc
      exact .inl (Bool.and_eq_true_iff.mp hc).1
    · exact .inr (ih h)

/-- The name of the call may have a letter in front. -/
theorem infix_of_rateCall? {length : Nat} {inner : Text} (h : rateCall? t = some (length, inner)) :
    "rate(".toList <:+: t := by
  obtain ⟨opening, hopening, hcall⟩ := List.exists_of_findSome?_eq_some h
  obtain ⟨rest, hdrop, -⟩ := Option.map_eq_some_iff.mp hcall
  rw [dropPart?_eq_some_iff.mp hdrop]
  rcases List.mem_cons.mp hopening with rfl | hopening
  · exact ⟨['i'], rest, rfl⟩
  · obtain rfl := List.mem_singleton.mp hopening
    exact ⟨[], rest, rfl⟩

theorem infix_of_bareRateFrom? {last? : Option Char} (h : bareRateFrom? n last? t = some span) :
    "rate(".toList <:+: t := by
  induction t generalizing n last? with
  | nil => cases h
  | cons c t ih =>
    have later : bareRateFrom? (n + c.utf8Size) (some c) t = some span →
        "rate(".toList <:+: c :: t :=
      fun h => (ih h).trans (List.infix_cons (List.infix_refl t))
    rw [bareRateFrom?] at h
    split at h
    · exact later h
    split at h
    · exact later h
    · rename_i hcall
      exact infix_of_rateCall? hcall

theorem mem_of_labelMatchers (h : labelMatchers v query = some span) : '{' ∈ query.mask := by
  by_contra hmem
  rw [labelMatchers_of_not_mem v hmem] at h
  cases h

/-- What a gate may keep from a report: a defect in a query that spells the exempted call. -/
def Exempted (r : Rule) (query : Text) : Prop :=
  r.id = .labelMatchers ∧ "label_replace(".toList <:+: query

/-- A gate lets through what the check finds a defect in, the exempted queries apart. -/
theorem admits_iff_of_check (hr : r ∈ builtin) (h : r.check v query = some span) :
    r.admits query ↔ ¬ Exempted r query := by
  have admitted : r.admits query → r.id ≠ .labelMatchers → (r.admits query ↔ ¬ Exempted r query) :=
    fun hadmits hid => iff_of_true hadmits fun hex => hid hex.1
  simp only [builtin, List.mem_cons, List.not_mem_nil, or_false] at hr
  rcases hr with rfl | rfl | rfl | rfl | rfl | rfl | rfl | rfl | rfl
  · exact admitted rfl (by decide)
  · exact admitted rfl (by decide)
  · exact admitted rfl (by decide)
  · refine admitted (List.contains_iff_mem.mpr ?_) (by decide)
    exact mem_of_mem_mask (mem_of_badRangeFrom? h) (by decide)
  · -- The gate that refuses more than the queries without a block.
    have hmem : query.contains '{' :=
      List.contains_iff_mem.mpr (mem_of_mem_mask (mem_of_labelMatchers (v := v) h) (by decide))
    show mentionsLabelBlock query ↔ _
    rw [mentionsLabelBlock, hmem, Bool.true_and, Bool.not_eq_true', Bool.eq_false_iff, Ne,
      hasInfix_iff]
    exact not_congr (and_iff_right rfl).symm
  · obtain ⟨n, hn, -⟩ := Option.bind_eq_some_iff.mp h
    exact admitted (any_of_firstOperatorFrom? hn) (by decide)
  · refine admitted (hasInfix_iff.mpr ?_) (by decide)
    exact infix_of_infix_mask (infix_of_bareRateFrom? h) (by decide) (by decide)
  · exact admitted rfl (by decide)
  · exact admitted rfl (by decide)

theorem finding?_eq_some_iff (hr : r ∈ builtin) : r.finding? v query = some f ↔
    ¬ Exempted r query ∧ ∃ span, r.check v query = some span ∧ f = ⟨r.id, r.message, span⟩ := by
  rw [finding?_of_fits fun span h => (cutsOut_of_check hr h).fits]
  cases hcheck : r.check v query with
  | none => simp
  | some span =>
    have hadmits := admits_iff_of_check hr hcheck
    by_cases hex : Exempted r query
    · simp [hadmits, hex]
    · simp [hadmits, hex, eq_comm]

/-- The findings are those of rules that find a defect in a query which is not exempted. -/
theorem exists_of_mem_validate (h : f ∈ validate v query) : ∃ r ∈ builtin, ¬ Exempted r query ∧
    ∃ span, r.check v query = some span ∧ f = ⟨r.id, r.message, span⟩ := by
  obtain ⟨r, hr, hf⟩ := exists_of_mem_findings h
  exact ⟨r, hr, (finding?_eq_some_iff hr).mp hf⟩

/-- Of a query that is not blank every rule is heard. -/
theorem validate_eq_filterMap (v : Vocabulary) (hblank : query.isAllBlank = false) :
    validate v query = builtin.filterMap fun r => r.finding? v query := by
  apply findings_eq_filterMap
  intro r hr hid
  simp only [builtin, List.mem_cons, List.not_mem_nil, or_false] at hr
  rcases hr with rfl | rfl | rfl | rfl | rfl | rfl | rfl | rfl | rfl
  · have hcheck : blankQuery v query = none := if_neg (by simp [hblank])
    exact congrArg (Option.map _) hcheck
  all_goals cases hid

theorem mem_validate_of_check (hblank : query.isAllBlank = false) (hr : r ∈ builtin)
    (hex : ¬ Exempted r query) (h : r.check v query = some span) :
    ⟨r.id, r.message, span⟩ ∈ validate v query := by
  rw [validate_eq_filterMap v hblank, List.mem_filterMap]
  exact ⟨r, hr, (finding?_eq_some_iff hr).mpr ⟨hex, span, h, rfl⟩⟩

/-- There is one rule on label matchers. -/
theorem exists_labelMatchers : ∃ r ∈ builtin, r.id = .labelMatchers ∧
    r.message = "Invalid label matcher, expected name=\"value\"" ∧ r.check = labelMatchers ∧
      ∀ r' ∈ builtin, r'.id = .labelMatchers → r' = r := by
  have hnodup : (builtin.map Rule.id).Nodup := by decide
  have hr : ⟨.labelMatchers, "Invalid label matcher, expected name=\"value\"",
      some mentionsLabelBlock, labelMatchers⟩ ∈ builtin := by
    simp [builtin]
  exact ⟨_, hr, rfl, rfl, rfl, fun r' hr' hid => List.inj_on_of_nodup_map hnodup hr' hr hid⟩

/-- A defect of the label matchers is reported, with its span, unless the query spells a call of
`label_replace`, which may stand in a string literal. -/
theorem labelMatchers_heard_iff (v : Vocabulary) (query : Text) (f : Finding) :
    f ∈ validate v query ∧ f.rule = .labelMatchers ↔
      ¬ "label_replace(".toList <:+: query ∧ ∃ span, labelMatchers v query = some span ∧
        f = ⟨.labelMatchers, "Invalid label matcher, expected name=\"value\"", span⟩ := by
  obtain ⟨r, hr, hid, hmessage, hcheck, hunique⟩ := exists_labelMatchers
  have hexempted : Exempted r query ↔ "label_replace(".toList <:+: query := and_iff_right hid
  rw [← hexempted, ← hcheck, ← hid, ← hmessage]
  constructor
  · rintro ⟨hf, hrule⟩
    obtain ⟨r', hr', hex, span, hfound, rfl⟩ := exists_of_mem_validate hf
    obtain rfl := hunique r' hr' (hrule.trans hid)
    exact ⟨hex, span, hfound, rfl⟩
  · rintro ⟨hex, span, hfound, rfl⟩
    have hblank : query.isAllBlank = false := by
      have hbrace := mem_of_mem_mask (mem_of_labelMatchers (hcheck ▸ hfound)) (by decide)
      rw [isAllBlank, List.all_eq_false]
      exact ⟨_, hbrace, by decide⟩
    exact ⟨mem_validate_of_check hblank hr hex hfound, rfl⟩

/-- The call stands in the value of a matcher only, and the entry behind it is no matcher. -/
theorem labelMatchers_unheard :
    let query : Text := "up\x7ba=\"label_replace(\", b\x7d".toList
    query.isAllBlank = false ∧ ¬ "label_replace(".toList <:+: query.mask ∧
      labelMatchers .builtin query = some ⟨23, 25⟩ ∧
      ∀ f ∈ validate .builtin query, f.rule ≠ .labelMatchers := by
  refine ⟨by decide +kernel, ?_, by decide +kernel, ?_⟩
  · rw [← hasInfix_iff, Bool.not_eq_true]
    decide +kernel
  · rintro f hf hid
    obtain ⟨r, -, hex, span, -, rfl⟩ := exists_of_mem_validate hf
    refine hex ⟨hid, hasInfix_iff.mp ?_⟩
    decide +kernel

/-! ## Rules without their gates -/

/-- The same rule, put to every query. -/
def ungated (r : Rule) : Rule :=
  { r with gate? := none }

/-- Rules that hold back some of what they find without their gates, but not that a query is empty,
report the rest in the same order. -/
theorem findings_eq_filter {rules : List Rule} {heard : Finding → Bool}
    (hempty : ∀ f, f.rule = .emptyQuery → heard f)
    (hrules : ∀ r ∈ rules, r.finding? v query = (r.ungated.finding? v query).filter heard) :
    findings v query rules = (findings v query (rules.map ungated)).filter heard := by
  induction rules with
  | nil => rfl
  | cons r rules ih =>
    obtain ⟨hr, hrules⟩ := List.forall_mem_cons.mp hrules
    have hlater := ih hrules
    rw [List.map_cons, findings, findings, hr]
    cases hf : r.ungated.finding? v query with
    | none => exact hlater
    | some f =>
      have hid : f.rule = r.id := (reports_of_finding? hf).2.rule
      cases hheard : heard f with
      | false =>
        have hgoes : r.ungated.id ≠ .emptyQuery := by
          intro hrule
          rw [hempty f (hid.trans hrule)] at hheard
          cases hheard
        simp only [Option.filter_some, hheard, if_neg hgoes, Bool.false_eq_true, if_false]
        rw [List.filter_cons_of_neg (by simp [hheard])]
        exact hlater
      | true =>
        simp only [Option.filter_some, hheard, if_true]
        rw [List.filter_cons_of_pos hheard]
        by_cases hrule : r.id = .emptyQuery
        · rw [if_pos hrule, if_pos (show r.ungated.id = .emptyQuery from hrule)]
          rfl
        · rw [if_neg hrule, if_neg (show r.ungated.id ≠ .emptyQuery from hrule), hlater]

/-- Whether no gate holds a finding back: it is not on label matchers, or the query does not spell
the exempted call. -/
def isHeard (query : Text) (f : Finding) : Bool :=
  f.rule ≠ .labelMatchers || !hasInfix "label_replace(".toList query

theorem isHeard_iff (span : Span) :
    isHeard query ⟨r.id, r.message, span⟩ ↔ ¬ Exempted r query := by
  rw [isHeard, Exempted, ← hasInfix_iff, Bool.or_eq_true, decide_eq_true_eq, Bool.not_eq_true',
    ← Bool.not_eq_true, ← not_and_or]

/-- A gate holds back the defects of exempted queries and nothing else. -/
theorem finding?_eq_filter (hr : r ∈ builtin) : r.finding? v query =
    ((r.check v query).map fun span => ⟨r.id, r.message, span⟩).filter (isHeard query) := by
  rw [finding?_of_fits fun span h => (cutsOut_of_check hr h).fits]
  cases hcheck : r.check v query with
  | none => simp
  | some span =>
    have hheard := (admits_iff_of_check hr hcheck).trans (isHeard_iff span).symm
    simp only [Option.map_some, Option.filter_some, hheard]

theorem finding?_ungated (hr : r ∈ builtin) :
    r.ungated.finding? v query = (r.check v query).map fun span => ⟨r.id, r.message, span⟩ := by
  rw [finding?_of_fits (r := r.ungated) fun span h => (cutsOut_of_check hr h).fits]
  rfl

/-- That the gates only save work: the findings are those of the rules without their gates, but for
those on label matchers in a query that spells the exempted call, and each other gate refuses only
queries in which its check finds nothing. -/
structure GatesSaveWork (v : Vocabulary) (query : Text) : Prop where
  validate_eq : validate v query = (findings v query (builtin.map ungated)).filter (isHeard query)
  ranges : mentionsRange query = false → timeRange v query = none
  arithmetic : mentionsArithmetic query = false → binaryExpression v query = none
  rates : mentionsRate query = false → rateUsage v query = none
  blocks : '{' ∉ query → labelMatchers v query = none

theorem gatesSaveWork (v : Vocabulary) (query : Text) : GatesSaveWork v query := by
  -- What a check finds in a query that is not exempted shows that its gate lets the query through.
  have refused : ∀ r ∈ builtin, ¬ Exempted r query → r.admits query = false →
      r.check v query = none := by
    intro r hr hex hrefuses
    rw [Option.eq_none_iff_forall_ne_some]
    intro span h
    rw [(admits_iff_of_check hr h).mpr hex] at hrefuses
    cases hrefuses
  refine ⟨?_, fun h => ?_, fun h => ?_, fun h => ?_, fun h => ?_⟩
  · apply findings_eq_filter
    · intro f hf
      simp [isHeard, hf]
    · intro r hr
      rw [finding?_eq_filter hr, finding?_ungated hr]
  · exact refused ⟨.timeRange, _, some mentionsRange, timeRange⟩ (by simp [builtin]; rfl)
      (fun hex => absurd hex.1 (by decide)) h
  · exact refused ⟨.binaryExpression, _, some mentionsArithmetic, binaryExpression⟩
      (by simp [builtin]; rfl) (fun hex => absurd hex.1 (by decide)) h
  · exact refused ⟨.rateUsage, _, some mentionsRate, rateUsage⟩
      (by simp [builtin]; rfl) (fun hex => absurd hex.1 (by decide)) h
  · apply labelMatchers_of_not_mem
    exact fun hmem => h (mem_of_mem_mask hmem (by decide))

/-- A call that is spelled out. Without its gate the rule reports the entry of the block, between
two defects that are reported anyway. -/
theorem gatesSaveWork_exempted :
    let query : Text := "label_replace(up\x7bb\x7d[5]) + rate(up)".toList
    let message := "Invalid label matcher, expected name=\"value\""
    findings .builtin query (builtin.map ungated) =
        [⟨.timeRange, "Invalid time range, expected a duration such as [5m] or [1h:1m]", ⟨19, 22⟩⟩,
          ⟨.labelMatchers, message, ⟨17, 19⟩⟩,
          ⟨.rateUsage, "rate() needs a range vector, e.g. rate(metric[5m])", ⟨26, 34⟩⟩] ∧
      validate .builtin query =
        [⟨.timeRange, "Invalid time range, expected a duration such as [5m] or [1h:1m]", ⟨19, 22⟩⟩,
          ⟨.rateUsage, "rate() needs a range vector, e.g. rate(metric[5m])", ⟨26, 34⟩⟩] := by
  intro query message
  have hungated : findings .builtin query (builtin.map ungated) =
      [⟨.timeRange, "Invalid time range, expected a duration such as [5m] or [1h:1m]", ⟨19, 22⟩⟩,
        ⟨.labelMatchers, message, ⟨17, 19⟩⟩,
        ⟨.rateUsage, "rate() needs a range vector, e.g. rate(metric[5m])", ⟨26, 34⟩⟩] := by
    decide +kernel
  refine ⟨hungated, ?_⟩
  rw [(gatesSaveWork .builtin query).validate_eq, hungated]
  decide +kernel

end Rule

end PromqlAssist
