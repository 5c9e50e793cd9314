import PromqlAssist.Proofs.Finding
import PromqlAssist.Proofs.Grammar.Call

/-!
# Well-formed queries have no findings

Each rule accepts a query for a reason of its own: the brackets, ranges, blocks and strings because
the query is nested, the operators because every part starts and ends with an operand, the calls
because every name stands in front of what it needs.
-/

namespace PromqlAssist

theorem Rule.finding?_eq_none {r : Rule} {v : Vocabulary} {query : Text}
    (h : r.check v query = none) : r.finding? v query = none := by
  rw [Rule.finding?, h]
  split
  · rfl
  · rfl

theorem findings_eq_nil {v : Vocabulary} {query : Text} {rules : List Rule}
    (h : ∀ r ∈ rules, r.check v query = none) : findings v query rules = [] := by
  rw [List.eq_nil_iff_forall_not_mem]
  intro f hf
  obtain ⟨r, hr, hfound⟩ := exists_of_mem_findings hf
  rw [Rule.finding?_eq_none (h r hr)] at hfound
  cases hfound

namespace Grammar

open Text

/-- Whether `m` is the name of a metric and stands somewhere in a text. -/
structure Mentions (t m : Text) : Prop where
  isName : ∃ name : MetricName, name.text = m
  infixed : m <:+: t

variable {k : Kind} {m t : Text}

theorem Mentions.append (h : Mentions t m) (s u : Text) : Mentions (s ++ (t ++ u)) m where
  isName := h.isName
  infixed := h.infixed.trans (List.infix_append' s t u)

theorem Selector.mentions (s : Selector) :
    Mentions (s.render StringLiteral.text) s.metric.text where
  isName := ⟨s.metric, rfl⟩
  infixed := List.infix_append [] _ _

namespace Part

theorem mentions_of_mem (q : Part k) (h : m ∈ q.metrics) : Mentions q.text m := by
  induction q with
  | number value => cases h
  | selector s =>
    obtain rfl := List.mem_singleton.mp h
    exact s.mentions
  | rangeCall f s range =>
    obtain rfl := List.mem_singleton.mp h
    simpa [text, render] using s.mentions.append (f.function.name.toList ++ ['(']) _
  | call f args ih =>
    simpa [text, render] using (ih h).append (f.function.name.toList ++ ['(']) [')']
  | aggregate a args ih =>
    simpa [text, render] using (ih h).append (a.op.token.toList ++ ['(']) [')']
  | aggregateBy a clause args ih =>
    simpa [text, render] using
      (ih h).append (a.op.token.toList ++ ' ' :: (clause.text ++ [' ', '('])) [')']
  | aggregateOver a args clause ih =>
    simpa [text, render] using
      (ih h).append (a.op.token.toList ++ ['(']) (')' :: ' ' :: clause.text)
  | group e ih => exact (ih h).append ['('] [')']
  | operand e ih => exact ih h
  | signed sign e ih => simpa [text, render] using (ih h).append [sign.char] []
  | binary left op right admits ihl ihr =>
    rcases List.mem_append.mp h with h | h
    · exact (ihl h).append [] _
    · simpa [text, render] using
        (ihr h).append (left.text ++ ' ' :: (op.op.token.toList ++ [' '])) []
  | argument e ih => exact ih h
  | string s => cases h
  | last arg ih => exact ih h
  | more arg args iharg ih =>
    rcases List.mem_append.mp h with h | h
    · exact (iharg h).append [] _
    · simpa [text, render] using (ih h).append (arg.text ++ [',', ' ']) []

theorem blankQuery_eq_none (q : Part k) (h : m ∈ q.metrics) (v : Vocabulary) :
    Rule.blankQuery v q.text = none := by
  obtain ⟨⟨name, rfl⟩, hpart⟩ := q.mentions_of_mem h
  obtain ⟨c, hc⟩ := List.exists_mem_of_ne_nil _ name.text_ne_nil
  refine if_neg ?_
  intro hblank
  have hc' : isBlank c := List.all_eq_true.mp hblank c (hpart.subset hc)
  rw [isBlank_of_isIdent (name.isIdent_of_mem hc)] at hc'
  cases hc'

theorem metricPresence_eq_none (q : Part k) {v : Vocabulary} {name : String}
    (hname : name ∈ v.metrics) (h : name.toList ∈ q.metrics) :
    Rule.metricPresence v q.text = none := by
  refine if_pos ?_
  rw [List.any_eq_true]
  exact ⟨name, hname, hasInfix_iff.mpr (q.mentions_of_mem h).infixed⟩

end Part

/-- A well-formed query over a known metric has no findings. -/
theorem validate_text_eq_nil (v : Vocabulary) {n : Nat} (q : Query n)
    (h : ∃ name ∈ v.metrics, name.toList ∈ q.metrics) : validate v q.text = [] := by
  obtain ⟨name, hname, hmem⟩ := h
  have hmask : mask q.text = q.masked := q.nested.masks.mask_eq
  have hbalanced : Balanced (mask q.text) := by
    rw [hmask]
    exact q.nested.balanced
  have hranged : Ranged (mask q.text) := by
    rw [hmask]
    exact q.nested.ranged
  have hsettled : Rule.Settled Rule.AwaitsOperand (mask q.text) := by
    rw [hmask]
    exact Kind.awaiting q.settled
  have hcalls : Rule.Calls none (mask q.text) := by
    rw [hmask, ← List.append_nil q.masked]
    exact q.calls Rule.Delimited.nil
  apply findings_eq_nil
  intro r hr
  simp only [Rule.builtin, List.mem_cons, List.not_mem_nil, or_false] at hr
  rcases hr with rfl | rfl | rfl | rfl | rfl | rfl | rfl | rfl | rfl
  · exact q.blankQuery_eq_none hmem v
  · exact hbalanced.balancedBrackets_eq_none v
  · exact q.metricPresence_eq_none hname hmem
  · exact hranged.timeRange_eq_none v
  · exact q.nested.labelMatchers_eq_none v
  · exact hsettled.binaryExpression_eq_none v
  · exact hcalls.rateUsage_eq_none v
  · exact hcalls.aggregationExpression_eq_none v
  · exact q.nested.masks.stringLiterals_eq_none v

-- A second sign behind an arithmetic operator is one too many, so `Admits` has to refuse it.
example : validate ⟨["up"], []⟩ "up * --up".toList ≠ [] := by decide

/-- Half of the rate of errors of each job, with a negative sign. -/
def halvedErrors : Query 0 :=
  let errors : Selector :=
    ⟨⟨"http_requests_total".toList, by decide, by decide⟩,
      some ⟨⟨⟨"code".toList, by decide⟩, Operator.matchers[2], by decide,
        [.plain '5' (by decide) (by decide), .plain '.' (by decide) (by decide)]⟩, []⟩⟩
  let minutes : Amount := ⟨⟨['5'], by decide, by decide⟩, TimeUnit.all[2], by decide⟩
  let range : Range := .plain ⟨[minutes], List.cons_ne_nil _ _⟩
  let rate : Part .operand := .rangeCall ⟨QueryFunction.all[0], by decide, by decide⟩ errors range
  let jobs : Clause := ⟨Operator.groupings[0], by decide, ⟨⟨"job".toList, by decide⟩, []⟩⟩
  let sum : Part .operand :=
    .aggregateBy ⟨Operator.aggregations[0], by decide⟩ jobs (.last (.argument (.operand rate)))
  let two : Part .operand := .number (.integer ⟨['2'], by decide, by decide⟩)
  .binary (.operand sum) ⟨Operator.binaries[3], by decide⟩ (.signed .minus (.operand two))
    (Nat.le_refl 1)

theorem validate_halvedErrors :
    halvedErrors.text =
        "sum by (job) (rate(http_requests_total\x7bcode=~\"5.\"\x7d[5m])) / -2".toList ∧
      validate Vocabulary.builtin halvedErrors.text = [] := by
  refine ⟨by decide, validate_text_eq_nil Vocabulary.builtin halvedErrors ?_⟩
  exact ⟨"http_requests_total", by decide, by decide⟩

end Grammar

end PromqlAssist
