import PromqlAssist.Proofs.Finding
import PromqlAssist.Proofs.Offset.Arithmetic
import PromqlAssist.Proofs.Offset.Call
import PromqlAssist.Proofs.Offset.LabelMatcher
import PromqlAssist.Proofs.Offset.TimeRange

/-!
# The rules in force, by offsets

No rule goes wrong on any query, even one that its gate refuses, and what it names is a part of the
query. So moving the span of a defect into the query, as is done before it is reported, has no
effect.
-/

namespace PromqlAssist.Offset

open Text Checked

variable {v : Vocabulary} {query : Text} {r : Rule}

/-- The check of a rule in force. Four of the rules look at single characters only, and cut
nothing. -/
def check (v : Vocabulary) (query : Text) : RuleId → Checked (Option Span)
  | .emptyQuery => return Rule.blankQuery v query
  | .balancedBrackets => return Rule.balancedBrackets v query
  | .metricPresence => return Rule.metricPresence v query
  | .timeRange => timeRange query
  | .labelMatchers => labelMatchers query
  | .binaryExpression => binaryExpression query
  | .rateUsage => rateUsage query
  | .aggregationExpression => aggregationExpression query
  | .stringLiterals => return Rule.stringLiterals v query

theorem check_eq (v : Vocabulary) (query : Text) (hr : r ∈ Rule.builtin) :
    check v query r.id = .ok (r.check v query) := by
  simp only [Rule.builtin, List.mem_cons, List.not_mem_nil, or_false] at hr
  rcases hr with rfl | rfl | rfl | rfl | rfl | rfl | rfl | rfl | rfl
  · rfl
  · rfl
  · rfl
  · exact timeRange_eq v query
  · exact labelMatchers_eq v query
  · exact binaryExpression_eq v query
  · exact rateUsage_eq v query
  · exact aggregationExpression_eq v query
  · rfl

/-- A rule in force never goes wrong, names a part of the query, and is reported with the span that
it names. -/
theorem check_exact (v : Vocabulary) (query : Text) (hr : r ∈ Rule.builtin) :
    check v query r.id = .ok (r.check v query) ∧
      (∀ span, r.check v query = some span → span.CutsOut query ∧ span.stop ≤ query.size) ∧
      r.finding? v query =
        if r.admits query then (r.check v query).map fun span => ⟨r.id, r.message, span⟩
        else none := by
  have hspan : ∀ span, r.check v query = some span → span.CutsOut query :=
    fun span h => Rule.cutsOut_of_check hr h
  refine ⟨check_eq v query hr, fun span h => ?_, ?_⟩
  · exact ⟨hspan span h, (hspan span h).fits.stop_le_size⟩
  · exact Rule.finding?_of_fits fun span h => (hspan span h).fits

/-- The rule about label matchers. -/
def matcherRule : Rule :=
  ⟨.labelMatchers, "Invalid label matcher, expected name=\"value\"", some Rule.mentionsLabelBlock,
    Rule.labelMatchers⟩

/-- A block that is left out because of the call around it. Its string holds a brace and an escaped
quote, and its second entry is no matcher. -/
def exemptQuery : Text :=
  "label_replace(é\x7ba=\"\x7dé\\\"\", ü,]\x7d".toList

theorem check_exact_exemptQuery :
    matcherRule ∈ Rule.builtin ∧
      check .empty exemptQuery .labelMatchers = .ok (some ⟨28, 33⟩) ∧
      Span.CutsOut ⟨28, 33⟩ exemptQuery ∧ 33 ≤ exemptQuery.size ∧
      matcherRule.finding? .empty exemptQuery = none := by
  have hmem : matcherRule ∈ Rule.builtin := by simp [Rule.builtin, matcherRule]
  have hspan : matcherRule.check .empty exemptQuery = some ⟨28, 33⟩ := by decide +kernel
  have hgate : matcherRule.admits exemptQuery = false := by decide +kernel
  obtain ⟨hcheck, hcuts, hfinding⟩ := check_exact .empty exemptQuery hmem
  rw [hspan] at hcheck
  rw [hgate] at hfinding
  obtain ⟨hpart, hstop⟩ := hcuts ⟨28, 33⟩ hspan
  exact ⟨hmem, hcheck, hpart, hstop, hfinding⟩

end PromqlAssist.Offset
