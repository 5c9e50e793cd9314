import PromqlAssist.Rule.Arithmetic
import PromqlAssist.Rule.Brackets
import PromqlAssist.Rule.Call
import PromqlAssist.Rule.LabelMatcher
import PromqlAssist.Rule.Metric
import PromqlAssist.Rule.TimeRange

/-!
# The rules in force

The rules that every query is held to, in the order of their findings.
-/

namespace PromqlAssist.Rule

def builtin : List Rule :=
  [⟨.emptyQuery, "Query is empty", none, blankQuery⟩,
   ⟨.balancedBrackets, "Unbalanced brackets", none, balancedBrackets⟩,
   ⟨.metricPresence, "Query does not reference a known metric", none, metricPresence⟩,
   ⟨.timeRange, "Invalid time range, expected a duration such as [5m] or [1h:1m]",
    some mentionsRange, timeRange⟩,
   ⟨.labelMatchers, "Invalid label matcher, expected name=\"value\"",
    some mentionsLabelBlock, labelMatchers⟩,
   ⟨.binaryExpression, "Binary operator is missing an operand",
    some mentionsArithmetic, binaryExpression⟩,
   ⟨.rateUsage, "rate() needs a range vector, e.g. rate(metric[5m])",
    some mentionsRate, rateUsage⟩,
   ⟨.aggregationExpression, "Aggregation must be followed by a parenthesised expression",
    none, aggregationExpression⟩,
   ⟨.stringLiterals, "Strings must be double-quoted and terminated", none, stringLiterals⟩]

end PromqlAssist.Rule
