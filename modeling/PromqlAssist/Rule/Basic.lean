import PromqlAssist.Format.Quoted
import PromqlAssist.Text.Span
import PromqlAssist.Vocabulary.Basic

/-!
# Rules

A rule looks at a whole query and either accepts it or names the span of its first defect. A gate
keeps a rule from queries it has nothing to say about.
-/

namespace PromqlAssist

/-- The name of a rule. -/
inductive RuleId where
  | emptyQuery
  | balancedBrackets
  | metricPresence
  | timeRange
  | labelMatchers
  | binaryExpression
  | rateUsage
  | aggregationExpression
  | stringLiterals
deriving DecidableEq, Repr

namespace RuleId

def all : List RuleId :=
  [.emptyQuery, .balancedBrackets, .metricPresence, .timeRange, .labelMatchers, .binaryExpression,
    .rateUsage, .aggregationExpression, .stringLiterals]

/-- The code under which a rule is reported. -/
def code : RuleId → String
  | .emptyQuery => "empty-query"
  | .balancedBrackets => "balanced-brackets"
  | .metricPresence => "metric-presence"
  | .timeRange => "time-range"
  | .labelMatchers => "label-matchers"
  | .binaryExpression => "binary-expression"
  | .rateUsage => "rate-usage"
  | .aggregationExpression => "aggregation-expression"
  | .stringLiterals => "string-literals"

def ofCode? (code : String) : Option RuleId :=
  all.find? fun id => id.code = code

/-- The name of a rule in a description of it. -/
def title : RuleId → String
  | .emptyQuery => "EmptyQuery"
  | .balancedBrackets => "BalancedBrackets"
  | .metricPresence => "MetricPresence"
  | .timeRange => "TimeRange"
  | .labelMatchers => "LabelMatchers"
  | .binaryExpression => "BinaryExpression"
  | .rateUsage => "RateUsage"
  | .aggregationExpression => "AggregationExpression"
  | .stringLiterals => "StringLiterals"

end RuleId

/-- A check of a whole query. -/
structure Rule where
  id : RuleId
  message : String
  /-- The rule is left out for queries that the gate refuses. -/
  gate? : Option (Text → Bool)
  /-- The span of the defect, if the query has it. -/
  check : Vocabulary → Text → Option Span

/-- A short description of a rule. -/
def Rule.describe (r : Rule) : String :=
  "Rule \x7b id: " ++ r.id.title ++ ", message: " ++ Quoted.quote r.message ++ ", gated: "
    ++ (if r.gate?.isSome then "true" else "false") ++ " \x7d"

/-- A defect of a query. -/
structure Finding where
  rule : RuleId
  message : String
  span : Span
deriving DecidableEq, Repr

/-- The finding on one line. -/
def Finding.line (f : Finding) : String :=
  toString f.span.start ++ ".." ++ toString f.span.stop ++ ": " ++ f.message
    ++ " [" ++ f.rule.code ++ "]"

end PromqlAssist
