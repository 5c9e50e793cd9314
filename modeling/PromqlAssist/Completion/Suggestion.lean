import PromqlAssist.Completion.Proposal
import PromqlAssist.Context.Basic
import PromqlAssist.Vocabulary.Basic

/-!
# Suggestions

The proposals that are valid in a context, each for the same span.
-/

namespace PromqlAssist

namespace Suggestion

/-- A duration in words: `5 minutes`, `1 hour`. -/
def describeDuration? (literal : String) : Option String :=
  let amount := literal.toList.takeWhile Char.isDigit
  let unit := String.ofList (literal.toList.dropWhile Char.isDigit)
  if amount.isEmpty || unit.isEmpty then none
  else
    (TimeUnit.describe? unit).map fun plural =>
      if amount = ['1'] then
        "1 " ++ String.ofList (if plural.toList.getLast? = some 's' then plural.toList.dropLast
          else plural.toList)
      else String.ofList amount ++ " " ++ plural

def durations (span : Span) : List Proposal :=
  rangePresets.map fun preset =>
    let p := Proposal.plain preset .duration span
    match describeDuration? preset with
    | some description => p.withDetail description
    | none => p

def labels (names : List String) (span : Span) : List Proposal :=
  names.map fun name => (Proposal.plain name .label span).withDetail "label"

def metrics (names : List String) (span : Span) : List Proposal :=
  names.map fun name => (Proposal.plain name .metric span).withDetail "metric"

def matchers (span : Span) : List Proposal :=
  Operator.matchers.map fun op =>
    ((Proposal.plain op.token .matcher span).withDetail "label matcher").withDocumentation
      op.description

/-- A snippet of one placeholder between two fixed parts. -/
def oneSlot (head slot tail : String) : Text :=
  (head ++ "$\x7b1:" ++ slot ++ "\x7d" ++ tail).toList

def groupings (span : Span) : List Proposal :=
  Operator.groupings.map fun op =>
    (((Proposal.plain op.token .grouping span).withSnippet
      (oneSlot (op.token ++ " (") "label" ")")).withDetail "grouping").withDocumentation
        op.description

def binaryOperators (span : Span) : List Proposal :=
  Operator.binaries.map fun op =>
    let detail := op.category.name ++ " operator"
    ((Proposal.plain op.token .binaryOperator span).withDetail
      (if op.category.vectorOnly then detail ++ " (vectors only)" else detail)).withDocumentation
        op.description

def modifiers (span : Span) : List Proposal :=
  Operator.modifiers.map fun op =>
    ((Proposal.plain op.token .modifier span).withDetail "modifier").withDocumentation
      op.description

/-- Whole queries, each shown with its defaults. -/
def templates (span : Span) : List Proposal :=
  Template.builtin.map fun t =>
    (((Proposal.plain t.name .template span).withSnippet t.snippet).withDetail
      t.description).withDocumentation
        ("```promql\n" ++ String.ofList t.rendered ++ "\n```")

def aggregations (span : Span) : List Proposal :=
  Operator.aggregations.map fun op =>
    (((Proposal.plain op.token .aggregation span).withSnippet
      (oneSlot (op.token ++ "(") "expr" ")")).withDetail "aggregation").withDocumentation
        op.description

def functions (span : Span) : List Proposal :=
  QueryFunction.all.map fun f =>
    let detail := match f.kind with
      | .rangeVector => "range-vector function"
      | .utility => "function"
    (((Proposal.plain f.name .function span).withSnippet f.snippet.toList).withDetail
      detail).withDocumentation f.description

/-- The proposals of a context before they are ranked. Templates are whole queries and are only
offered where no call is open. -/
def candidates (vocabulary : Vocabulary) (span : Span) : Context → List Proposal
  | .groupingLabel _ => labels vocabulary.allLabels span
  | .timeRange => durations span
  | .comparator _ => matchers span
  | .label metric? =>
    labels ((metric?.bind vocabulary.labelsOf?).getD vocabulary.allLabels) span
  | .groupingAndBinary => groupings span ++ binaryOperators span
  | .groupingOperator _ => groupings span
  | .binaryOperator => binaryOperators span ++ modifiers span
  | .functionOrMetric scope =>
    (if scope = .start then templates span else []) ++ aggregations span ++ functions span
      ++ metrics vocabulary.metrics span
  | .any => []

end Suggestion

/-- The ranked proposals of a context. -/
def suggest (vocabulary : Vocabulary) (context : Context) (span : Span) : List Proposal :=
  Proposal.ranked (Suggestion.candidates vocabulary span context)

end PromqlAssist
