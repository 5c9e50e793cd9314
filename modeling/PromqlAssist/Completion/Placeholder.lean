import PromqlAssist.Completion.Suggestion
import PromqlAssist.Template.Pattern

/-!
# Placeholders

When the cursor touches a value of a filled-in template on its line, the values that suit this
placeholder are offered in place of the general ones.
-/

namespace PromqlAssist

/-- A placeholder of a template with the span of its value in the text. -/
structure Placeholder where
  template : Template
  parameter : Parameter
  span : Span
deriving DecidableEq, Repr

namespace Placeholder

/-- The first parameter of a template whose captured value the cursor touches. -/
def ofCaptures? (t : Template) (captures : List PatternPart.Capture) (cursor : Nat) :
    Option Placeholder :=
  t.parameters.findSome? fun p =>
    (captures.find? fun c => c.name = p.name.toList).bind fun c =>
      if c.span.touches cursor then some ⟨t, p, c.span⟩ else none

/-- The placeholder that the cursor touches. Earlier templates win over later ones, and matches
further left over those to their right. -/
def find? (t : Text) (cursor : Nat) : Option Placeholder :=
  let line := t.lineBounds cursor
  Template.builtin.findSome? fun template =>
    (PatternPart.matchesFrom template.pattern line.start 0 (line.slice t)).findSome? fun captures =>
      ofCaptures? template captures cursor

/-- Offered for a quantile. -/
def quantiles : List String :=
  ["0.5", "0.9", "0.95", "0.99"]

/-- Offered for a count. -/
def counts : List String :=
  ["3", "5", "10", "20"]

def values (names : List String) (span : Span) : List Proposal :=
  names.map fun name => Proposal.plain name .value span

/-- The metrics that start with the first word of a default, or every metric if none does. -/
def metricFamily (vocabulary : Vocabulary) (default : String) : List String :=
  let family := default.toList.takeWhile (· ≠ '_')
  let members := vocabulary.metrics.filter fun m =>
    !family.isEmpty && (family ++ ['_']).isPrefixOf m.toList
  if members.isEmpty then vocabulary.metrics else members

/-- The labels of the default of the template's first metric, or every label. -/
def labelsFor (vocabulary : Vocabulary) (t : Template) : List String :=
  (((t.parameters.find? fun p => p.kind = .metric).bind fun p =>
    vocabulary.labelsOf? p.default)).getD vocabulary.allLabels

/-- The proposals that suit the kind of a parameter. -/
def ofKind (vocabulary : Vocabulary) (p : Placeholder) : List Proposal :=
  match p.parameter.kind with
  | .range => Suggestion.durations p.span
  | .metric => Suggestion.metrics (metricFamily vocabulary p.parameter.default) p.span
  | .labelName => Suggestion.labels (labelsFor vocabulary p.template) p.span
  | .number => values counts p.span
  | .labelValue => []

/-- The metrics of the vocabulary whose name contains a word. -/
def metricsWith (vocabulary : Vocabulary) (part : String) : List String :=
  vocabulary.metrics.filter fun m => Text.hasInfix part.toList m.toList

/-- The proposals for a placeholder. Some parameters have values of their own, the others those of
their kind. -/
def candidates (vocabulary : Vocabulary) (p : Placeholder) : List Proposal :=
  if p.template.name = "latency_quantile" && p.parameter.name = "metric" then
    Suggestion.metrics
      (vocabulary.metrics.filter fun m => "_bucket".toList.isSuffixOf m.toList) p.span
  else if p.template.name = "latency_quantile" && p.parameter.name = "quantile" then
    values quantiles p.span
  else if p.template.name = "cpu_usage" && p.parameter.name = "metric" then
    Suggestion.metrics (metricsWith vocabulary "cpu") p.span
  else if p.template.name = "memory_usage" then
    Suggestion.metrics (metricsWith vocabulary "memory") p.span
  else ofKind vocabulary p

/-- The proposals for a placeholder, each saying which placeholder it is for. -/
def proposals (vocabulary : Vocabulary) (p : Placeholder) : List Proposal :=
  (candidates vocabulary p).map fun c =>
    c.withDocumentation (p.parameter.kind.name ++ " for `" ++ p.template.name ++ "."
      ++ p.parameter.name ++ "`")

/-- The proposals for the placeholder that the cursor touches. There are none if it touches no
placeholder, or one for which nothing is known. -/
def complete? (vocabulary : Vocabulary) (t : Text) (cursor : Nat) : Option (List Proposal) :=
  (find? t cursor).bind fun p =>
    let ps := p.proposals vocabulary
    if ps.isEmpty then none else some ps

end Placeholder

end PromqlAssist
