import PromqlAssist.Template.Snippet
import PromqlAssist.Text.Span

/-!
# Proposals

A proposal is a candidate insertion: a span of the current text and what to put in its place.
-/

namespace PromqlAssist

/-- What kind of thing a proposal inserts. -/
inductive Category where
  | template
  | aggregation
  | grouping
  | binaryOperator
  | matcher
  | modifier
  | function
  | metric
  | label
  | duration
  | value
deriving DecidableEq, Repr

namespace Category

def all : List Category :=
  [.template, .aggregation, .grouping, .binaryOperator, .matcher, .modifier, .function, .metric,
    .label, .duration, .value]

def name : Category → String
  | .template => "template"
  | .aggregation => "aggregation"
  | .grouping => "grouping"
  | .binaryOperator => "binary-operator"
  | .matcher => "matcher"
  | .modifier => "modifier"
  | .function => "function"
  | .metric => "metric"
  | .label => "label"
  | .duration => "duration"
  | .value => "value"

def ofName? (name : String) : Option Category :=
  all.find? fun c => c.name = name

/-- Templates rank before all else. -/
def rank : Category → Nat
  | .template => 0
  | _ => 1

end Category

/-- A candidate insertion. -/
structure Proposal where
  label : String
  category : Category
  insertText : Text
  /-- Whether the inserted text is a snippet with tab stops. -/
  isSnippet : Bool
  /-- What the proposal replaces. -/
  span : Span
  detail? : Option String
  documentation? : Option String
deriving DecidableEq, Repr

namespace Proposal

/-- A proposal that inserts its own label. -/
def plain (label : String) (category : Category) (span : Span) : Proposal where
  label := label
  category := category
  insertText := label.toList
  isSnippet := false
  span := span
  detail? := none
  documentation? := none

def withSnippet (p : Proposal) (snippet : Text) : Proposal :=
  { p with insertText := snippet, isSnippet := true }

def withDetail (p : Proposal) (detail : String) : Proposal :=
  { p with detail? := some detail }

def withDocumentation (p : Proposal) (documentation : String) : Proposal :=
  { p with documentation? := some documentation }

/-- The inserted text for an editor that knows no snippets. -/
def plainText (p : Proposal) : Text :=
  if p.isSnippet then Snippet.expand p.insertText else p.insertText

/-- Moves proposals of rank zero to the front and keeps the order otherwise. -/
def ranked (ps : List Proposal) : List Proposal :=
  ps.filter (·.category.rank = 0) ++ ps.filter (·.category.rank ≠ 0)

end Proposal

end PromqlAssist
