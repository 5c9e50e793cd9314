import PromqlAssist.Text.Basic

/-!
# Contexts

The context of a cursor says what kind of token the text in front of it asks for.
-/

namespace PromqlAssist

/-- Whether an expression starts the query or stands inside a call. -/
inductive Scope where
  | start
  | nested
deriving DecidableEq, Repr

def Scope.name : Scope → String
  | .start => "start"
  | .nested => "nested"

/-- What is expected at a cursor. -/
inductive Context where
  /-- Inside the list of a `by` or `without` clause. -/
  | groupingLabel (clause : String)
  /-- Inside an open square bracket. -/
  | timeRange
  /-- Behind a complete label name in an open brace. -/
  | comparator (label : String)
  /-- Inside an open brace, where a label name is expected. -/
  | label (metric? : Option String)
  /-- Behind a whole aggregation. -/
  | groupingAndBinary
  /-- Right behind an aggregation keyword. -/
  | groupingOperator (aggregation : String)
  /-- Behind a whole vector expression. -/
  | binaryOperator
  /-- Where an expression starts. -/
  | functionOrMetric (scope : Scope)
  /-- Nothing in particular. -/
  | any
deriving DecidableEq, Repr

namespace Context

/-- The name of the kind of a context. -/
def kind : Context → String
  | .groupingLabel _ => "grouping-label"
  | .timeRange => "time-range"
  | .comparator _ => "comparator"
  | .label _ => "label"
  | .groupingAndBinary => "grouping-and-binary"
  | .groupingOperator _ => "grouping-operator"
  | .binaryOperator => "binary-operator"
  | .functionOrMetric _ => "function-or-metric"
  | .any => "any"

/-- The keyword, label or metric that refines a context. -/
def refinement? : Context → Option String
  | .groupingLabel clause => some clause
  | .comparator name => some name
  | .label metric? => metric?
  | .groupingOperator aggregation => some aggregation
  | _ => none

/-- The kind, with the refinement in parentheses. -/
def describe (c : Context) : String :=
  match c.refinement? with
  | some tag => c.kind ++ "(" ++ tag ++ ")"
  | none => c.kind

end Context

end PromqlAssist
