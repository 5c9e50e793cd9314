import PromqlAssist.Text.Basic

/-!
# Operators

The operators of the query language with their documentation.
-/

namespace PromqlAssist

/-- An operator and what it does. -/
structure Operator where
  token : String
  description : String
deriving DecidableEq, Repr

inductive BinaryCategory where
  | arithmetic
  | comparison
  | set
deriving DecidableEq, Repr

namespace BinaryCategory

def name : BinaryCategory → String
  | .arithmetic => "arithmetic"
  | .comparison => "comparison"
  | .set => "set"

/-- Set operators only make sense between two instant vectors. -/
def vectorOnly (c : BinaryCategory) : Bool :=
  c = .set

end BinaryCategory

/-- A binary operator and its category. -/
structure BinaryOperator extends Operator where
  category : BinaryCategory
deriving DecidableEq, Repr

namespace Operator

/-- Aggregation operators. All take a parenthesised argument. -/
def aggregations : List Operator :=
  [⟨"sum", "Sum over dimensions.\n\nsum(rate(http_requests_total[5m])) by (job)"⟩,
   ⟨"min", "Minimum over dimensions."⟩,
   ⟨"max", "Maximum over dimensions."⟩,
   ⟨"avg", "Average over dimensions."⟩,
   ⟨"group", "All values in the resulting vector are 1."⟩,
   ⟨"stddev", "Population standard deviation over dimensions."⟩,
   ⟨"stdvar", "Population standard variance over dimensions."⟩,
   ⟨"count", "Count number of elements in the vector."⟩,
   ⟨"count_values",
    "Count number of elements with the same value.\n\ncount_values(\"version\", build_version)"⟩,
   ⟨"bottomk", "Smallest k elements by sample value.\n\nbottomk(3, up)"⟩,
   ⟨"topk",
    "Largest k elements by sample value.\n\ntopk(5, rate(http_requests_total[5m]))"⟩,
   ⟨"quantile",
    "Calculate φ-quantile (0 ≤ φ ≤ 1) over dimensions.\n\nquantile(0.9, rate(http_requests_total[5m]))"⟩]

/-- Grouping clauses. All take a parenthesised list of labels. -/
def groupings : List Operator :=
  [⟨"by", "Keep only the listed labels when aggregating."⟩,
   ⟨"without", "Drop the listed labels when aggregating."⟩]

/-- Binary operators. -/
def binaries : List BinaryOperator :=
  [⟨⟨"+", "Addition"⟩, .arithmetic⟩,
   ⟨⟨"-", "Subtraction"⟩, .arithmetic⟩,
   ⟨⟨"*", "Multiplication"⟩, .arithmetic⟩,
   ⟨⟨"/", "Division"⟩, .arithmetic⟩,
   ⟨⟨"%", "Modulo"⟩, .arithmetic⟩,
   ⟨⟨"^", "Power"⟩, .arithmetic⟩,
   ⟨⟨"==", "Equal"⟩, .comparison⟩,
   ⟨⟨"!=", "Not equal"⟩, .comparison⟩,
   ⟨⟨">", "Greater than"⟩, .comparison⟩,
   ⟨⟨"<", "Less than"⟩, .comparison⟩,
   ⟨⟨">=", "Greater than or equal"⟩, .comparison⟩,
   ⟨⟨"<=", "Less than or equal"⟩, .comparison⟩,
   ⟨⟨"and", "Intersection of two vectors"⟩, .set⟩,
   ⟨⟨"or", "Union of two vectors"⟩, .set⟩,
   ⟨⟨"unless", "Complement of two vectors"⟩, .set⟩]

/-- Comparisons of a label with a string. -/
def matchers : List Operator :=
  [⟨"=", "Label equals the string"⟩,
   ⟨"!=", "Label differs from the string"⟩,
   ⟨"=~", "Label matches the regex"⟩,
   ⟨"!~", "Label does not match the regex"⟩]

/-- Words that modify a binary operator or a selector. -/
def modifiers : List Operator :=
  [⟨"bool", "Return 0/1 instead of filtering on comparison"⟩,
   ⟨"offset", "Shift the evaluation time back by a duration"⟩,
   ⟨"on", "Match vectors only on the listed labels"⟩,
   ⟨"ignoring", "Ignore the listed labels when matching vectors"⟩,
   ⟨"group_left", "Many-to-one matching, left side has higher cardinality"⟩,
   ⟨"group_right", "One-to-many matching, right side has higher cardinality"⟩]

/-- The keywords of the aggregation operators. -/
def aggregationNames : List String :=
  aggregations.map (·.token)

/-- Whether a word is an aggregation keyword. -/
def isAggregation (word : Text) : Bool :=
  aggregationNames.any fun name => name.toList = word

end Operator

end PromqlAssist
