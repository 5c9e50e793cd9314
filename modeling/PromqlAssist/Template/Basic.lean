import PromqlAssist.Template.Snippet

/-!
# Query templates

A template is a named skeleton whose markers name parameters. Filled with the parameters' defaults
it is a whole query.
-/

namespace PromqlAssist

/-- What kind of value a template parameter holds. -/
inductive ParameterKind where
  | metric
  | range
  | labelName
  | labelValue
  | number
deriving DecidableEq, Repr

def ParameterKind.name : ParameterKind → String
  | .metric => "metric"
  | .range => "range"
  | .labelName => "label name"
  | .labelValue => "label value"
  | .number => "number"

/-- A named parameter of a template. -/
structure Parameter where
  name : String
  kind : ParameterKind
  default : String
  optional : Bool
deriving DecidableEq, Repr

/-- A named query with placeholders. -/
structure Template where
  name : String
  description : String
  skeleton : String
  parameters : List Parameter
deriving DecidableEq, Repr

namespace Template

def segments (t : Template) : List Segment :=
  Skeleton.segments t.skeleton.toList

def parameter? (t : Template) (name : Text) : Option Parameter :=
  t.parameters.find? fun p => p.name.toList = name

/-- The default of a parameter. A name that no parameter has stands for itself. -/
def defaultOf (t : Template) (name : Text) : Text :=
  ((t.parameter? name).map fun p => p.default.toList).getD name

/-- The skeleton with a value for every placeholder. -/
def fill (t : Template) (value : Text → Text) : Text :=
  t.segments.flatMap fun
    | .literal text => text
    | .placeholder _ name => value name

/-- The skeleton with every placeholder replaced by its default. -/
def rendered (t : Template) : Text :=
  t.fill t.defaultOf

/-- The skeleton as a snippet whose placeholders hold their defaults. -/
def snippet (t : Template) : Text :=
  t.segments.flatMap fun
    | .literal text => Snippet.escape text
    | .placeholder index name =>
      "$\x7b".toList ++ Decimal.render index ++ ':' :: Snippet.escape (t.defaultOf name) ++ ['}']

end Template

end PromqlAssist
