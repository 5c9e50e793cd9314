/-!
# Functions

The functions of the query language, each with the snippet that inserts a call of it.
-/

namespace PromqlAssist

inductive FunctionKind where
  /-- Takes a range vector. -/
  | rangeVector
  /-- Takes instant vectors and scalars. -/
  | utility
deriving DecidableEq, Repr

def FunctionKind.name : FunctionKind → String
  | .rangeVector => "range-vector"
  | .utility => "utility"

/-- A function of the query language. -/
structure QueryFunction where
  name : String
  description : String
  snippet : String
  kind : FunctionKind
deriving DecidableEq, Repr

namespace QueryFunction

/-- Every function. -/
def all : List QueryFunction :=
  [⟨"rate",
    "Per-second average rate of increase of a counter over the range.",
    "rate($\x7b1:metric\x7d[$\x7b2:5m\x7d])", .rangeVector⟩,
   ⟨"irate",
    "Per-second instant rate based on the last two samples in the range.",
    "irate($\x7b1:metric\x7d[$\x7b2:5m\x7d])", .rangeVector⟩,
   ⟨"increase",
    "Increase of a counter over the range.",
    "increase($\x7b1:metric\x7d[$\x7b2:1h\x7d])", .rangeVector⟩,
   ⟨"delta",
    "Difference between first and last value of a gauge over the range.",
    "delta($\x7b1:metric\x7d[$\x7b2:1h\x7d])", .rangeVector⟩,
   ⟨"idelta",
    "Difference between the last two samples of a gauge.",
    "idelta($\x7b1:metric\x7d[$\x7b2:5m\x7d])", .rangeVector⟩,
   ⟨"deriv",
    "Per-second derivative of a gauge using simple linear regression.",
    "deriv($\x7b1:metric\x7d[$\x7b2:5m\x7d])", .rangeVector⟩,
   ⟨"predict_linear",
    "Predict the value of a gauge t seconds from now.",
    "predict_linear($\x7b1:metric\x7d[$\x7b2:1h\x7d], $\x7b3:3600\x7d)", .rangeVector⟩,
   ⟨"resets",
    "Number of counter resets within the range.",
    "resets($\x7b1:metric\x7d[$\x7b2:1h\x7d])", .rangeVector⟩,
   ⟨"changes",
    "Number of times the value changed within the range.",
    "changes($\x7b1:metric\x7d[$\x7b2:1h\x7d])", .rangeVector⟩,
   ⟨"avg_over_time",
    "Average value of all points in the range.",
    "avg_over_time($\x7b1:metric\x7d[$\x7b2:5m\x7d])", .rangeVector⟩,
   ⟨"min_over_time",
    "Minimum value of all points in the range.",
    "min_over_time($\x7b1:metric\x7d[$\x7b2:5m\x7d])", .rangeVector⟩,
   ⟨"max_over_time",
    "Maximum value of all points in the range.",
    "max_over_time($\x7b1:metric\x7d[$\x7b2:5m\x7d])", .rangeVector⟩,
   ⟨"sum_over_time",
    "Sum of all values in the range.",
    "sum_over_time($\x7b1:metric\x7d[$\x7b2:5m\x7d])", .rangeVector⟩,
   ⟨"count_over_time",
    "Count of all values in the range.",
    "count_over_time($\x7b1:metric\x7d[$\x7b2:5m\x7d])", .rangeVector⟩,
   ⟨"quantile_over_time",
    "φ-quantile of the values in the range.",
    "quantile_over_time($\x7b1:0.95\x7d, $\x7b2:metric\x7d[$\x7b3:5m\x7d])", .rangeVector⟩,
   ⟨"last_over_time",
    "Most recent point value in the range.",
    "last_over_time($\x7b1:metric\x7d[$\x7b2:5m\x7d])", .rangeVector⟩,
   ⟨"histogram_quantile",
    "φ-quantile from the buckets of a histogram.\n\nhistogram_quantile(0.95, sum(rate(x_bucket[5m])) by (le))",
    "histogram_quantile($\x7b1:0.95\x7d, $\x7b2:expr\x7d)", .utility⟩,
   ⟨"abs",
    "Absolute value of all sample values.",
    "abs($\x7b1:expr\x7d)", .utility⟩,
   ⟨"absent",
    "1-element vector if the input vector has no elements.",
    "absent($\x7b1:expr\x7d)", .utility⟩,
   ⟨"ceil",
    "Round sample values up to the nearest integer.",
    "ceil($\x7b1:expr\x7d)", .utility⟩,
   ⟨"floor",
    "Round sample values down to the nearest integer.",
    "floor($\x7b1:expr\x7d)", .utility⟩,
   ⟨"round",
    "Round sample values to the nearest multiple of to_nearest.",
    "round($\x7b1:expr\x7d)", .utility⟩,
   ⟨"clamp_max",
    "Clamp sample values to an upper limit.",
    "clamp_max($\x7b1:expr\x7d, $\x7b2:max\x7d)", .utility⟩,
   ⟨"clamp_min",
    "Clamp sample values to a lower limit.",
    "clamp_min($\x7b1:expr\x7d, $\x7b2:min\x7d)", .utility⟩,
   ⟨"label_replace",
    "Write a regex-derived value into a destination label.\n\nlabel_replace(up, \"host\", \"$1\", \"instance\", \"(.*):.*\")",
    "label_replace($\x7b1:expr\x7d, \"$\x7b2:dst\x7d\", \"$\x7b3:replacement\x7d\", \"$\x7b4:src\x7d\", \"$\x7b5:regex\x7d\")", .utility⟩,
   ⟨"label_join",
    "Join the values of source labels into a destination label.",
    "label_join($\x7b1:expr\x7d, \"$\x7b2:dst\x7d\", \"$\x7b3:,\x7d\", \"$\x7b4:src\x7d\")", .utility⟩,
   ⟨"sort",
    "Sort elements by sample value, ascending.",
    "sort($\x7b1:expr\x7d)", .utility⟩,
   ⟨"sort_desc",
    "Sort elements by sample value, descending.",
    "sort_desc($\x7b1:expr\x7d)", .utility⟩,
   ⟨"scalar",
    "Convert a single-element vector to a scalar.",
    "scalar($\x7b1:expr\x7d)", .utility⟩,
   ⟨"vector",
    "Convert a scalar to a vector with no labels.",
    "vector($\x7b1:0\x7d)", .utility⟩,
   ⟨"time",
    "Seconds since the epoch at evaluation time.",
    "time()", .utility⟩,
   ⟨"timestamp",
    "Timestamp of each sample.",
    "timestamp($\x7b1:expr\x7d)", .utility⟩]

def ofKind (kind : FunctionKind) : List QueryFunction :=
  all.filter fun f => f.kind = kind

def find? (name : String) : Option QueryFunction :=
  all.find? fun f => f.name = name

end QueryFunction

end PromqlAssist
