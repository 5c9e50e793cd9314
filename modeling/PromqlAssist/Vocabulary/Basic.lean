import PromqlAssist.Template.Builtin
import PromqlAssist.Vocabulary.Duration
import PromqlAssist.Vocabulary.Function
import PromqlAssist.Vocabulary.Operator

/-!
# The vocabulary of metrics and labels

Operators, functions, templates and units are fixed. The metrics and their labels start from a fixed
list and are extended by declarations, which only ever add to them.
-/

namespace PromqlAssist

/-- The list with `x` at its end, unless it is already there. -/
def insertNew (x : String) (xs : List String) : List String :=
  if x ∈ xs then xs else xs ++ [x]

/-- A strictly increasing list with `x` put in its place. -/
def insertSorted (x : String) : List String → List String
  | [] => [x]
  | y :: ys => if x < y then x :: y :: ys else if x = y then y :: ys else y :: insertSorted x ys

/-- A metric with its labels, or with none declared. -/
structure Declaration where
  metric : String
  labels? : Option (List String)
deriving DecidableEq, Repr

/-- The known metrics and the labels declared for them, both in the order of their declaration. A
metric without an entry in `labels` takes any label. -/
structure Vocabulary where
  metrics : List String
  labels : List (String × List String)
deriving DecidableEq, Repr

namespace Vocabulary

def empty : Vocabulary :=
  ⟨[], []⟩

/-- Adds labels to those of a metric. -/
def addLabels (metric : String) (new : List String) :
    List (String × List String) → List (String × List String)
  | [] => [(metric, new.foldl (fun ls l => insertNew l ls) [])]
  | (m, ls) :: rest =>
    if m = metric then (m, new.foldl (fun ls l => insertNew l ls) ls) :: rest
    else (m, ls) :: addLabels metric new rest

/-- The vocabulary with one more declaration. Labels of a metric that is declared twice are merged,
and a declaration without labels keeps those that are there. -/
def declare (v : Vocabulary) (d : Declaration) : Vocabulary where
  metrics := insertNew d.metric v.metrics
  labels := match d.labels? with
    | none => v.labels
    | some labels => addLabels d.metric labels v.labels

/-- The metrics that are always known, with their labels. The metric `up` comes last because a label
block takes the first metric that occurs anywhere in the text, and `up` occurs in many words. -/
def builtinMetrics : List (String × List String) :=
  [("http_requests_total", ["code", "handler", "instance", "job", "method", "status"]),
   ("http_request_duration_seconds_bucket", ["handler", "instance", "job", "le", "method"]),
   ("http_request_duration_seconds_sum", ["handler", "instance", "job", "method"]),
   ("http_request_duration_seconds_count", ["handler", "instance", "job", "method"]),
   ("node_cpu_seconds_total", ["cpu", "instance", "job", "mode"]),
   ("node_memory_MemAvailable_bytes", ["instance", "job"]),
   ("node_memory_MemTotal_bytes", ["instance", "job"]),
   ("node_filesystem_avail_bytes", ["device", "fstype", "instance", "job", "mountpoint"]),
   ("node_network_receive_bytes_total", ["device", "instance", "job"]),
   ("process_cpu_seconds_total", ["instance", "job"]),
   ("process_resident_memory_bytes", ["instance", "job"]),
   ("container_cpu_usage_seconds_total", ["container", "namespace", "node", "pod"]),
   ("container_memory_usage_bytes", ["container", "namespace", "node", "pod"]),
   ("kube_pod_status_phase", ["namespace", "phase", "pod"]),
   ("up", ["instance", "job"])]

/-- The vocabulary without extensions. -/
def builtin : Vocabulary :=
  builtinMetrics.foldl (fun v m => v.declare ⟨m.1, some m.2⟩) empty

/-- The builtin vocabulary with declarations made in order. -/
def extended (ds : List Declaration) : Vocabulary :=
  ds.foldl declare builtin

def isMetric (v : Vocabulary) (name : String) : Bool :=
  name ∈ v.metrics

/-- The labels of a metric, or nothing if it takes any. -/
def labelsOf? (v : Vocabulary) (metric : String) : Option (List String) :=
  v.labels.lookup metric

/-- Every label of every metric, in strictly increasing order. -/
def allLabels (v : Vocabulary) : List String :=
  (v.labels.flatMap (·.2)).foldl (fun ls l => insertSorted l ls) []

end Vocabulary

end PromqlAssist
