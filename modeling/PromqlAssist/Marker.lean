import PromqlAssist.Text.Position
import PromqlAssist.Validation

/-!
# Markers

A marker shows a finding in an editor. Its lines and columns count from one, the columns in UTF-16
code units.
-/

namespace PromqlAssist

inductive Severity where
  | error
  | warning
deriving DecidableEq, Repr

def Severity.name : Severity → String
  | .error => "error"
  | .warning => "warning"

/-- The search for known metrics is a guess and only warns. -/
def RuleId.severity : RuleId → Severity
  | .metricPresence => .warning
  | _ => .error

/-- A finding as an editor shows it. -/
structure Marker where
  message : String
  severity : Severity
  source : String
  code : RuleId
  startLine : Nat
  startColumn : Nat
  endLine : Nat
  endColumn : Nat
deriving DecidableEq, Repr

namespace Marker

/-- The producer that is named next to each marker if nothing else is said. -/
def defaultSource : String :=
  "promql"

/-- The marker of a finding in `text`. -/
def ofFinding (source : String) (text : Text) (f : Finding) : Marker :=
  let start := text.positionOf f.span.start
  let stop := text.positionOf f.span.stop
  { message := f.message
    severity := f.rule.severity
    source := source
    code := f.rule
    startLine := start.line + 1
    startColumn := start.column + 1
    endLine := stop.line + 1
    endColumn := stop.column + 1 }

def ofFindings (source : String) (text : Text) (fs : List Finding) : List Marker :=
  fs.map (ofFinding source text)

end Marker

/-- What a surface that shows markers is told to do. -/
inductive MarkerCall where
  | clear
  | set (markers : List Marker)
deriving DecidableEq, Repr

namespace MarkerCall

/-- The calls that replace what a surface shows by the markers of new findings. It is cleared first,
so that no marker outlives its finding. -/
def project (source : String) (text : Text) (fs : List Finding) : List MarkerCall :=
  [.clear, .set (Marker.ofFindings source text fs)]

/-- What a surface shows after a call. -/
def applyTo (_shown : List Marker) : MarkerCall → List Marker
  | .clear => []
  | .set markers => markers

end MarkerCall

end PromqlAssist
