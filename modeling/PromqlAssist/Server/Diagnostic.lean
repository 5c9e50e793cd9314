import PromqlAssist.Format.Json.Basic
import PromqlAssist.Marker

/-!
# Diagnostics

A diagnostic is a marker in the terms of the language server protocol: lines and columns count from
zero, and the severity is a number.
-/

namespace PromqlAssist

namespace Position

def toJson (p : Position) : Json :=
  Json.object [("line", .ofNat p.line), ("character", .ofNat p.column)]

end Position

/-- A stretch of text between two positions. -/
structure PositionRange where
  start : Position
  stop : Position
deriving DecidableEq, Repr

namespace PositionRange

/-- The positions of the ends of a span. -/
def ofSpan (text : Text) (s : Span) : PositionRange :=
  ⟨text.positionOf s.start, text.positionOf s.stop⟩

def toJson (r : PositionRange) : Json :=
  Json.object [("start", r.start.toJson), ("end", r.stop.toJson)]

end PositionRange

structure Diagnostic where
  range : PositionRange
  severity : Severity
  code : RuleId
  source : String
  message : String
deriving DecidableEq, Repr

namespace Diagnostic

/-- A marker counted from zero. What is zero already stays. -/
def ofMarker (m : Marker) : Diagnostic where
  range := ⟨⟨m.startLine - 1, m.startColumn - 1⟩, ⟨m.endLine - 1, m.endColumn - 1⟩⟩
  severity := m.severity
  code := m.code
  source := m.source
  message := m.message

/-- The diagnostics that a surface holds after a call. -/
def collect (_held : List Diagnostic) : MarkerCall → List Diagnostic
  | .clear => []
  | .set markers => markers.map ofMarker

/-- The diagnostics of findings in a text. -/
def project (text : Text) (fs : List Finding) : List Diagnostic :=
  (MarkerCall.project Marker.defaultSource text fs).foldl collect []

def severityNumber : Severity → Nat
  | .error => 1
  | .warning => 2

def toJson (d : Diagnostic) : Json :=
  Json.object [("range", d.range.toJson), ("severity", .ofNat (severityNumber d.severity)),
    ("code", .ofString d.code.code), ("source", .ofString d.source),
    ("message", .ofString d.message)]

end Diagnostic

end PromqlAssist
