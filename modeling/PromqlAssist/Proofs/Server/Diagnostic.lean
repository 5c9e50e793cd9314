import Mathlib.Algebra.Group.Nat.Defs
import Mathlib.Data.List.Forall2
import PromqlAssist.Proofs.Finding
import PromqlAssist.Proofs.Text.Position
import PromqlAssist.Server.Diagnostic

/-!
# Diagnostics tell the findings

A finding goes to a client as positions that were first counted from one for a marker and then from
zero again. Nothing of it is lost: the client that turns the positions back into offsets has the span
of the finding.
-/

namespace PromqlAssist

/-- Whether line and column are numbers of 32 bits, also when they are counted from one. -/
def Position.IsNarrow (p : Position) : Prop :=
  p.line + 1 < 2 ^ 32 ∧ p.column + 1 < 2 ^ 32

theorem Text.isNarrow_positionOf {t : Text} (h : t.size < 2 ^ 31) (n : Nat) :
    (t.positionOf n).IsNarrow := by
  have hline := line_positionOf_le t n
  have hcolumn := column_positionOf_le t n
  constructor <;> omega

theorem RuleId.severity_eq_warning_iff {id : RuleId} :
    id.severity = .warning ↔ id = .metricPresence := by
  cases id <;> simp [severity]

namespace Diagnostic

/-- Whether a diagnostic tells of a text what a finding does. -/
structure Tells (text : Text) (f : Finding) (d : Diagnostic) : Prop where
  code : d.code = f.rule
  message : d.message = f.message
  warns : d.severity = .warning ↔ f.rule = .metricPresence
  narrow : d.range.start.IsNarrow ∧ d.range.stop.IsNarrow
  ordered : d.range.start ≤ d.range.stop
  start : text.offsetOf d.range.start = f.span.start
  stop : text.offsetOf d.range.stop = f.span.stop

variable {text : Text} {f : Finding}

theorem project_eq (text : Text) (fs : List Finding) :
    project text fs = fs.map fun f => ofMarker (.ofFinding Marker.defaultSource text f) := by
  simp [project, MarkerCall.project, collect, Marker.ofFindings]

theorem tells_ofMarker (hsize : text.size < 2 ^ 31) (hfits : f.span.Fits text) (source : String) :
    Tells text f (ofMarker (.ofFinding source text f)) where
  code := rfl
  message := rfl
  warns := RuleId.severity_eq_warning_iff
  narrow := ⟨Text.isNarrow_positionOf hsize _, Text.isNarrow_positionOf hsize _⟩
  ordered := Text.positionOf_mono hfits.2.1 hfits.2.2 hfits.1
  start := Text.offsetOf_positionOf hfits.2.1
  stop := Text.offsetOf_positionOf hfits.2.2

/-- Every finding of a text has its diagnostic, in the order of the findings. -/
theorem forall₂_tells_project (v : Vocabulary) (hsize : text.size < 2 ^ 31) :
    List.Forall₂ (Tells text) (validate v text) (project text (validate v text)) := by
  rw [project_eq, List.forall₂_map_right_iff, List.forall₂_same]
  intro f hf
  exact tells_ofMarker hsize (fits_of_mem_findings hf) Marker.defaultSource

/-- A sign and a keyword without what belongs to them, on two lines, both behind a character of two
code units. -/
theorem tells_project_twoLines :
    let text : Text := "up\x7bjob=\"😀\"\x7d +\n  \"😀\" + sum".toList
    let found := validate ⟨["up"], []⟩ text
    text.size < 2 ^ 31 ∧ List.Forall₂ (Tells text) found (project text found) ∧
      (project text found).map (·.range) = [⟨⟨0, 13⟩, ⟨0, 14⟩⟩, ⟨⟨1, 9⟩, ⟨1, 12⟩⟩] :=
  by
  dsimp only
  rw [String.toList_ofList]
  exact ⟨by decide, forall₂_tells_project ⟨["up"], []⟩ (by decide), by decide⟩

end Diagnostic

end PromqlAssist
