import PromqlAssist.Completion.Complete
import PromqlAssist.Marker
import PromqlAssist.Session.Timer

/-!
# Editing sessions

A session follows one query in an editor. An edit starts the validation delay; the findings of a
validation wait out a second delay before they are shown, so that markers do not flicker while a
bracket is half typed. An edit in between discards what waits. A query is only run when it has no
finding and the completion menu is closed.
-/

namespace PromqlAssist

/-- Delays in milliseconds, and the most proposals that are offered. -/
structure SessionOptions where
  validationDelay : Nat
  projectionDelay : Nat
  limit : Nat
deriving DecidableEq, Repr

def SessionOptions.default : SessionOptions :=
  ⟨300, 150, Completion.defaultLimit⟩

/-- Findings of a text that wait to be shown. -/
structure Projection where
  text : Text
  findings : List Finding
deriving DecidableEq, Repr

/-- Why a query is not run. -/
inductive RunRefusal where
  | menuOpen
  | hasFindings (count : Nat)
deriving DecidableEq, Repr

def RunRefusal.message : RunRefusal → String
  | .menuOpen => "completion menu is open"
  | .hasFindings count => "query has " ++ toString count ++ " validation finding(s)"

structure Session where
  vocabulary : Vocabulary
  limit : Nat
  validation : Timer Text
  projection : Timer Projection
  /-- The findings of the last validation whose delay has passed, or of the last run refused. -/
  findings : List Finding

namespace Session

def start (vocabulary : Vocabulary) (options : SessionOptions) : Session where
  vocabulary := vocabulary
  limit := options.limit
  validation := .ofDelay options.validationDelay
  projection := .ofDelay options.projectionDelay
  findings := []

/-- Whether nothing waits. -/
def isIdle (s : Session) : Bool :=
  s.validation.pending?.isNone && s.projection.pending?.isNone

/-- Takes note of an edit that leaves `text` in the editor. Returns the token of its validation. -/
def edit (s : Session) (text : Text) (now : Nat) : Nat × Session :=
  let (token, validation) := s.validation.schedule now text
  (token, { s with validation := validation, projection := s.projection.cancelAll })

/-- Validates the text that is due, if one is. -/
def validateDue (s : Session) (now : Nat) : Session :=
  match s.validation.fire now with
  | (none, _) => s
  | (some (_, text), validation) =>
    let found := validate s.vocabulary text
    { s with
      validation := validation
      findings := found
      projection := (s.projection.schedule now ⟨text, found⟩).2 }

/-- Lets time pass. Returns the calls that show the findings that are due, if any are. -/
def tick (s : Session) (now : Nat) : Option (List MarkerCall) × Session :=
  let s := s.validateDue now
  match s.projection.fire now with
  | (none, _) => (none, s)
  | (some (_, shown), projection) =>
    (some (MarkerCall.project Marker.defaultSource shown.text shown.findings),
      { s with projection := projection })

def complete (s : Session) (text : Text) (cursor : Nat) : List Proposal :=
  PromqlAssist.complete s.vocabulary s.limit text cursor

/-- Decides whether the query may be run. It is validated afresh, since what waits may be about an
older text. -/
def run (s : Session) (text : Text) (menuOpen : Bool) : Except RunRefusal Unit × Session :=
  if menuOpen then (.error .menuOpen, s)
  else
    match validate s.vocabulary text with
    | [] => (.ok (), s)
    | found => (.error (.hasFindings found.length), { s with findings := found })

end Session

end PromqlAssist
