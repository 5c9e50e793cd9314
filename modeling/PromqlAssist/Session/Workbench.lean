import PromqlAssist.Session.Basic
import PromqlAssist.Session.History

/-!
# Workbenches

A workbench is a session together with what surrounds it: the editor, the log of the queries that
were run, and their history.
-/

namespace PromqlAssist

/-- An editor: its text, its cursor, and the markers it shows. -/
structure Editor where
  text : Text
  cursor : Nat
  markers : List Marker
deriving DecidableEq, Repr

namespace Editor

def empty : Editor :=
  ⟨[], 0, []⟩

/-- Puts `new` in place of a span, and the cursor behind it. -/
def replace (e : Editor) (span : Span) (new : Text) : Editor :=
  { e with text := span.replace e.text new, cursor := span.start + new.size }

def handle (e : Editor) (call : MarkerCall) : Editor :=
  { e with markers := call.applyTo e.markers }

end Editor

structure Workbench where
  session : Session
  editor : Editor
  /-- The queries that were run, oldest first. -/
  submitted : List Text
  history : History Text

namespace Workbench

/-- What can happen at a workbench. -/
inductive Step where
  /-- The editor gets a new text and the session is not told. -/
  | show (text : Text) (cursor : Nat)
  | edit (text : Text) (cursor now : Nat)
  | tick (now : Nat)
  | complete
  /-- The first proposal of a label is inserted. -/
  | insertLabel (label : String) (now : Nat)
  | insert (proposal : Proposal) (now : Nat)
  | run (menuOpen : Bool)

/-- What a step returns. -/
inductive Answer where
  | nothing
  | token (token : Nat)
  | projected (shown : Bool)
  | proposals (ps : List Proposal)
  | noSuchProposal
  | badSpan
  | submitted (text : Text)
  | refused (why : RunRefusal)
deriving DecidableEq, Repr

/-- A step's answer with the calls that reached the editor's markers. -/
structure Outcome where
  answer : Answer
  calls : List MarkerCall
deriving DecidableEq, Repr

def start (vocabulary : Vocabulary) (options : SessionOptions) (capacity : Nat) : Workbench where
  session := .start vocabulary options
  editor := .empty
  submitted := []
  history := .ofCapacity capacity

/-- Tells the session about the text in the editor. -/
def noteEdit (w : Workbench) (now : Nat) : Outcome × Workbench :=
  let (token, session) := w.session.edit w.editor.text now
  (⟨.token token, []⟩, { w with session := session })

/-- Inserts a proposal, which counts as an edit. -/
def insertProposal (w : Workbench) (p : Proposal) (now : Nat) : Outcome × Workbench :=
  { w with editor := w.editor.replace p.span p.plainText }.noteEdit now

def completions (w : Workbench) : List Proposal :=
  w.session.complete w.editor.text w.editor.cursor

def step (w : Workbench) : Step → Outcome × Workbench
  | .show text cursor =>
    (⟨.nothing, []⟩, { w with editor := { w.editor with text := text, cursor := cursor } })
  | .edit text cursor now =>
    { w with editor := { w.editor with text := text, cursor := cursor } }.noteEdit now
  | .tick now =>
    let (calls?, session) := w.session.tick now
    let calls := calls?.getD []
    (⟨.projected calls?.isSome, calls⟩,
      { w with session := session, editor := calls.foldl Editor.handle w.editor })
  | .complete => (⟨.proposals w.completions, []⟩, w)
  | .insertLabel label now =>
    match w.completions.find? fun p => p.label = label with
    | some p => w.insertProposal p now
    | none => (⟨.noSuchProposal, []⟩, w)
  | .insert p now =>
    if p.span.Fits w.editor.text then w.insertProposal p now else (⟨.badSpan, []⟩, w)
  | .run menuOpen =>
    match w.session.run w.editor.text menuOpen with
    | (.error why, session) => (⟨.refused why, []⟩, { w with session := session })
    | (.ok (), session) =>
      (⟨.submitted w.editor.text, []⟩,
        { w with
          session := session
          submitted := w.submitted ++ [w.editor.text]
          history := w.history.append w.editor.text })

/-- The outcomes of a list of steps, each with the workbench that it leaves. -/
def run (w : Workbench) : List Step → List (Outcome × Workbench)
  | [] => []
  | s :: steps =>
    let r := w.step s
    r :: run r.2 steps

end Workbench

end PromqlAssist
