import PromqlAssist.Server.Document
import PromqlAssist.Server.Item
import PromqlAssist.Session.Basic

/-!
# The language server's documents and tasks

Every opening and every change of a document starts a task. The task sleeps out the validation
delay, claims the validation if its token is still the latest, validates what the document holds
then, and sleeps out the projection delay before it publishes. Tasks are woken one at a time; between
two wake-ups anything may happen to the document.

Timers belong to an open document. Closing it drops them, and reopening it starts their tokens anew,
while the tasks from before sleep on.
-/

namespace PromqlAssist

/-- The timers of one document. -/
structure DocumentTimers where
  validation : Timer Unit
  projection : Timer (List Diagnostic)
deriving DecidableEq, Repr

namespace DocumentTimers

def ofOptions (o : SessionOptions) : DocumentTimers :=
  ⟨.ofDelay o.validationDelay, .ofDelay o.projectionDelay⟩

/-- Starts a validation in place of whatever waits. Returns its token. -/
def scheduleValidation (t : DocumentTimers) (now : Nat) : Nat × DocumentTimers :=
  let (token, validation) := t.validation.schedule now ()
  (token, ⟨validation, t.projection.cancelAll⟩)

/-- Queues diagnostics, unless a newer validation waits: they are about an older version then. -/
def scheduleProjection (t : DocumentTimers) (now : Nat) (ds : List Diagnostic) :
    Option (Nat × DocumentTimers) :=
  if t.validation.pending?.isSome then none
  else
    let (token, projection) := t.projection.schedule now ds
    some (token, { t with projection := projection })

def cancelAll (t : DocumentTimers) : DocumentTimers :=
  ⟨t.validation.cancelAll, t.projection.cancelAll⟩

end DocumentTimers

/-- What a sleeping task does next. -/
inductive TaskStage where
  /-- Claims the validation of a token. -/
  | validation (token : Nat)
  /-- Publishes the diagnostics of a token, which are about a version. -/
  | projection (token : Nat) (version : Int)
deriving DecidableEq, Repr

/-- A task that sleeps until `due`. -/
structure SleepingTask where
  uri : String
  stage : TaskStage
  due : Nat
deriving DecidableEq, Repr

/-- Diagnostics as they are sent to the client. -/
structure Publication where
  uri : String
  diagnostics : List Diagnostic
  version? : Option Int
deriving DecidableEq, Repr

def Publication.toJson (p : Publication) : Json :=
  Json.object ([("uri", .ofString p.uri), ("diagnostics", .arr (p.diagnostics.map (·.toJson)))]
    ++ Json.optional "version" (p.version?.map .int))

structure Backend where
  vocabulary : Vocabulary
  options : SessionOptions
  documents : DocumentStore
  timers : Keyed DocumentTimers
  /-- The sleeping tasks, in the order in which they fell asleep. -/
  tasks : List SleepingTask

namespace Backend

def start (vocabulary : Vocabulary) (options : SessionOptions) : Backend :=
  ⟨vocabulary, options, [], [], []⟩

/-- Starts a validation of a document and the task that will carry it out. -/
def scheduleValidation (b : Backend) (now : Nat) (uri : String) : Backend :=
  let timers := (b.timers.get? uri).getD (.ofOptions b.options)
  let (token, timers) := timers.scheduleValidation now
  { b with
    timers := Keyed.put uri timers b.timers
    tasks := b.tasks ++ [⟨uri, .validation token, now + b.options.validationDelay⟩] }

def openDocument (b : Backend) (now : Nat) (uri : String) (version : Int) (text : Text) : Backend :=
  { b with documents := b.documents.update uri version text }.scheduleValidation now uri

/-- A change holds any number of whole texts, of which the last counts. -/
def changeDocument (b : Backend) (now : Nat) (uri : String) (version : Int) (texts : List Text) :
    Backend :=
  let b := match texts.getLast? with
    | some text => { b with documents := b.documents.update uri version text }
    | none => b
  b.scheduleValidation now uri

/-- Closes a document and clears what the client shows for it. -/
def closeDocument (b : Backend) (uri : String) : Publication × Backend :=
  (⟨uri, [], none⟩,
    { b with timers := b.timers.erase uri, documents := (b.documents.remove uri).2 })

/-- Cancels all that waits. -/
def shutDown (b : Backend) : Backend :=
  { b with timers := Keyed.mapValues DocumentTimers.cancelAll b.timers }

/-- The first part of a task: it claims its validation, validates the document, and queues the
diagnostics. Returns the second part, which falls asleep, unless the task is superseded. -/
def runValidation (b : Backend) (now : Nat) (uri : String) (token : Nat) :
    Option SleepingTask × Backend :=
  match b.timers.get? uri with
  | none => (none, b)
  | some timers =>
    match timers.validation.take token with
    | (none, _) => (none, b)
    | (some (), validation) =>
      let timers := { timers with validation := validation }
      let b := { b with timers := Keyed.put uri timers b.timers }
      match b.documents.document? uri with
      | none => (none, b)
      | some document =>
        let ds := Diagnostic.project document.text (validate b.vocabulary document.text)
        match timers.scheduleProjection now ds with
        | none => (none, b)
        | some (token, timers) =>
          (some ⟨uri, .projection token document.version, now + b.options.projectionDelay⟩,
            { b with timers := Keyed.put uri timers b.timers })

/-- The second part of a task: it publishes its diagnostics if nothing has superseded them. -/
def runProjection (b : Backend) (uri : String) (token : Nat) (version : Int) :
    Option Publication × Backend :=
  match b.timers.get? uri with
  | none => (none, b)
  | some timers =>
    match timers.projection.take token with
    | (none, _) => (none, b)
    | (some ds, projection) =>
      (some ⟨uri, ds, some version⟩,
        { b with timers := Keyed.put uri { timers with projection := projection } b.timers })

/-- Runs a task that is no longer among the sleeping ones. -/
def runTask (b : Backend) (now : Nat) (task : SleepingTask) :
    Option Publication × Backend :=
  match task.stage with
  | .validation token =>
    let (next?, b) := b.runValidation now task.uri token
    (none, { b with tasks := b.tasks ++ next?.toList })
  | .projection token version => b.runProjection task.uri token version

/-- Wakes the task at a place in the list of sleeping tasks, if it is due. -/
def wake (b : Backend) (now place : Nat) : Option Publication × Backend :=
  match b.tasks[place]? with
  | none => (none, b)
  | some task =>
    if task.due ≤ now then { b with tasks := b.tasks.eraseIdx place }.runTask now task
    else (none, b)

/-- The completion items at a position of an open document. -/
def completions (b : Backend) (uri : String) (p : Position) : Option (List CompletionItem) :=
  (b.documents.document? uri).bind fun document =>
    match complete b.vocabulary b.options.limit document.text (document.text.offsetOf p) with
    | [] => none
    | ps => some (CompletionItem.ofProposals document.text ps)

end Backend

end PromqlAssist
