import PromqlAssist.Proofs.Keyed
import PromqlAssist.Proofs.Session.Timer
import PromqlAssist.Server.Backend

/-!
# Runs of the language server

Requests of the client and the two parts of its tasks are single steps that come in any order, each
with the time it is given. What a step can do to the timers and the documents is said here once.
-/

namespace PromqlAssist

namespace Backend

/-- What can happen at a server: a notification of the client, or a task that wakes up. -/
inductive Event where
  | openDocument (now : Nat) (uri : String) (version : Int) (text : Text)
  | changeDocument (now : Nat) (uri : String) (version : Int) (texts : List Text)
  | closeDocument (uri : String)
  | shutDown
  | wake (now place : Nat)

def step (b : Backend) : Event → Option Publication × Backend
  | .openDocument now uri version text => (none, b.openDocument now uri version text)
  | .changeDocument now uri version texts => (none, b.changeDocument now uri version texts)
  | .closeDocument uri => ((b.closeDocument uri).1, (b.closeDocument uri).2)
  | .shutDown => (none, b.shutDown)
  | .wake now place => b.wake now place

/-- The server behind a list of events. -/
def after (b : Backend) (events : List Event) : Backend :=
  events.foldl (fun b e => (b.step e).2) b

/-- The server with a sleeping task taken away. -/
def withoutTask (b : Backend) (place : Nat) : Backend :=
  { b with tasks := b.tasks.eraseIdx place }

/-- The second part of a task that an event puts to sleep. -/
def fallsAsleep? (b : Backend) : Event → Option SleepingTask
  | .wake now place =>
    (b.tasks[place]?).bind fun task =>
      match task.stage with
      | .validation token =>
        if task.due ≤ now then ((b.withoutTask place).runValidation now task.uri token).1 else none
      | .projection _ _ => none
  | _ => none

/-- The task that an event puts to sleep. An edit puts a new one behind all others. -/
def putsToSleep? (b : Backend) : Event → Option SleepingTask
  | .openDocument now uri version text => (b.openDocument now uri version text).tasks.getLast?
  | .changeDocument now uri version texts => (b.changeDocument now uri version texts).tasks.getLast?
  | e => b.fallsAsleep? e

/-- What a list of events publishes, in order. -/
def publications (b : Backend) : List Event → List Publication
  | [] => []
  | e :: events => (b.step e).1.toList ++ publications (b.step e).2 events

namespace Event

/-- Whether an event opens or changes a document. -/
def edits (uri : String) : Event → Bool
  | .openDocument _ edited _ _ => edited = uri
  | .changeDocument _ edited _ _ => edited = uri
  | _ => false

/-- Whether an event closes a document. -/
def closes (uri : String) : Event → Bool
  | .closeDocument closed => closed = uri
  | _ => false

/-- The time that an event is given. -/
def now? : Event → Option Nat
  | .openDocument now _ _ _ => some now
  | .changeDocument now _ _ _ => some now
  | .wake now _ => some now
  | _ => none

end Event

variable {b : Backend} {now place token : Nat} {uri other : String} {version : Int}

@[simp] theorem after_cons (b : Backend) (e : Event) (events : List Event) :
    b.after (e :: events) = (b.step e).2.after events := rfl

theorem after_concat (b : Backend) (events : List Event) (e : Event) :
    b.after (events ++ [e]) = ((b.after events).step e).2 := by
  simp [after]

section ScheduleValidation

/-- Opening and changing a document start a validation of it, with new documents or the old ones. -/
theorem changeDocument_eq (b : Backend) (now : Nat) (uri : String) (version : Int)
    (texts : List Text) : ∃ documents, b.changeDocument now uri version texts =
      { b with documents := documents }.scheduleValidation now uri := by
  unfold changeDocument
  cases texts.getLast? with
  | none => exact ⟨b.documents, rfl⟩
  | some text => exact ⟨b.documents.update uri version text, rfl⟩

theorem timers_scheduleValidation_self : (b.scheduleValidation now uri).timers.get? uri =
    some (((b.timers.get? uri).getD (.ofOptions b.options)).scheduleValidation now).2 :=
  Keyed.get?_put_self uri _ b.timers

theorem timers_scheduleValidation_of_ne (h : other ≠ uri) :
    (b.scheduleValidation now uri).timers.get? other = b.timers.get? other :=
  Keyed.get?_put_of_ne h _ b.timers

end ScheduleValidation

/-- The first part of a task claims nothing, claims the validation of a document that is not there,
or queues the findings of the document. -/
theorem runValidation_cases (b : Backend) (now : Nat) (uri : String) (token : Nat) :
    b.runValidation now uri token = (none, b) ∨
    ∃ timers job, b.timers.get? uri = some timers ∧
      timers.validation.pending? = some job ∧ job.token = token ∧
      (b.documents.document? uri = none ∧
        b.runValidation now uri token = (none, { b with
          timers := Keyed.put uri ⟨timers.validation.cancelAll, timers.projection⟩ b.timers }) ∨
      ∃ document, b.documents.document? uri = some document ∧
        b.runValidation now uri token =
          (some ⟨uri, .projection (timers.projection.issued + 1) document.version,
              now + b.options.projectionDelay⟩,
            { b with
              timers := Keyed.put uri ⟨timers.validation.cancelAll, (timers.projection.schedule now
                (Diagnostic.project document.text (validate b.vocabulary document.text))).2⟩
                b.timers })) := by
  unfold runValidation
  cases htimers : b.timers.get? uri with
  | none => exact .inl rfl
  | some timers =>
    obtain htake | ⟨job, hpending, htoken, htake⟩ := timers.validation.take_cases token
    · left
      simp only [htake]
    · refine .inr ⟨timers, job, rfl, hpending, htoken, ?_⟩
      simp only [htake]
      cases hdocument : b.documents.document? uri with
      | none => exact .inl ⟨rfl, rfl⟩
      | some document =>
        refine .inr ⟨document, rfl, ?_⟩
        simp only [DocumentTimers.scheduleProjection, Keyed.put_put]
        rfl

/-- The second part of a task claims nothing or publishes what waits. -/
theorem runProjection_cases (b : Backend) (uri : String) (token : Nat) (version : Int) :
    b.runProjection uri token version = (none, b) ∨
    ∃ timers job, b.timers.get? uri = some timers ∧
      timers.projection.pending? = some job ∧ job.token = token ∧
      b.runProjection uri token version = (some ⟨uri, job.payload, some version⟩,
        { b with
          timers := Keyed.put uri ⟨timers.validation, timers.projection.cancelAll⟩ b.timers }) := by
  unfold runProjection
  cases htimers : b.timers.get? uri with
  | none => exact .inl rfl
  | some timers =>
    obtain htake | ⟨job, hpending, htoken, htake⟩ := timers.projection.take_cases token
    · left
      simp only [htake]
    · refine .inr ⟨timers, job, rfl, hpending, htoken, ?_⟩
      simp only [htake]

/-- A wake-up finds no task that is due, or runs the part of the task that comes next. -/
theorem wake_cases (b : Backend) (now place : Nat) :
    b.wake now place = (none, b) ∧ b.fallsAsleep? (.wake now place) = none ∨
    (∃ uri token due, b.tasks[place]? = some ⟨uri, .validation token, due⟩ ∧ due ≤ now ∧
      b.wake now place = (none, { ((b.withoutTask place).runValidation now uri token).2 with
        tasks := ((b.withoutTask place).runValidation now uri token).2.tasks ++
          ((b.withoutTask place).runValidation now uri token).1.toList }) ∧
      b.fallsAsleep? (.wake now place) = ((b.withoutTask place).runValidation now uri token).1) ∨
    ∃ uri token version due, b.tasks[place]? = some ⟨uri, .projection token version, due⟩ ∧
      due ≤ now ∧ b.wake now place = (b.withoutTask place).runProjection uri token version ∧
      b.fallsAsleep? (.wake now place) = none := by
  simp only [wake, fallsAsleep?]
  cases htask : b.tasks[place]? with
  | none => exact .inl ⟨rfl, rfl⟩
  | some task =>
    obtain ⟨uri, stage, due⟩ := task
    by_cases hdue : due ≤ now
    · simp only [if_pos hdue, Option.bind_some]
      cases stage with
      | validation token => exact .inr (.inl ⟨uri, token, due, rfl, hdue, rfl, rfl⟩)
      | projection token version =>
        exact .inr (.inr ⟨uri, token, version, due, rfl, hdue, rfl, rfl⟩)
    · simp only [if_neg hdue, Option.bind_some]
      left
      cases stage <;> simp

/-- The first part of a task changes nothing but timers. -/
theorem runValidation_eq (b : Backend) (now : Nat) (uri : String) (token : Nat) :
    ∃ timers, (b.runValidation now uri token).2 = { b with timers := timers } := by
  obtain hrun | ⟨timers, job, -, -, -, ⟨-, hrun⟩ | ⟨document, -, hrun⟩⟩ :=
    runValidation_cases b now uri token
  all_goals exact ⟨_, congrArg Prod.snd hrun⟩

/-- No event changes the vocabulary or the options. -/
theorem step_eq (b : Backend) (e : Event) : ∃ documents timers tasks,
    (b.step e).2 = { b with documents := documents, timers := timers, tasks := tasks } := by
  cases e with
  | changeDocument now uri version texts =>
    obtain ⟨documents, hchange⟩ := b.changeDocument_eq now uri version texts
    exact ⟨documents, _, _, hchange⟩
  | wake now place =>
    show ∃ documents timers tasks, (b.wake now place).2 = _
    obtain ⟨hwake, -⟩ | ⟨uri, token, due, -, -, hwake, -⟩ |
      ⟨uri, token, version, due, -, -, hwake, -⟩ := wake_cases b now place
    · exact ⟨_, _, _, congrArg Prod.snd hwake⟩
    · obtain ⟨timers, hrun⟩ := (b.withoutTask place).runValidation_eq now uri token
      exact ⟨b.documents, timers, _, by rw [hwake, hrun]; rfl⟩
    · obtain hrun | ⟨timers, job, -, -, -, hrun⟩ :=
        runProjection_cases (b.withoutTask place) uri token version
      all_goals exact ⟨b.documents, _, _, by rw [hwake, hrun]; rfl⟩
  | _ => exact ⟨_, _, _, rfl⟩

end Backend

end PromqlAssist
