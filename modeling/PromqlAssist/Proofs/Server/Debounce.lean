import Mathlib.Data.List.Induction
import PromqlAssist.Proofs.Server.Timers

/-!
# How long a claimed job has waited

A task looks at no deadline. It sleeps out a delay and takes the job of its token, so the delay is
kept if the token belongs to one job only. That is so among the tasks that fell asleep since their
document was last closed. A task from before may hold the token of a younger job and claim it too
early: `delay_elapsed_iff` tells when a claim keeps the delay, `claims_reopened` shows one that does
not.
-/

namespace PromqlAssist

/-- Whether the job that waits at a timer, if one does, was queued at the last time, and its token
is that of the tasks that sleep from then on for the delay. The tasks are given by their tokens and
the times at which they are due. -/
structure Timer.Tracks {α : Type} (t : Timer α) (delay : Nat) (last? : Option Nat)
    (slept : Nat → Nat → Prop) : Prop where
  issued : ∀ token due, slept token due → token ≤ t.issued
  pending : ∀ job, t.pending? = some job →
    ∃ time, last? = some time ∧ ∀ due, slept job.token due ↔ due = time + delay

namespace Timer.Tracks

variable {α : Type} {t t' : Timer α} {delay : Nat} {last? : Option Nat}
variable {slept slept' : Nat → Nat → Prop}

theorem ofDelay {own : Nat} (h : ∀ token due, ¬ slept token due) :
    (Timer.ofDelay own : Timer α).Tracks delay last? slept where
  issued := fun token due hslept => absurd hslept (h token due)
  pending := fun job hjob => by cases hjob

theorem keeps (h : t.Tracks delay last? slept) (hkeeps : t.Keeps t')
    (hslept : ∀ token due, slept' token due ↔ slept token due) :
    t'.Tracks delay last? slept' := by
  obtain rfl : slept' = slept := funext₂ fun token due => propext (hslept token due)
  obtain rfl | rfl := hkeeps
  · exact h
  · exact ⟨h.issued, fun job hjob => by cases hjob⟩

/-- No earlier task has the token of a new job. -/
theorem schedule {now : Nat} {payload : α} (h : t.Tracks delay last? slept)
    (hslept : ∀ token due, slept' token due ↔
      token = t.issued + 1 ∧ due = now + delay ∨ slept token due) :
    (t.schedule now payload).2.Tracks delay (some now) slept' where
  issued := by
    intro token due htask
    rcases (hslept token due).mp htask with ⟨rfl, -⟩ | hold
    · exact Nat.le_refl _
    · exact Nat.le_succ_of_le (h.issued token due hold)
  pending := by
    intro job hjob
    obtain rfl := Option.some.inj hjob
    refine ⟨now, rfl, fun due => ?_⟩
    rw [hslept]
    constructor
    · rintro (⟨-, hdue⟩ | hold)
      · exact hdue
      · exact absurd (h.issued _ _ hold) (Nat.not_succ_le_self _)
    · exact fun hdue => .inl ⟨rfl, hdue⟩

end Timer.Tracks

/-- Whether the job that a task waits for is there to be taken. -/
def TaskStage.claims (timers : DocumentTimers) : TaskStage → Bool
  | .validation token => (timers.validation.take token).1.isSome
  | .projection token _ => (timers.projection.take token).1.isSome

namespace Backend

/-- Whether a task fell asleep in a run, and its document was not closed since. -/
def SleptSince (b : Backend) (events : List Event) (task : SleepingTask) : Prop :=
  ∃ front e behind, events = front ++ e :: behind ∧
    (b.after front).putsToSleep? e = some task ∧ ∀ e' ∈ behind, e'.closes task.uri = false

/-- Whether an event queues diagnostics of a document, to be published by the task that queues
them. -/
def queues (b : Backend) (uri : String) (e : Event) : Bool :=
  match b.putsToSleep? e with
  | some ⟨queued, .projection _ _, _⟩ => queued = uri
  | _ => false

/-- The time of the last event in a run that has a property in the state before it. -/
def lastTime? (p : Backend → Event → Bool) (b : Backend) : List Event → Option Nat
  | [] => none
  | e :: events => (lastTime? p (b.step e).2 events).or (if p b e then e.now? else none)

/-- A task that is woken when it is due and takes the job that it waited for. -/
structure Claims (b : Backend) (now place : Nat) (task : SleepingTask) : Prop where
  asleep : b.tasks[place]? = some task
  due : task.due ≤ now
  claims : ∃ timers, b.timers.get? task.uri = some timers ∧ task.stage.claims timers

variable {b : Backend} {events : List Event} {e : Event} {task : SleepingTask} {uri : String}
variable {p : Backend → Event → Bool} {now : Nat} {v : Vocabulary} {o : SessionOptions}

theorem sleptSince_concat : b.SleptSince (events ++ [e]) task ↔
    (b.after events).putsToSleep? e = some task ∨
      (b.SleptSince events task ∧ e.closes task.uri = false) := by
  constructor
  · rintro ⟨front, e', behind, heq, hputs, hopen⟩
    rcases List.eq_nil_or_concat behind with rfl | ⟨behind, last, rfl⟩
    · obtain ⟨rfl, hlast⟩ := List.append_inj' heq rfl
      obtain rfl := List.singleton_inj.mp hlast
      exact .inl hputs
    · rw [List.concat_eq_append, ← List.cons_append, ← List.append_assoc] at heq
      obtain ⟨rfl, hlast⟩ := List.append_inj' heq rfl
      obtain rfl := List.singleton_inj.mp hlast
      simp only [List.concat_eq_append, List.forall_mem_append, List.forall_mem_singleton] at hopen
      exact .inr ⟨⟨front, e', behind, rfl, hputs, hopen.1⟩, hopen.2⟩
  · rintro (hputs | ⟨⟨front, e', behind, rfl, hputs, hopen⟩, hlast⟩)
    · exact ⟨events, e, [], rfl, hputs, by simp⟩
    · refine ⟨front, e', behind ++ [e], by simp, hputs, ?_⟩
      simpa [or_imp, forall_and, hlast] using hopen

/-- An event that does not close a document adds the task that it puts to sleep. -/
theorem sleptSince_concat_of_open {stage : TaskStage} {due : Nat} (hopen : e.closes uri = false) :
    b.SleptSince (events ++ [e]) ⟨uri, stage, due⟩ ↔
      (b.after events).putsToSleep? e = some ⟨uri, stage, due⟩ ∨
        b.SleptSince events ⟨uri, stage, due⟩ := by
  rw [sleptSince_concat]
  simp [hopen]

theorem sleptSince_concat_of_ne {stage : TaskStage} {due : Nat} (hopen : e.closes uri = false)
    (hother : ∀ task ∈ (b.after events).putsToSleep? e, task.uri ≠ uri) :
    b.SleptSince (events ++ [e]) ⟨uri, stage, due⟩ ↔ b.SleptSince events ⟨uri, stage, due⟩ := by
  rw [sleptSince_concat_of_open hopen, or_iff_right]
  intro hputs
  exact hother _ hputs rfl

theorem not_sleptSince_nil : ¬ b.SleptSince [] task := by
  rintro ⟨front, e, behind, heq, -⟩
  simp at heq

theorem not_sleptSince_concat_of_closes {stage : TaskStage} {due : Nat} (hclosed : e.closes uri)
    (hnone : (b.after events).putsToSleep? e = none) :
    ¬ b.SleptSince (events ++ [e]) ⟨uri, stage, due⟩ := by
  rw [sleptSince_concat, hnone]
  simp [hclosed]

theorem lastTime?_concat (p : Backend → Event → Bool) (b : Backend) (events : List Event)
    (e : Event) : b.lastTime? p (events ++ [e]) =
      (if p (b.after events) e then e.now? else none).or (b.lastTime? p events) := by
  induction events generalizing b with
  | nil =>
    rw [List.nil_append, lastTime?, lastTime?, lastTime?, Option.none_or, Option.or_none]
    rfl
  | cons first events ih =>
    rw [List.cons_append, lastTime?, ih, lastTime?, after_cons, Option.or_assoc]

theorem lastTime?_concat_of_not (h : p (b.after events) e = false) :
    b.lastTime? p (events ++ [e]) = b.lastTime? p events := by
  rw [lastTime?_concat, h]
  rfl

theorem lastTime?_concat_of_now? (h : p (b.after events) e) (hnow : e.now? = some now) :
    b.lastTime? p (events ++ [e]) = some now := by
  rw [lastTime?_concat, if_pos h, hnow]
  rfl

theorem options_after (b : Backend) (events : List Event) :
    (b.after events).options = b.options := by
  induction events generalizing b with
  | nil => rfl
  | cons e events ih => rw [after_cons, ih, options_step]

/-- The timers of a document track the tasks of the document that fell asleep since it was last
closed. -/
structure Tracked (v : Vocabulary) (o : SessionOptions) (events : List Event) (uri : String) :
    Prop where
  validation : (((start v o).after events).timersOf uri).validation.Tracks o.validationDelay
    ((start v o).lastTime? (fun _ e => e.edits uri) events)
    fun token due => (start v o).SleptSince events ⟨uri, .validation token, due⟩
  projection : (((start v o).after events).timersOf uri).projection.Tracks o.projectionDelay
    ((start v o).lastTime? (fun b e => b.queues uri e) events)
    fun token due => ∃ version, (start v o).SleptSince events ⟨uri, .projection token version, due⟩

theorem tracked_nil (v : Vocabulary) (o : SessionOptions) (uri : String) : Tracked v o [] uri where
  validation := .ofDelay fun _ _ => not_sleptSince_nil
  projection := .ofDelay fun _ _ ⟨_, hslept⟩ => not_sleptSince_nil hslept

theorem queues_of_ne (h : ∀ task ∈ b.putsToSleep? e, task.uri ≠ uri) : b.queues uri e = false := by
  unfold queues
  split
  · rename_i hputs
    simpa using h _ hputs
  · rfl

theorem Tracked.concat (h : Tracked v o events uri) (e : Event) :
    Tracked v o (events ++ [e]) uri := by
  have hoptions : ((start v o).after events).options = o := options_after (start v o) events
  have hchange := ((start v o).after events).change_step uri e
  rw [← after_concat] at hchange
  constructor
  all_goals
    generalize ((start v o).after (events ++ [e])).timersOf uri = timers at hchange ⊢
  · cases hchange with
    | edit now edits closes hnow asleep =>
      rw [lastTime?_concat_of_now? edits hnow]
      refine h.validation.schedule fun token due => ?_
      rw [sleptSince_concat_of_open closes, asleep, hoptions]
      simp [eq_comm]
    | close edits closes asleep =>
      exact .ofDelay fun token due => not_sleptSince_concat_of_closes closes asleep
    | queue now version ds edits closes hnow waits asleep =>
      rw [lastTime?_concat_of_not edits]
      refine h.validation.keeps (.inr rfl) fun token due => ?_
      rw [sleptSince_concat_of_open closes, asleep]
      simp
    | quiet _ edits closes asleep keeps =>
      rw [lastTime?_concat_of_not edits]
      exact h.validation.keeps keeps fun token due => sleptSince_concat_of_ne closes asleep
  · cases hchange with
    | edit now edits closes hnow asleep =>
      rw [lastTime?_concat_of_not (by simp [queues, asleep])]
      refine h.projection.keeps (.inr rfl) fun token due => exists_congr fun version => ?_
      rw [sleptSince_concat_of_open closes, asleep]
      simp
    | close edits closes asleep =>
      refine .ofDelay fun token due ⟨version, hslept⟩ => ?_
      exact not_sleptSince_concat_of_closes closes asleep hslept
    | queue now version ds edits closes hnow waits asleep =>
      rw [lastTime?_concat_of_now? (by simp [queues, asleep]) hnow]
      refine h.projection.schedule fun token due => ?_
      simp only [sleptSince_concat_of_open closes, asleep, hoptions, exists_or]
      simp [eq_comm]
    | quiet _ edits closes asleep validation keeps =>
      rw [lastTime?_concat_of_not (queues_of_ne asleep)]
      exact h.projection.keeps keeps fun token due =>
        exists_congr fun version => sleptSince_concat_of_ne closes asleep

/-- The timers of a document track its tasks through every run. -/
theorem tracked (v : Vocabulary) (o : SessionOptions) (events : List Event) (uri : String) :
    Tracked v o events uri := by
  induction events using List.reverseRecOn with
  | nil => exact tracked_nil v o uri
  | append_singleton events e ih => exact ih.concat e

/-- A task that claims a validation does so at least the validation delay after the last edit of
the document exactly if a task with its token that fell asleep since the document was last closed is
due; so it does if it is such a task itself. The same holds of the diagnostics that a task claims,
the time at which they were queued, and the projection delay. -/
theorem delay_elapsed_iff (v : Vocabulary) (o : SessionOptions) (events : List Event)
    (now place : Nat) (uri : String) (token : Nat) :
    (∀ due, ((start v o).after events).Claims now place ⟨uri, .validation token, due⟩ →
      ∃ edited, (start v o).lastTime? (fun _ e => e.edits uri) events = some edited ∧
        (edited + o.validationDelay ≤ now ↔
          ∃ due ≤ now, (start v o).SleptSince events ⟨uri, .validation token, due⟩)) ∧
    ∀ version due,
      ((start v o).after events).Claims now place ⟨uri, .projection token version, due⟩ →
      ∃ queued, (start v o).lastTime? (fun b e => b.queues uri e) events = some queued ∧
        (queued + o.projectionDelay ≤ now ↔
          ∃ version, ∃ due ≤ now,
            (start v o).SleptSince events ⟨uri, .projection token version, due⟩) := by
  have h := tracked v o events uri
  constructor
  · rintro due ⟨-, -, timers, hget, htakes⟩
    rw [← timersOf_of_get? hget] at htakes
    obtain ⟨job, hjob, rfl⟩ := Timer.exists_job_of_take htakes
    obtain ⟨edited, hedited, hdue⟩ := h.validation.pending job hjob
    refine ⟨edited, hedited, ?_⟩
    simp only [hdue]
    simp
  · rintro version due ⟨-, -, timers, hget, htakes⟩
    rw [← timersOf_of_get? hget] at htakes
    obtain ⟨job, hjob, rfl⟩ := Timer.exists_job_of_take htakes
    obtain ⟨queued, hqueued, hdue⟩ := h.projection.pending job hjob
    refine ⟨queued, hqueued, ?_⟩
    rw [exists_comm]
    simp only [exists_and_left, hdue]
    simp

/-- A document is opened and changed, and the first of its two tasks wakes up. -/
def changedOnce : List Event :=
  [.openDocument 0 "query" 1 [], .changeDocument 40 "query" 2 [['u', 'p']], .wake 100 0]

/-- The other task validates the document. -/
def changedAndValidated : List Event :=
  changedOnce ++ [.wake 140 0]

theorem delay_elapsed_changedOnce :
    ((start .builtin ⟨100, 80, 200⟩).after changedOnce).Claims 140 0
        ⟨"query", .validation 2, 140⟩ ∧
      (∃ edited, (start .builtin ⟨100, 80, 200⟩).lastTime? (fun _ e => e.edits "query")
        changedOnce = some edited ∧ edited + 100 ≤ 140) ∧
      ((start .builtin ⟨100, 80, 200⟩).after changedAndValidated).Claims 230 0
        ⟨"query", .projection 1 2, 220⟩ ∧
      ∃ queued, (start .builtin ⟨100, 80, 200⟩).lastTime? (fun b e => b.queues "query" e)
        changedAndValidated = some queued ∧ queued + 80 ≤ 230 := by
  have validates : ((start .builtin ⟨100, 80, 200⟩).after changedOnce).Claims 140 0
      ⟨"query", .validation 2, 140⟩ :=
    ⟨by decide +kernel, Nat.le_refl 140, _, rfl, by decide +kernel⟩
  have publishes : ((start .builtin ⟨100, 80, 200⟩).after changedAndValidated).Claims 230 0
      ⟨"query", .projection 1 2, 220⟩ :=
    ⟨by decide +kernel, by decide, _, rfl, by decide +kernel⟩
  obtain ⟨edited, hedited, helapsed⟩ :=
    (delay_elapsed_iff .builtin ⟨100, 80, 200⟩ changedOnce 140 0 "query" 2).1 140 validates
  obtain ⟨queued, hqueued, hpassed⟩ :=
    (delay_elapsed_iff .builtin ⟨100, 80, 200⟩ changedAndValidated 230 0 "query" 1).2 2 220
      publishes
  refine ⟨validates, ⟨edited, hedited, helapsed.mpr ⟨140, Nat.le_refl 140, ?_⟩⟩, publishes,
    queued, hqueued, hpassed.mpr ⟨2, 220, by decide, ?_⟩⟩
  · exact ⟨changedOnce.take 1, _, changedOnce.drop 2, rfl, by decide +kernel, by decide⟩
  · exact ⟨changedOnce, _, [], rfl, by decide +kernel, by simp⟩

/-- A document is closed while its task sleeps, and opened again. -/
def reopenedAsleep : List Event :=
  [.openDocument 0 "query" 1 [], .closeDocument "query", .openDocument 50 "query" 5 ['f', 'o', 'o']]

/-- The same, with diagnostics queued in both openings. -/
def reopenedQueued : List Event :=
  [.openDocument 0 "query" 1 [], .wake 0 0, .closeDocument "query",
    .openDocument 50 "query" 5 ['f', 'o', 'o'], .wake 50 1]

/-- The task of the first opening claims the job of the second one half the delay too early, in
either of its parts. -/
theorem claims_reopened :
    (((start .builtin ⟨100, 0, 200⟩).after reopenedAsleep).Claims 100 0
        ⟨"query", .validation 1, 100⟩ ∧
      (start .builtin ⟨100, 0, 200⟩).lastTime? (fun _ e => e.edits "query") reopenedAsleep =
        some 50 ∧ ¬ 50 + 100 ≤ 100) ∧
    ((start .builtin ⟨0, 100, 200⟩).after reopenedQueued).Claims 100 0
        ⟨"query", .projection 1 1, 100⟩ ∧
      (start .builtin ⟨0, 100, 200⟩).lastTime? (fun b e => b.queues "query" e) reopenedQueued =
        some 50 ∧ ¬ 50 + 100 ≤ 100 :=
  ⟨⟨⟨by decide +kernel, Nat.le_refl 100, _, rfl, by decide +kernel⟩, by decide +kernel, by decide⟩,
    ⟨by decide +kernel, Nat.le_refl 100, _, rfl, by decide +kernel⟩, by decide +kernel, by decide⟩

end Backend

end PromqlAssist
