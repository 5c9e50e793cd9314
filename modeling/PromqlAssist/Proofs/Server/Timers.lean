import PromqlAssist.Proofs.Server.Run

/-!
# What an event does to the timers of a document

An edit of a document queues a validation, the first part of one of its tasks queues diagnostics,
and closing it makes its timers anew. Any other event leaves the jobs of the document alone or drops
them. `change_step` says this once, for all events and all documents, so that a law on timers has
four cases.
-/

namespace PromqlAssist

/-- Whether a timer is left alone or has its job dropped. -/
def Timer.Keeps {α : Type} (t t' : Timer α) : Prop :=
  t' = t ∨ t' = t.cancelAll

namespace Backend

/-- The timers of a document. Those of a document that has none yet are new. -/
def timersOf (b : Backend) (uri : String) : DocumentTimers :=
  (b.timers.get? uri).getD (.ofOptions b.options)

/-- What an event makes of the timers of a document. -/
inductive Change (b : Backend) (uri : String) (e : Event) : DocumentTimers → Prop
  /-- A validation is queued, and what waited is dropped. -/
  | edit (now : Nat) (edits : e.edits uri) (closes : e.closes uri = false)
      (hnow : e.now? = some now)
      (asleep : b.putsToSleep? e = some ⟨uri, .validation ((b.timersOf uri).validation.issued + 1),
        now + b.options.validationDelay⟩) :
      Change b uri e ((b.timersOf uri).scheduleValidation now).2
  /-- The timers are given up. -/
  | close (edits : e.edits uri = false) (closes : e.closes uri)
      (asleep : b.putsToSleep? e = none) :
      Change b uri e (.ofOptions b.options)
  /-- Diagnostics are queued in place of the validation that waited. -/
  | queue (now : Nat) (version : Int) (diagnostics : List Diagnostic) (edits : e.edits uri = false)
      (closes : e.closes uri = false) (hnow : e.now? = some now)
      (waits : (b.timersOf uri).validation.pending?.isSome)
      (asleep : b.putsToSleep? e = some ⟨uri,
        .projection ((b.timersOf uri).projection.issued + 1) version,
        now + b.options.projectionDelay⟩) :
      Change b uri e ⟨(b.timersOf uri).validation.cancelAll,
        ((b.timersOf uri).projection.schedule now diagnostics).2⟩
  /-- Nothing is queued. -/
  | quiet (timers : DocumentTimers) (edits : e.edits uri = false) (closes : e.closes uri = false)
      (asleep : ∀ task ∈ b.putsToSleep? e, task.uri ≠ uri)
      (validation : (b.timersOf uri).validation.Keeps timers.validation)
      (projection : (b.timersOf uri).projection.Keeps timers.projection) :
      Change b uri e timers

variable {b b' : Backend} {uri woken : String} {now place : Nat} {e : Event}

theorem timersOf_of_get? {timers : DocumentTimers} (h : b.timers.get? uri = some timers) :
    b.timersOf uri = timers := by
  rw [timersOf, h, Option.getD_some]

/-- Timers that are left alone under an address are those of the document. -/
theorem timersOf_congr (htimers : b'.timers.get? uri = b.timers.get? uri)
    (hoptions : b'.options = b.options) : b'.timersOf uri = b.timersOf uri := by
  rw [timersOf, timersOf, htimers, hoptions]

theorem Change.unchanged (edits : e.edits uri = false) (closes : e.closes uri = false)
    (asleep : ∀ task ∈ b.putsToSleep? e, task.uri ≠ uri) : b.Change uri e (b.timersOf uri) :=
  .quiet _ edits closes asleep (.inl rfl) (.inl rfl)

theorem change_scheduleValidation {edited : String} (documents : DocumentStore)
    (hstep : (b.step e).2 = { b with documents := documents }.scheduleValidation now edited)
    (hputs : b.putsToSleep? e = (b.step e).2.tasks.getLast?) (hedits : e.edits uri = (edited = uri))
    (hcloses : e.closes uri = false) (hnow : e.now? = some now) :
    b.Change uri e ((b.step e).2.timersOf uri) := by
  have hasleep : b.putsToSleep? e = some ⟨edited,
      .validation ((b.timersOf edited).validation.issued + 1),
      now + b.options.validationDelay⟩ := by
    rw [hputs, hstep]
    exact List.getLast?_concat
  rw [hstep]
  by_cases h : edited = uri
  · subst h
    rw [timersOf_of_get? timers_scheduleValidation_self]
    exact .edit now (by simpa using hedits) hcloses hnow hasleep
  · rw [timersOf_congr (timers_scheduleValidation_of_ne (Ne.symm h)) rfl]
    refine .unchanged (by simpa [h] using hedits) hcloses ?_
    intro task htask
    obtain rfl := Option.some.inj (hasleep.symm.trans htask)
    exact h

theorem options_step (b : Backend) (e : Event) : (b.step e).2.options = b.options := by
  obtain ⟨documents, timers, tasks, hstep⟩ := b.step_eq e
  rw [hstep]

/-- A wake-up that changes no timers. -/
theorem change_of_timers_eq (htimers : (b.step (.wake now place)).2.timers = b.timers)
    (hnone : b.fallsAsleep? (.wake now place) = none) (uri : String) :
    b.Change uri (.wake now place) ((b.step (.wake now place)).2.timersOf uri) := by
  rw [timersOf_congr (congrArg (Keyed.get? uri) htimers) (options_step b _)]
  exact .unchanged rfl rfl (by simp [putsToSleep?, hnone])

/-- A wake-up changes the timers of the document that the task is for. -/
theorem change_of_put {timers : DocumentTimers}
    (htimers : (b.step (.wake now place)).2.timers = Keyed.put woken timers b.timers)
    (hasleep : ∀ task ∈ b.fallsAsleep? (.wake now place), task.uri = woken)
    (hself : b.Change woken (.wake now place) timers) (uri : String) :
    b.Change uri (.wake now place) ((b.step (.wake now place)).2.timersOf uri) := by
  by_cases h : uri = woken
  · subst h
    have hget : (b.step (.wake now place)).2.timers.get? uri = some timers := by
      rw [htimers]
      exact Keyed.get?_put_self uri timers b.timers
    rw [timersOf_of_get? hget]
    exact hself
  · have hget : (b.step (.wake now place)).2.timers.get? uri = b.timers.get? uri := by
      rw [htimers]
      exact Keyed.get?_put_of_ne h timers b.timers
    rw [timersOf_congr hget (options_step b _)]
    refine .unchanged rfl rfl fun task htask => ?_
    rw [hasleep task htask]
    exact Ne.symm h

theorem change_wake (b : Backend) (uri : String) (now place : Nat) :
    b.Change uri (.wake now place) ((b.step (.wake now place)).2.timersOf uri) := by
  obtain ⟨hwake, hnone⟩ | ⟨woken, token, due, -, -, hwake, hasleep⟩ |
    ⟨woken, token, version, due, -, -, hwake, hnone⟩ := wake_cases b now place
  · exact change_of_timers_eq (congrArg (·.2.timers) hwake) hnone uri
  · have htimers : (b.step (.wake now place)).2.timers =
        ((b.withoutTask place).runValidation now woken token).2.timers :=
      congrArg (·.2.timers) hwake
    obtain hrun | ⟨timers, job, hget, hjob, -, ⟨-, hrun⟩ | ⟨document, -, hrun⟩⟩ :=
      runValidation_cases (b.withoutTask place) now woken token
    · rw [hrun] at htimers hasleep
      exact change_of_timers_eq htimers hasleep uri
    · rw [hrun] at htimers hasleep
      have hold : b.timersOf woken = timers := timersOf_of_get? hget
      refine change_of_put htimers (by simp [hasleep]) ?_ uri
      exact .quiet _ rfl rfl (by simp [putsToSleep?, hasleep]) (.inr (hold ▸ rfl))
        (.inl (hold ▸ rfl))
    · rw [hrun] at htimers hasleep
      obtain rfl : b.timersOf woken = timers := timersOf_of_get? hget
      refine change_of_put htimers (by simp [hasleep]) ?_ uri
      exact .queue now document.version _ rfl rfl rfl (by simp [hjob]) hasleep
  · obtain hrun | ⟨timers, job, hget, -, -, hrun⟩ :=
      runProjection_cases (b.withoutTask place) woken token version
    · rw [hrun] at hwake
      exact change_of_timers_eq (congrArg (·.2.timers) hwake) hnone uri
    · rw [hrun] at hwake
      have hold : b.timersOf woken = timers := timersOf_of_get? hget
      refine change_of_put (congrArg (·.2.timers) hwake) (by simp [hnone]) ?_ uri
      exact .quiet _ rfl rfl (by simp [putsToSleep?, hnone]) (.inl (hold ▸ rfl))
        (.inr (hold ▸ rfl))

theorem timersOf_closed (b : Backend) (uri : String) :
    (b.step (.closeDocument uri)).2.timersOf uri = .ofOptions b.options := by
  show (Keyed.get? uri (Keyed.erase uri b.timers)).getD _ = _
  rw [Keyed.get?_erase_self]
  rfl

theorem timersOf_shutDown (b : Backend) (uri : String) :
    (b.step .shutDown).2.timersOf uri = (b.timersOf uri).cancelAll := by
  have hget : (b.step .shutDown).2.timers.get? uri =
      (b.timers.get? uri).map DocumentTimers.cancelAll := Keyed.get?_mapValues _ uri b.timers
  rw [timersOf, timersOf, hget]
  cases b.timers.get? uri <;> rfl

theorem change_step (b : Backend) (uri : String) (e : Event) :
    b.Change uri e ((b.step e).2.timersOf uri) := by
  cases e with
  | openDocument now edited version text =>
    exact change_scheduleValidation (b.documents.update edited version text) rfl rfl
      (by simp [Event.edits]) rfl rfl
  | changeDocument now edited version texts =>
    obtain ⟨documents, hchange⟩ := b.changeDocument_eq now edited version texts
    exact change_scheduleValidation documents hchange rfl (by simp [Event.edits]) rfl rfl
  | closeDocument closed =>
    by_cases h : closed = uri
    · subst h
      rw [timersOf_closed]
      exact .close rfl (by simp [Event.closes]) rfl
    · have hkeep : (b.step (.closeDocument closed)).2.timersOf uri = b.timersOf uri :=
        timersOf_congr (Keyed.get?_erase_of_ne (Ne.symm h) b.timers) rfl
      rw [hkeep]
      exact .unchanged rfl (by simpa [Event.closes] using h) (by simp [putsToSleep?, fallsAsleep?])
  | shutDown =>
    rw [timersOf_shutDown]
    exact .quiet _ rfl rfl (by simp [putsToSleep?, fallsAsleep?]) (.inr rfl) (.inr rfl)
  | wake now place => exact change_wake b uri now place

end Backend

end PromqlAssist
