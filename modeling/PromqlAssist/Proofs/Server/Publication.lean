import PromqlAssist.Proofs.Server.Run

/-!
# What is published

The diagnostics that wait for a document are about the text that the store holds, whatever the
client and the tasks did before: an edit discards them, and closing the document drops its timers.
The version is another matter. A task brings it along from its first part, and names what it
publishes by a token of timers that may be gone. `publication_version_iff` tells when it is right.
-/

namespace PromqlAssist

namespace Backend

/-- The second parts of tasks, those left out that fell asleep before their document was last
closed. -/
def note (b : Backend) (log : List SleepingTask) : Event → List SleepingTask
  | .closeDocument uri => log.filter fun t => t.uri ≠ uri
  | e => log ++ (b.fallsAsleep? e).toList

/-- The second parts that fell asleep since their document was last closed. -/
def current (b : Backend) (log : List SleepingTask) : List Event → List SleepingTask
  | [] => log
  | e :: events => current (b.step e).2 (b.note log e) events

/-- What the timers and the store hold for a document since it was last closed. -/
structure Lifetime (b : Backend) (log : List SleepingTask) (uri : String) : Prop where
  issued : ∀ token version due, ⟨uri, .projection token version, due⟩ ∈ log →
    ∃ timers, b.timers.get? uri = some timers ∧ token ≤ timers.projection.issued
  pending : ∀ timers job, b.timers.get? uri = some timers → timers.projection.pending? = some job →
    ∃ document, b.documents.document? uri = some document ∧
      job.payload = Diagnostic.project document.text (validate b.vocabulary document.text) ∧
      ∀ version, version = document.version ↔
        ∃ due, ⟨uri, .projection job.token version, due⟩ ∈ log

variable {b b' : Backend} {log log' : List SleepingTask} {uri other : String} {now : Nat}

namespace Lifetime

/-- Only what is under the document's own address counts. -/
theorem congr (h : b.Lifetime log uri) (timers : b'.timers.get? uri = b.timers.get? uri)
    (documents : b'.documents.document? uri = b.documents.document? uri)
    (vocabulary : b'.vocabulary = b.vocabulary)
    (tasks : ∀ t : SleepingTask, t.uri = uri → (t ∈ log' ↔ t ∈ log)) : b'.Lifetime log' uri where
  issued := by
    intro token version due hmem
    rw [timers]
    exact h.issued token version due ((tasks _ rfl).mp hmem)
  pending := by
    intro t job ht hjob
    rw [timers] at ht
    obtain ⟨document, hdocument, hpayload, hversion⟩ := h.pending t job ht hjob
    refine ⟨document, documents.trans hdocument, vocabulary ▸ hpayload, fun version => ?_⟩
    rw [hversion version]
    exact exists_congr fun due => (tasks _ rfl).symm

/-- Timers that show nothing wait for nothing. -/
theorem of_idle {timers' : DocumentTimers} (h : b.Lifetime log uri)
    (hget : b'.timers.get? uri = some timers') (hidle : timers'.projection.pending? = none)
    (hissued : ∀ timers, b.timers.get? uri = some timers →
      timers'.projection.issued = timers.projection.issued) : b'.Lifetime log uri where
  issued := by
    intro token version due hmem
    obtain ⟨timers, ht, hle⟩ := h.issued token version due hmem
    exact ⟨timers', hget, hissued timers ht ▸ hle⟩
  pending := by
    intro timers job ht hjob
    rw [hget] at ht
    obtain rfl := Option.some.inj ht
    rw [hidle] at hjob
    cases hjob

theorem scheduleValidation (h : b.Lifetime log other) (documents : DocumentStore)
    (hdocuments : other ≠ uri → documents.document? other = b.documents.document? other) :
    ({ b with documents := documents }.scheduleValidation now uri).Lifetime log other := by
  by_cases hother : other = uri
  · subst hother
    apply h.of_idle timers_scheduleValidation_self rfl
    intro timers ht
    show ((b.timers.get? other).getD (.ofOptions b.options)).projection.issued = _
    rw [ht]
    rfl
  · exact h.congr (timers_scheduleValidation_of_ne hother) (hdocuments hother) rfl
      fun _ _ => Iff.rfl

theorem openDocument (h : b.Lifetime log other) (version : Int) (text : Text) :
    (b.openDocument now uri version text).Lifetime log other :=
  h.scheduleValidation _ fun hne => DocumentStore.document?_update_of_ne hne version text

theorem changeDocument (h : b.Lifetime log other) (version : Int) (texts : List Text) :
    (b.changeDocument now uri version texts).Lifetime log other := by
  unfold Backend.changeDocument
  cases texts.getLast? with
  | none => exact h.scheduleValidation b.documents fun _ => rfl
  | some text =>
    exact h.scheduleValidation _ fun hne => DocumentStore.document?_update_of_ne hne version text

theorem closeDocument (h : b.Lifetime log other) :
    (b.closeDocument uri).2.Lifetime (log.filter fun t => t.uri ≠ uri) other := by
  by_cases hother : other = uri
  · subst hother
    constructor
    · intro token version due hmem
      simp at hmem
    · intro timers job ht
      rw [show Keyed.get? other (b.closeDocument other).2.timers = none from
        Keyed.get?_erase_self other b.timers] at ht
      cases ht
  · refine h.congr (Keyed.get?_erase_of_ne hother _) (Keyed.get?_erase_of_ne hother _) rfl
      fun t ht => ?_
    simp [ht, hother]

theorem shutDown (h : b.Lifetime log uri) : b.shutDown.Lifetime log uri := by
  have hget : b.shutDown.timers.get? uri = (b.timers.get? uri).map DocumentTimers.cancelAll :=
    Keyed.get?_mapValues DocumentTimers.cancelAll uri b.timers
  cases ht : b.timers.get? uri with
  | none => exact h.congr (hget.trans (by rw [ht]; rfl)) rfl rfl fun _ _ => Iff.rfl
  | some timers =>
    apply h.of_idle (hget.trans (by rw [ht]; rfl)) rfl
    intro timers' ht'
    rw [ht] at ht'
    obtain rfl := Option.some.inj ht'
    rfl

end Lifetime

namespace Lifetime

theorem withoutTask (h : b.Lifetime log uri) (place : Nat) :
    (b.withoutTask place).Lifetime log uri :=
  h.congr rfl rfl rfl fun _ _ => Iff.rfl

/-- Claiming a validation leaves the projection as it is. -/
theorem claim {timers : DocumentTimers} (h : b.Lifetime log other)
    (htimers : b.timers.get? uri = some timers) (validation : Timer Unit) :
    { b with timers := Keyed.put uri ⟨validation, timers.projection⟩ b.timers }.Lifetime
      log other := by
  by_cases hother : other = uri
  · subst hother
    constructor
    · intro token version due hmem
      obtain ⟨timers', ht, hle⟩ := h.issued token version due hmem
      rw [htimers] at ht
      obtain rfl := Option.some.inj ht
      exact ⟨_, Keyed.get?_put_self .., hle⟩
    · intro timers' job ht hjob
      rw [Keyed.get?_put_self] at ht
      obtain rfl := Option.some.inj ht
      exact h.pending timers job htimers hjob
  · exact h.congr (Keyed.get?_put_of_ne hother ..) rfl rfl fun _ _ => Iff.rfl

/-- Queued diagnostics have a token of their own, under which the task that queued them knows their
version. -/
theorem queue {timers : DocumentTimers} {document : Document} (h : b.Lifetime log other)
    (htimers : b.timers.get? uri = some timers)
    (hdocument : b.documents.document? uri = some document) (validation : Timer Unit) (due : Nat) :
    { b with timers := Keyed.put uri ⟨validation, (timers.projection.schedule now
        (Diagnostic.project document.text (validate b.vocabulary document.text))).2⟩ b.timers
      }.Lifetime (log ++ [(⟨uri, .projection (timers.projection.issued + 1) document.version, due⟩ :
        SleepingTask)]) other := by
  by_cases hother : other = uri
  · subst hother
    have hissued : ∀ token version due, ⟨other, .projection token version, due⟩ ∈ log →
        token ≤ timers.projection.issued := by
      intro token version due hmem
      obtain ⟨timers', ht, hle⟩ := h.issued token version due hmem
      rw [htimers] at ht
      obtain rfl := Option.some.inj ht
      exact hle
    constructor
    · intro token version due hmem
      refine ⟨_, Keyed.get?_put_self .., ?_⟩
      show token ≤ timers.projection.issued + 1
      rcases List.mem_append.mp hmem with hmem | hmem
      · exact Nat.le_succ_of_le (hissued token version due hmem)
      · simp only [List.mem_singleton, SleepingTask.mk.injEq, TaskStage.projection.injEq] at hmem
        exact Nat.le_of_eq hmem.2.1.1
    · intro timers' job ht hjob
      rw [Keyed.get?_put_self] at ht
      obtain rfl := Option.some.inj ht
      obtain rfl := Option.some.inj hjob
      refine ⟨document, hdocument, rfl, fun version => ⟨?_, ?_⟩⟩
      · rintro rfl
        exact ⟨due, by simp⟩
      · rintro ⟨due', hmem⟩
        rcases List.mem_append.mp hmem with hmem | hmem
        · exact absurd (hissued _ _ _ hmem) (Nat.not_succ_le_self _)
        · simp only [List.mem_singleton, SleepingTask.mk.injEq, TaskStage.projection.injEq] at hmem
          exact hmem.2.1.2
  · refine h.congr (Keyed.get?_put_of_ne hother ..) rfl rfl fun t ht => ?_
    rw [List.mem_append, or_iff_left]
    intro hmem
    rw [List.mem_singleton] at hmem
    exact hother (ht.symm.trans (by rw [hmem]))

theorem runValidation (h : b.Lifetime log other) (token : Nat) :
    (b.runValidation now uri token).2.Lifetime
      (log ++ (b.runValidation now uri token).1.toList) other := by
  obtain hrun | ⟨timers, job, htimers, -, -, ⟨-, hrun⟩ | ⟨document, hdocument, hrun⟩⟩ :=
    runValidation_cases b now uri token
  · rw [hrun]
    simpa using h
  · rw [hrun]
    simpa using h.claim htimers timers.validation.cancelAll
  · rw [hrun]
    exact h.queue htimers hdocument timers.validation.cancelAll (now + b.options.projectionDelay)

theorem runProjection (h : b.Lifetime log other) (token : Nat) (version : Int) :
    (b.runProjection uri token version).2.Lifetime log other := by
  obtain hrun | ⟨timers, job, htimers, -, -, hrun⟩ := runProjection_cases b uri token version
  · rw [hrun]
    exact h
  · rw [hrun]
    by_cases hother : other = uri
    · subst hother
      refine h.of_idle (Keyed.get?_put_self ..) rfl fun timers' ht => ?_
      rw [htimers] at ht
      obtain rfl := Option.some.inj ht
      rfl
    · exact h.congr (Keyed.get?_put_of_ne hother ..) rfl rfl fun _ _ => Iff.rfl

theorem wake (h : b.Lifetime log other) (place : Nat) :
    (b.wake now place).2.Lifetime (b.note log (.wake now place)) other := by
  have hnote : b.note log (.wake now place) =
      log ++ (b.fallsAsleep? (.wake now place)).toList := rfl
  rw [hnote]
  obtain ⟨hwake, hnone⟩ | ⟨uri, token, due, -, -, hwake, hnext⟩ |
    ⟨uri, token, version, due, -, -, hwake, hnone⟩ := wake_cases b now place
  · rw [hwake, hnone]
    simpa using h
  · rw [hwake, hnext]
    exact ((h.withoutTask place).runValidation token).congr rfl rfl rfl fun _ _ => Iff.rfl
  · rw [hwake, hnone]
    simpa using (h.withoutTask place).runProjection token version

/-- Every event keeps to the lifetimes of all documents. -/
theorem step (h : b.Lifetime log other) (e : Event) :
    (b.step e).2.Lifetime (b.note log e) other := by
  have silent : ∀ e, b.fallsAsleep? e = none → log ++ (b.fallsAsleep? e).toList = log := by
    intro e he
    rw [he]
    exact List.append_nil log
  cases e with
  | openDocument now uri version text =>
    rw [note, silent _ rfl]
    · exact h.openDocument version text
    · simp
  | changeDocument now uri version texts =>
    rw [note, silent _ rfl]
    · exact h.changeDocument version texts
    · simp
  | closeDocument uri => exact h.closeDocument
  | shutDown =>
    rw [note, silent _ rfl]
    · exact h.shutDown
    · simp
  | wake now place => exact h.wake place

theorem after (h : b.Lifetime log other) (events : List Event) :
    (b.after events).Lifetime (b.current log events) other := by
  induction events generalizing b log with
  | nil => exact h
  | cons e events ih => exact ih (h.step e)

theorem start (v : Vocabulary) (o : SessionOptions) (uri : String) :
    (start v o).Lifetime [] uri := by
  constructor
  · intro token version due hmem
    cases hmem
  · intro timers job ht
    cases ht

end Lifetime

theorem vocabulary_step (b : Backend) (e : Event) : (b.step e).2.vocabulary = b.vocabulary := by
  obtain ⟨documents, timers, tasks, hstep⟩ := step_eq b e
  rw [hstep]

theorem vocabulary_after (b : Backend) (events : List Event) :
    (b.after events).vocabulary = b.vocabulary := by
  induction events generalizing b with
  | nil => rfl
  | cons e events ih => rw [after_cons, ih, vocabulary_step]

/-- Only the second part of a task publishes under a version. -/
theorem publication_cases {e : Event} {p : Publication} {version : Int}
    (hp : (b.step e).1 = some p) (hversion : p.version? = some version) :
    ∃ now place token due timers job, e = .wake now place ∧
      b.tasks[place]? = some ⟨p.uri, .projection token version, due⟩ ∧
      b.timers.get? p.uri = some timers ∧ timers.projection.pending? = some job ∧
      job.token = token ∧ p.diagnostics = job.payload := by
  cases e with
  | wake now place =>
    have hp' : (b.wake now place).1 = some p := hp
    obtain ⟨hwake, -⟩ | ⟨uri, token, due, -, -, hwake, -⟩ |
      ⟨uri, token, version', due, htask, -, hwake, -⟩ := wake_cases b now place
    · rw [hwake] at hp'
      cases hp'
    · rw [hwake] at hp'
      cases hp'
    · rw [hwake] at hp'
      obtain hrun | ⟨timers, job, htimers, hjob, htoken, hrun⟩ :=
        runProjection_cases (b.withoutTask place) uri token version'
      · rw [hrun] at hp'
        cases hp'
      · rw [hrun] at hp'
        obtain rfl := Option.some.inj hp'
        obtain rfl := Option.some.inj hversion
        exact ⟨now, place, token, due, timers, job, rfl, htask, htimers, hjob, htoken, rfl⟩
  | closeDocument uri =>
    obtain rfl := Option.some.inj hp
    cases hversion
  | _ => cases hp

/-- What a task publishes is about the text that the store holds. It names the version of that text
exactly if a task with its token and version has validated the document since it was last closed. -/
theorem publication_version_iff (v : Vocabulary) (o : SessionOptions) (events : List Event)
    (e : Event) {p : Publication} {version : Int}
    (hp : (((start v o).after events).step e).1 = some p) (hversion : p.version? = some version) :
    ∃ document, ((start v o).after events).documents.document? p.uri = some document ∧
      p.diagnostics = Diagnostic.project document.text (validate v document.text) ∧
      ∃ now place token due, e = .wake now place ∧
        ((start v o).after events).tasks[place]? = some ⟨p.uri, .projection token version, due⟩ ∧
        (version = document.version ↔
          ∃ due', ⟨p.uri, .projection token version, due'⟩ ∈ (start v o).current [] events) := by
  obtain ⟨now, place, token, due, timers, job, he, htask, htimers, hjob, rfl, hpayload⟩ :=
    publication_cases hp hversion
  obtain ⟨document, hdocument, hproject, hiff⟩ :=
    ((Lifetime.start v o p.uri).after events).pending timers job htimers hjob
  rw [vocabulary_after] at hproject
  exact ⟨document, hdocument, hpayload.trans hproject, now, place, job.token, due, he, htask,
    hiff version⟩

/-- A document is opened, and validated at once. -/
def opened : List Event :=
  [.openDocument 0 "query" 1 [], .wake 0 0]

theorem publication_opened :
    ∃ p document, (((start .builtin ⟨0, 100, 200⟩).after opened).step (.wake 100 0)).1 = some p ∧
      p.version? = some 1 ∧
      ((start .builtin ⟨0, 100, 200⟩).after opened).documents.document? p.uri = some document ∧
      p.diagnostics = Diagnostic.project document.text (validate .builtin document.text) := by
  have hp : (((start .builtin ⟨0, 100, 200⟩).after opened).step (.wake 100 0)).1 =
      some ⟨"query", Diagnostic.project [] (validate .builtin []), some 1⟩ := rfl
  obtain ⟨document, hdocument, hproject, -⟩ :=
    publication_version_iff .builtin ⟨0, 100, 200⟩ opened (.wake 100 0) hp rfl
  exact ⟨_, document, hp, rfl, hdocument, hproject⟩

/-- The document is closed and opened again while the task sleeps, and validated at once. -/
def reopened : List Event :=
  opened ++ [.closeDocument "query", .openDocument 50 "query" 5 ['f', 'o', 'o'], .wake 50 1]

/-- The old task takes the new diagnostics and publishes them under the old version. -/
theorem publication_reopened :
    (((start .builtin ⟨0, 100, 200⟩).after reopened).step (.wake 100 0)).1 =
        some ⟨"query", Diagnostic.project ['f', 'o', 'o'] (validate .builtin ['f', 'o', 'o']),
          some 1⟩ ∧
      ((start .builtin ⟨0, 100, 200⟩).after reopened).documents.document? "query" =
        some ⟨5, ['f', 'o', 'o']⟩ :=
  ⟨rfl, rfl⟩

end Backend

end PromqlAssist
