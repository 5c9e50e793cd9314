import PromqlAssist.Proofs.Server.Timers

/-!
# Closed documents stay clear

Closing a document gives up its timers, and shutting down drops all that waits. From then on no task
finds a job of the document, in whichever of its two delays it sleeps, so that nothing is published
for it but what clears it, until it is opened or changed again.
-/

namespace PromqlAssist

theorem Timer.Keeps.idle {α : Type} {t t' : Timer α} (h : t.Keeps t') (idle : t.pending? = none) :
    t'.pending? = none := by
  obtain rfl | rfl := h
  · exact idle
  · rfl

/-- Timers of a document for which no job waits. -/
structure DocumentTimers.Idle (t : DocumentTimers) : Prop where
  validation : t.validation.pending? = none
  projection : t.projection.pending? = none

namespace Backend

variable {b : Backend} {uri : String} {e : Event} {events : List Event}

/-- Only an edit of a document queues a job for it when none waits. -/
theorem Change.idle {timers : DocumentTimers} (hchange : b.Change uri e timers)
    (h : (b.timersOf uri).Idle) (unedited : e.edits uri = false) : timers.Idle := by
  cases hchange with
  | edit now edits => rw [edits] at unedited; cases unedited
  | close => exact ⟨rfl, rfl⟩
  | queue now version ds edits closes hnow waits => rw [h.validation] at waits; cases waits
  | quiet _ edits closes asleep validation projection =>
    exact ⟨validation.idle h.validation, projection.idle h.projection⟩

/-- The document of a task that publishes has timers with a job. -/
theorem runProjection_of_idle (h : (b.timersOf uri).Idle) (token : Nat) (version : Int) :
    b.runProjection uri token version = (none, b) := by
  obtain hrun | ⟨timers, job, hget, hjob, -, -⟩ := runProjection_cases b uri token version
  · exact hrun
  · rw [← timersOf_of_get? hget, h.projection] at hjob
    cases hjob

/-- For an idle document only what clears it is published, when it is closed. -/
theorem filter_publication_of_idle (h : (b.timersOf uri).Idle) (e : Event) :
    (b.step e).1.toList.filter (fun p => p.uri = uri) =
      List.replicate (if e.closes uri then 1 else 0) ⟨uri, [], none⟩ := by
  cases e with
  | closeDocument closed =>
    by_cases hclosed : closed = uri
    · subst hclosed
      simp [step, closeDocument, Event.closes]
    · simp [step, closeDocument, Event.closes, hclosed]
  | wake now place =>
    show (b.wake now place).1.toList.filter _ = []
    obtain ⟨hwake, -⟩ | ⟨woken, token, due, -, -, hwake, -⟩ |
      ⟨woken, token, version, due, -, -, hwake, -⟩ := wake_cases b now place
    · rw [hwake]; rfl
    · rw [hwake]; rfl
    · rw [hwake]
      by_cases hwoken : woken = uri
      · subst hwoken
        rw [runProjection_of_idle (b := b.withoutTask place) h]
        rfl
      · obtain hrun | ⟨timers, job, -, -, -, hrun⟩ :=
          runProjection_cases (b.withoutTask place) woken token version
        · rw [hrun]; rfl
        · rw [hrun]; simp [hwoken]
  | _ => rfl

theorem filter_publications_of_idle (h : (b.timersOf uri).Idle)
    (unedited : ∀ e ∈ events, e.edits uri = false) :
    (b.publications events).filter (fun p => p.uri = uri) =
      List.replicate (events.countP (·.closes uri)) ⟨uri, [], none⟩ := by
  induction events generalizing b with
  | nil => rfl
  | cons e events ih =>
    rw [List.forall_mem_cons] at unedited
    have later := ih ((b.change_step uri e).idle h unedited.1) unedited.2
    rw [publications, List.filter_append, filter_publication_of_idle h, later,
      List.replicate_append_replicate, List.countP_cons, Nat.add_comm]

/-- Whatever happened before, and whatever tasks sleep, a document that is closed, or any document
when the server is shut down, has nothing published from then on but what clears it, once for each
time that it is closed, until it is opened or changed again. -/
theorem publications_silenced (b : Backend) (silenced : e = .closeDocument uri ∨ e = .shutDown)
    (unedited : ∀ e ∈ events, e.edits uri = false) :
    (b.publications (e :: events)).filter (fun p => p.uri = uri) =
      List.replicate ((e :: events).countP (·.closes uri)) ⟨uri, [], none⟩ := by
  rcases silenced with rfl | rfl
  · have idle : ((b.step (.closeDocument uri)).2.timersOf uri).Idle := by
      rw [timersOf_closed]
      exact ⟨rfl, rfl⟩
    have clearing : (b.step (.closeDocument uri)).1.toList.filter (fun p => p.uri = uri) =
        List.replicate 1 ⟨uri, [], none⟩ := by
      simp [step, closeDocument]
    rw [publications, List.filter_append, clearing, filter_publications_of_idle idle unedited,
      List.replicate_append_replicate, List.countP_cons_of_pos (by simp [Event.closes]),
      Nat.add_comm]
  · have idle : ((b.step .shutDown).2.timersOf uri).Idle := by
      rw [timersOf_shutDown]
      exact ⟨rfl, rfl⟩
    exact filter_publications_of_idle (b := (b.step .shutDown).2) idle unedited

/-- Two tasks of a query sleep, one in each delay, beside one of another document. -/
def asleepTwice : Backend :=
  (start .builtin ⟨100, 100, 200⟩).after
    [.openDocument 0 "query" 1 ['u', 'p'], .changeDocument 0 "query" 2 [['u']],
      .openDocument 20 "other" 1 [], .wake 100 1]

/-- The query is closed, all tasks wake up, and it is closed once more. -/
def closedTwice : List Event :=
  [.wake 200 0, .wake 200 1, .wake 220 0, .wake 320 0, .closeDocument "query"]

theorem publications_closedTwice :
    asleepTwice.tasks = [⟨"query", .validation 1, 100⟩, ⟨"other", .validation 1, 120⟩,
        ⟨"query", .projection 1 2, 200⟩] ∧
      (asleepTwice.step (.wake 200 2)).1.isSome ∧
      (asleepTwice.publications (.closeDocument "query" :: closedTwice)).filter
        (fun p => p.uri = "query") = [⟨"query", [], none⟩, ⟨"query", [], none⟩] := by
  refine ⟨by decide +kernel, by decide +kernel, ?_⟩
  rw [publications_silenced asleepTwice (.inl rfl) (by decide)]
  rfl

end Backend

end PromqlAssist
