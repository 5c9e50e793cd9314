import PromqlAssist.Proofs.Session.Stage
import PromqlAssist.Proofs.Session.Trace

/-!
# When findings are shown

Whatever the steps of a run, their times and the delays: the markers that a tick shows are those of
the text of the last edit, they are shown once, not before both delays have passed, and not much
later if time does not run backwards. The proof follows the stage of the session through the run.
-/

namespace PromqlAssist

namespace Workbench

/-- The markers of a text. -/
def markersOf (v : Vocabulary) (text : Text) : List Marker :=
  Marker.ofFindings Marker.defaultSource text (validate v text)

/-- What a debounced session promises its editor, for all runs that start at a workbench. -/
structure ProjectionLaw (v : Vocabulary) (o : SessionOptions) (w : Workbench) : Prop where
  /-- A tick that shows anything clears the markers once and sets those of the last edit once, both
  delays after it. -/
  shows_last : ∀ steps now, ((w.after steps).step (.tick now)).1.answer = .projected true →
    ∃ text time, w.lastEdit? none steps = some (text, time) ∧
      ((w.after steps).step (.tick now)).1.calls = [.clear, .set (markersOf v text)] ∧
      time + o.validationDelay + o.projectionDelay ≤ now
  /-- A tick that shows nothing leaves the markers alone. -/
  silent : ∀ steps now, ((w.after steps).step (.tick now)).1.answer = .projected false →
    ((w.after steps).step (.tick now)).1.calls = []
  /-- Without an edit in between, a second tick shows nothing. -/
  once : ∀ steps now rest later, ((w.after steps).step (.tick now)).1.answer = .projected true →
    ((w.after steps).step (.tick now)).2.Quiet rest →
    ((w.after (steps ++ .tick now :: rest)).step (.tick later)).1.answer = .projected false
  /-- An edit that is followed by a tick after its validation delay, and by another a projection
  delay later, is shown by then. -/
  settles : ∀ steps s text time between now rest later,
    let w₁ := w.after steps
    let following := between ++ .tick now :: (rest ++ [.tick later])
    w₁.edit? s = some (text, time) → (w₁.step s).2.Quiet following →
    ((s :: following).filterMap Step.now?).Pairwise (· ≤ ·) →
    time + o.validationDelay ≤ now → now + o.projectionDelay ≤ later →
    (w₁.step s).2.HasShown following ∧
      (w₁.after (s :: following)).session.isIdle ∧
      (w₁.after (s :: following)).editor.markers = markersOf v text

section Stages

variable (o : SessionOptions)

/-- The stage behind a step. -/
def nextStage (w : Workbench) (p : Stage) (s : Step) : Stage :=
  match w.edit? s, s with
  | some (text, time), _ => .edited text time
  | none, .tick now => p.tick o now
  | none, _ => p

/-- The stage behind a list of steps. -/
def stageAfter (w : Workbench) (p : Stage) : List Step → Stage
  | [] => p
  | s :: steps => stageAfter (w.step s).2 (w.nextStage o p s) steps

end Stages

variable {v : Vocabulary} {o : SessionOptions} {w : Workbench} {p : Stage} {s : Step}
variable {steps : List Step} {text : Text} {time now : Nat}

theorem nextStage_edit (h : w.edit? s = some (text, time)) :
    w.nextStage o p s = .edited text time := by
  simp only [nextStage, h]

theorem nextStage_tick (w : Workbench) (p : Stage) (now : Nat) :
    w.nextStage o p (.tick now) = p.tick o now := rfl

theorem nextStage_of_ne (h : w.edit? s = none) (hs : ∀ now, s ≠ .tick now) :
    w.nextStage o p s = p := by
  unfold nextStage
  split <;> simp_all

/-- Between edits only a tick moves a stage on. -/
theorem nextStage_quiet (o : SessionOptions) (p : Stage) (h : w.edit? s = none) :
    (∃ now, s = .tick now ∧ w.nextStage o p s = p.tick o now) ∨ w.nextStage o p s = p := by
  by_cases hs : ∃ now, s = .tick now
  · obtain ⟨now, rfl⟩ := hs
    exact .inl ⟨now, rfl, rfl⟩
  · exact .inr (nextStage_of_ne h fun now heq => hs ⟨now, heq⟩)

theorem stageAfter_append (first second : List Step) :
    w.stageAfter o p (first ++ second) =
      (w.after first).stageAfter o (w.stageAfter o p first) second := by
  induction first generalizing w p with
  | nil => rfl
  | cons s first ih =>
    simp only [List.cons_append, stageAfter, after_cons, ih]

theorem edit?_nextStage : (w.nextStage o p s).edit? = (w.edit? s).or p.edit? := by
  cases hedit : w.edit? s with
  | some e => rw [nextStage_edit hedit]; rfl
  | none =>
    unfold nextStage
    split <;> simp_all

/-- The stage keeps the last edit. -/
theorem edit?_stageAfter : (w.stageAfter o p steps).edit? = w.lastEdit? p.edit? steps := by
  induction steps generalizing w p with
  | nil => rfl
  | cons s steps ih => rw [stageAfter, ih, edit?_nextStage, lastEdit?]

/-- A workbench in a stage: its session is, and its editor shows what the stage says is shown. -/
structure Follows (v : Vocabulary) (o : SessionOptions) (w : Workbench) (p : Stage) : Prop where
  session : w.session.AtStage v o p
  punctual : p.Punctual o
  markers : ∀ text time, p = .shown text time → w.editor.markers = markersOf v text

theorem follows_start (v : Vocabulary) (o : SessionOptions) (capacity : Nat) :
    (start v o capacity).Follows v o .untouched where
  session := Session.atStage_start v o
  punctual := trivial
  markers := by simp

/-- A tick's outcome is read off the stage. -/
theorem Follows.outcome (h : w.Follows v o p) (now : Nat) :
    (w.step (.tick now)).1 = ⟨.projected (p.shows? o now).isSome,
      ((p.shows? o now).map fun text => [.clear, .set (markersOf v text)]).getD []⟩ := by
  obtain ⟨-, hcalls⟩ := h.session.tick now
  simp only [step, hcalls, Option.isSome_map]
  rfl

theorem Follows.tick (h : w.Follows v o p) (now : Nat) :
    (w.step (.tick now)).2.Follows v o (p.tick o now) where
  session := (h.session.tick now).1
  punctual := h.punctual.tick
  markers := by
    intro text time hshown
    obtain ⟨-, hcalls⟩ := h.session.tick now
    simp only [Workbench.step, hcalls]
    obtain hshows | ⟨hshows, hp⟩ := Stage.shows?_of_tick hshown
    · rw [hshows]
      rfl
    · rw [hshows]
      exact h.markers text time hp

/-- Every step keeps to the stages. -/
theorem Follows.step (h : w.Follows v o p) (s : Step) :
    (w.step s).2.Follows v o (w.nextStage o p s) := by
  obtain ⟨editor, now, hnow, hstep⟩ | ⟨now, rfl⟩ | ⟨⟨findings, hsession⟩, hmarkers, hedit, hs⟩ :=
    step_cases w s
  · rw [nextStage_edit (edit?_of_noteEdit hnow hstep), hstep]
    exact ⟨h.session.edit editor.text now, trivial, by simp⟩
  · exact h.tick now
  · rw [nextStage_of_ne hedit hs]
    refine ⟨?_, h.punctual, ?_⟩
    · rw [hsession]
      exact h.session.with_findings findings
    · rw [hmarkers]
      exact h.markers

theorem Follows.after (h : w.Follows v o p) (steps : List Step) :
    (w.after steps).Follows v o (w.stageAfter o p steps) := by
  induction steps generalizing w p with
  | nil => exact h
  | cons s steps ih => exact ih (h.step s)

theorem Follows.answer_eq_true_iff (h : w.Follows v o p) :
    (w.step (.tick now)).1.answer = .projected true ↔ (p.shows? o now).isSome := by
  rw [h.outcome]
  simp

theorem Follows.calls_eq_nil (h : w.Follows v o p)
    (hanswer : (w.step (.tick now)).1.answer = .projected false) :
    (w.step (.tick now)).1.calls = [] := by
  rw [h.outcome] at hanswer ⊢
  cases hshows : p.shows? o now with
  | none => rfl
  | some text => simp [hshows] at hanswer

/-- Without an edit a text stays settled. -/
theorem settled_stageAfter {limit : Nat} (hp : p.Settled text time limit) (h : w.Quiet steps) :
    (w.stageAfter o p steps).Settled text time limit := by
  induction steps generalizing w p with
  | nil => exact hp
  | cons s steps ih =>
    rw [stageAfter]
    obtain ⟨now, -, hnext⟩ | hnext := nextStage_quiet o p h.1
    · rw [hnext]
      exact ih (hp.tick o now) h.2
    · rw [hnext]
      exact ih hp h.2

/-- Without an edit what is shown stays shown. -/
theorem stageAfter_shown (h : w.Quiet steps) :
    w.stageAfter o (.shown text time) steps = .shown text time := by
  induction steps generalizing w with
  | nil => rfl
  | cons s steps ih =>
    rw [stageAfter]
    obtain ⟨now, -, hnext⟩ | hnext := nextStage_quiet o (.shown text time) h.1
    · rw [hnext]
      exact ih h.2
    · rw [hnext]
      exact ih h.2

/-- Up to a time, an edited text waits to be validated or was validated by then. -/
theorem stageAfter_edited {limit : Nat} (h : w.Quiet steps)
    (hlimit : ∀ now ∈ steps.filterMap Step.now?, now ≤ limit) :
    w.stageAfter o (.edited text time) steps = .edited text time ∨
      (w.stageAfter o (.edited text time) steps).Settled text time limit := by
  induction steps generalizing w with
  | nil => exact .inl rfl
  | cons s steps ih =>
    have hrest : ∀ now ∈ steps.filterMap Step.now?, now ≤ limit := by
      intro now hnow
      obtain ⟨s', hs', heq⟩ := List.mem_filterMap.mp hnow
      exact hlimit now (List.mem_filterMap.mpr ⟨s', List.mem_cons_of_mem s hs', heq⟩)
    rw [stageAfter]
    obtain ⟨now, rfl, hnext⟩ | hnext := nextStage_quiet o (.edited text time) h.1
    · rw [hnext]
      rcases Nat.lt_or_ge now (time + o.validationDelay) with hlt | hge
      · rw [Stage.tick_edited_of_lt hlt]
        exact ih h.2 hrest
      · have hnow : now ≤ limit := hlimit now (by simp [Step.now?])
        exact .inr (settled_stageAfter ((Stage.settled_tick_edited hge).mono hnow) h.2)
    · rw [hnext]
      exact ih h.2 hrest

/-- Markers that are shown behind steps were shown by a tick among them. -/
theorem hasShown_of_stageAfter (hw : w.Follows v o p) (h : w.Quiet steps)
    (hp : p ≠ .shown text time) (hshown : w.stageAfter o p steps = .shown text time) :
    w.HasShown steps := by
  induction steps generalizing w p with
  | nil => exact absurd hshown hp
  | cons s steps ih =>
    by_cases hnext : w.nextStage o p s = .shown text time
    · obtain ⟨now, rfl, htick⟩ | hsame := nextStage_quiet o p h.1
      · rw [htick] at hnext
        obtain hshows | ⟨-, heq⟩ := Stage.shows?_of_tick hnext
        · refine ⟨[], now, steps, rfl, ?_⟩
          rw [after_nil, hw.answer_eq_true_iff, hshows]
          rfl
        · exact absurd heq hp
      · exact absurd (hsame ▸ hnext) hp
    · exact (ih (hw.step s) h.2 hnext hshown).cons

/-- Behind an edit, a tick after its validation delay and another a projection delay later, the
text is shown. -/
theorem stageAfter_settles {between rest : List Step} {later : Nat}
    (hquiet : w.Quiet (between ++ .tick now :: (rest ++ [.tick later])))
    (hlimit : ∀ t ∈ between.filterMap Step.now?, t ≤ now)
    (hvalidation : time + o.validationDelay ≤ now) (hprojection : now + o.projectionDelay ≤ later) :
    w.stageAfter o (.edited text time) (between ++ .tick now :: (rest ++ [.tick later])) =
      .shown text time := by
  obtain ⟨hbetween, -, hbehind⟩ := quiet_append.mp hquiet
  obtain ⟨hrest, -⟩ := quiet_append.mp hbehind
  have hsettled : ((w.stageAfter o (.edited text time) between).tick o now).Settled
      text time now := by
    obtain hedited | hsettled := stageAfter_edited (o := o) hbetween hlimit
    · rw [hedited]
      exact Stage.settled_tick_edited hvalidation
    · exact hsettled.tick o now
  have hend := settled_stageAfter (o := o) hsettled hrest
  rw [stageAfter_append, stageAfter, nextStage_tick, stageAfter_append]
  exact hend.tick_eq_shown hprojection

/-- Sessions keep their promise in every run from the start. -/
theorem projectionLaw_start (v : Vocabulary) (o : SessionOptions) (capacity : Nat) :
    ProjectionLaw v o (start v o capacity) where
  shows_last := by
    intro steps now hanswer
    have hw := (follows_start v o capacity).after steps
    rw [hw.answer_eq_true_iff] at hanswer
    obtain ⟨text, hshows⟩ := Option.isSome_iff_exists.mp hanswer
    obtain ⟨time, hedit, hdelay, -⟩ := Stage.shows?_eq_some hshows hw.punctual
    rw [edit?_stageAfter] at hedit
    refine ⟨text, time, hedit, ?_, hdelay⟩
    rw [hw.outcome, hshows]
    rfl
  silent := by
    intro steps now hanswer
    exact ((follows_start v o capacity).after steps).calls_eq_nil hanswer
  once := by
    intro steps now rest later hanswer hquiet
    have hw := (follows_start v o capacity).after steps
    rw [hw.answer_eq_true_iff] at hanswer
    obtain ⟨text, hshows⟩ := Option.isSome_iff_exists.mp hanswer
    obtain ⟨time, -, -, htick⟩ := Stage.shows?_eq_some hshows hw.punctual
    have hrest := (hw.tick now).after rest
    rw [htick, stageAfter_shown hquiet] at hrest
    rw [after_append, after_cons, hrest.outcome]
    rfl
  settles := by
    intro steps s text time between now rest later w₁ following hedit hquiet htimes hval hproj
    have hw := ((follows_start v o capacity).after steps).step s
    rw [nextStage_edit hedit] at hw
    have hlimit : ∀ t ∈ between.filterMap Step.now?, t ≤ now := by
      have hfollowing := htimes.sublist ((List.sublist_cons_self s following).filterMap Step.now?)
      rw [List.filterMap_append, List.pairwise_append] at hfollowing
      intro t ht
      exact hfollowing.2.2 t ht now (by simp [Step.now?])
    have hshown : (w₁.step s).2.stageAfter o (.edited text time) following = .shown text time :=
      stageAfter_settles hquiet hlimit hval hproj
    have hend := hw.after following
    rw [hshown] at hend
    refine ⟨hasShown_of_stageAfter hw hquiet (by simp) hshown, ?_, hend.markers text time rfl⟩
    exact hend.session.isIdle_iff.mpr (.inr ⟨text, time, rfl⟩)

/-- The default delays, a first tick that is early, and one at each deadline. -/
theorem projectionLaw_start_edit :
    let w := start .builtin .default 10
    let steps := [.edit ['u', 'p', '{'] 3 0, .tick 299, .tick 300, .complete, .tick 450]
    (w.after steps).session.isIdle ∧
      (w.after steps).editor.markers = markersOf .builtin ['u', 'p', '{'] := by
  have hedit : ∀ w : Workbench,
      w.edit? (.edit ['u', 'p', '{'] 3 0) = some (['u', 'p', '{'], 0) := fun _ => rfl
  have hquiet : ∀ w : Workbench,
      w.Quiet ([.tick 299] ++ .tick 300 :: ([.complete] ++ [.tick 450])) :=
    fun _ => ⟨rfl, rfl, rfl, rfl, trivial⟩
  exact ((projectionLaw_start .builtin .default 10).settles [] _ _ 0 [.tick 299] 300 [.complete] 450
    (hedit _) (hquiet _) (by decide) (by decide) (by decide)).2

end Workbench

end PromqlAssist
