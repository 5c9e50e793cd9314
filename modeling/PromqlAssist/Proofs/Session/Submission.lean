import PromqlAssist.Proofs.Session.Projection

/-!
# Which queries are run

A query is run exactly when the completion menu is closed and a fresh validation of the text in the
editor finds nothing, whatever waits at the timers. A refusal changes nothing but the findings. So
the log of a run of steps is the list of the texts that were accepted, and the history is its end.
-/

namespace PromqlAssist

namespace History

variable {α : Type} {h : History α} {log : List α}

/-- Whether a history holds the newest entries of a log, as many as it has room for. -/
structure Ends (h : History α) (log : List α) : Prop where
  suffix : h.entries <:+ log
  length_eq : h.entries.length = min h.capacity log.length

theorem ends_ofCapacity (capacity : Nat) : (ofCapacity capacity : History α).Ends [] where
  suffix := List.nil_suffix
  length_eq := (Nat.min_zero capacity).symm

@[simp] theorem capacity_append (h : History α) (x : α) : (h.append x).capacity = h.capacity := rfl

theorem append_of_full (h : History α) (x : α) (full : h.entries.length = h.capacity) :
    (h.append x).entries = h.entries.drop 1 ++ [x] := by
  show (if _ then _ else _) ++ [x] = _
  rw [if_pos full]

theorem append_of_room (h : History α) (x : α) (room : h.entries.length ≠ h.capacity) :
    (h.append x).entries = h.entries ++ [x] := by
  show (if _ then _ else _) ++ [x] = _
  rw [if_neg room]

/-- An entry that is added to both takes the place of the oldest once the history is full. -/
theorem Ends.append (hends : h.Ends log) (positive : 1 ≤ h.capacity) (x : α) :
    (h.append x).Ends (log ++ [x]) := by
  have hlength := hends.length_eq
  have extend : ∀ entries : List α, entries <:+ log → entries ++ [x] <:+ log ++ [x] := by
    rintro entries ⟨front, rfl⟩
    exact ⟨front, (List.append_assoc front entries [x]).symm⟩
  by_cases hfull : h.entries.length = h.capacity
  · constructor
    · rw [append_of_full h x hfull]
      apply extend
      exact (List.drop_suffix 1 h.entries).trans hends.suffix
    · rw [append_of_full h x hfull, capacity_append]
      simp only [List.length_append, List.length_drop, List.length_singleton]
      omega
  · constructor
    · rw [append_of_room h x hfull]
      exact extend h.entries hends.suffix
    · rw [append_of_room h x hfull, capacity_append]
      simp only [List.length_append, List.length_singleton]
      omega

theorem Ends.entries_eq (hends : h.Ends log) :
    h.entries = log.drop (log.length - h.capacity) := by
  have hlength := hends.length_eq
  rw [List.suffix_iff_eq_drop.mp hends.suffix]
  congr 1
  omega

end History

namespace Workbench

/-- The text of an answer that says that a query was run. -/
def Answer.submitted? : Answer → Option Text
  | .submitted text => some text
  | _ => none

/-- The texts that are run in a list of steps, oldest first. -/
def submissions (w : Workbench) (steps : List Step) : List Text :=
  (w.run steps).filterMap fun r => r.1.answer.submitted?

/-- What the run action promises, for all runs of steps that start at a workbench. -/
structure RunLaw (v : Vocabulary) (capacity : Nat) (w : Workbench) : Prop where
  /-- A query is run by a run step alone, with the menu closed and no finding on the text that the
  editor holds at that moment. -/
  submits_iff : ∀ steps s text,
    ((w.after steps).step s).1.answer = .submitted text ↔
      s = .run false ∧ validate v (w.after steps).editor.text = [] ∧
        (w.after steps).editor.text = text
  /-- A query that is run is logged once and entered into the history once. -/
  records : ∀ steps s text, ((w.after steps).step s).1.answer = .submitted text →
    ((w.after steps).step s).2 =
      { w.after steps with
        submitted := (w.after steps).submitted ++ [text]
        history := (w.after steps).history.append text }
  /-- No other step touches the log or the history. -/
  keeps : ∀ steps s, (∀ text, ((w.after steps).step s).1.answer ≠ .submitted text) →
    ((w.after steps).step s).2.submitted = (w.after steps).submitted ∧
      ((w.after steps).step s).2.history = (w.after steps).history
  /-- A refusal leaves the log, the history, the editor and both timers alone, and one for the menu
  the findings as well. -/
  refuses : ∀ steps s why, ((w.after steps).step s).1.answer = .refused why →
    (∃ findings, ((w.after steps).step s).2 =
      { w.after steps with session := { (w.after steps).session with findings := findings } }) ∧
      (why = .menuOpen → ((w.after steps).step s).2 = w.after steps)
  /-- Under an open menu every query is refused. -/
  menu_open : ∀ steps, ((w.after steps).step (.run true)).1.answer = .refused .menuOpen
  /-- Under a closed menu it is refused for the findings that it has by now, which are kept. -/
  has_findings : ∀ steps, validate v (w.after steps).editor.text ≠ [] →
    ((w.after steps).step (.run false)).1.answer =
        .refused (.hasFindings (validate v (w.after steps).editor.text).length) ∧
      ((w.after steps).step (.run false)).2.session.findings =
        validate v (w.after steps).editor.text
  /-- The log is the list of all that was run. -/
  submitted_eq : ∀ steps, (w.after steps).submitted = w.submissions steps
  /-- The history holds the last of them, oldest first, as many as it has room for. -/
  history_eq : ∀ steps,
    (w.after steps).history.entries =
        (w.submissions steps).drop ((w.submissions steps).length - capacity) ∧
      (w.after steps).history.entries.length = min capacity (w.submissions steps).length

variable {v : Vocabulary} {o : SessionOptions} {w : Workbench} {s : Step} {steps : List Step}
variable {text : Text} {why : RunRefusal}

theorem submissions_cons (w : Workbench) (s : Step) (steps : List Step) :
    w.submissions (s :: steps) =
      (w.step s).1.answer.submitted?.toList ++ (w.step s).2.submissions steps := by
  show List.filterMap _ (w.step s :: _) = _
  rw [List.filterMap_cons]
  cases (w.step s).1.answer.submitted? with
  | none => rfl
  | some text => rfl

theorem submitted?_eq_some_iff {a : Answer} : a.submitted? = some text ↔ a = .submitted text := by
  cases a <;> simp [Answer.submitted?]

/-! ## One step -/

/-- What a run step does: it is refused for the menu, it is refused for findings, or the text is
logged. -/
inductive RunCase (w : Workbench) : Bool → Outcome × Workbench → Prop where
  | menuOpen : RunCase w true (⟨.refused .menuOpen, []⟩, w)
  | hasFindings (h : validate w.session.vocabulary w.editor.text ≠ []) : RunCase w false
      (⟨.refused (.hasFindings (validate w.session.vocabulary w.editor.text).length), []⟩,
        { w with session :=
          { w.session with findings := validate w.session.vocabulary w.editor.text } })
  | accepted (h : validate w.session.vocabulary w.editor.text = []) : RunCase w false
      (⟨.submitted w.editor.text, []⟩,
        { w with
          submitted := w.submitted ++ [w.editor.text]
          history := w.history.append w.editor.text })

theorem runCase_step (w : Workbench) (menuOpen : Bool) :
    RunCase w menuOpen (w.step (.run menuOpen)) := by
  cases menuOpen with
  | true => exact .menuOpen
  | false =>
    cases hfound : validate w.session.vocabulary w.editor.text with
    | nil =>
      have hrun : w.session.run w.editor.text false = (.ok (), w.session) := by
        simp [Session.run, hfound]
      simp only [step, hrun]
      exact .accepted hfound
    | cons f fs =>
      have hrun : w.session.run w.editor.text false =
          (.error (.hasFindings (f :: fs).length), { w.session with findings := f :: fs }) := by
        simp [Session.run, hfound]
      simp only [step, hrun]
      rw [← hfound]
      exact .hasFindings (by simp [hfound])

/-- A step that is no run neither runs nor refuses a query, and leaves log and history alone. -/
structure Unrelated (w : Workbench) (r : Outcome × Workbench) : Prop where
  submitted?_eq : r.1.answer.submitted? = none
  not_refused : ∀ why, r.1.answer ≠ .refused why
  submitted_eq : r.2.submitted = w.submitted
  history_eq : r.2.history = w.history

theorem unrelated_noteEdit (w : Workbench) (editor : Editor) (now : Nat) :
    Unrelated w ({ w with editor := editor }.noteEdit now) where
  submitted?_eq := rfl
  not_refused := by
    intro why hanswer
    cases hanswer
  submitted_eq := rfl
  history_eq := rfl

theorem unrelated_step (w : Workbench) (hs : ∀ menuOpen, s ≠ .run menuOpen) :
    Unrelated w (w.step s) := by
  cases s with
  | «show» text cursor => exact ⟨rfl, by simp [step], rfl, rfl⟩
  | edit text cursor now => exact unrelated_noteEdit w _ now
  | tick now => exact ⟨rfl, by simp [step], rfl, rfl⟩
  | complete => exact ⟨rfl, by simp [step], rfl, rfl⟩
  | insertLabel label now =>
    rw [step]
    split
    · exact unrelated_noteEdit w _ now
    · exact ⟨rfl, by simp, rfl, rfl⟩
  | insert p now =>
    rw [step]
    split
    · exact unrelated_noteEdit w _ now
    · exact ⟨rfl, by simp, rfl, rfl⟩
  | run menuOpen => exact absurd rfl (hs menuOpen)

theorem submitted_iff (w : Workbench) (s : Step) (text : Text) :
    (w.step s).1.answer = .submitted text ↔
      s = .run false ∧ validate w.session.vocabulary w.editor.text = [] ∧
        w.editor.text = text := by
  by_cases hs : ∃ menuOpen, s = .run menuOpen
  · obtain ⟨menuOpen, rfl⟩ := hs
    generalize hr : w.step (.run menuOpen) = r
    have hcase := hr ▸ runCase_step w menuOpen
    cases hcase with
    | menuOpen => simp
    | hasFindings hfound => simp [hfound]
    | accepted hfound => simp [hfound]
  · have hstep := unrelated_step w fun menuOpen heq => hs ⟨menuOpen, heq⟩
    constructor
    · intro hanswer
      have hnone := hstep.submitted?_eq
      rw [hanswer] at hnone
      cases hnone
    · rintro ⟨rfl, -⟩
      exact absurd ⟨false, rfl⟩ hs

/-- What was run is logged and entered, and nothing else in the workbench moves. -/
theorem step_of_submitted (h : (w.step s).1.answer = .submitted text) :
    (w.step s).2 =
      { w with submitted := w.submitted ++ [text], history := w.history.append text } := by
  obtain ⟨rfl, hfound, rfl⟩ := (submitted_iff w s text).mp h
  have hcase := runCase_step w false
  generalize w.step (.run false) = r at hcase
  cases hcase with
  | hasFindings hne => exact absurd hfound hne
  | accepted _ => rfl

theorem step_of_not_submitted (h : ∀ text, (w.step s).1.answer ≠ .submitted text) :
    (w.step s).2.submitted = w.submitted ∧ (w.step s).2.history = w.history := by
  by_cases hs : ∃ menuOpen, s = .run menuOpen
  · obtain ⟨menuOpen, rfl⟩ := hs
    have hcase := runCase_step w menuOpen
    generalize w.step (.run menuOpen) = r at h hcase
    cases hcase with
    | menuOpen => exact ⟨rfl, rfl⟩
    | hasFindings _ => exact ⟨rfl, rfl⟩
    | accepted _ => exact absurd rfl (h w.editor.text)
  · have hstep := unrelated_step w fun menuOpen heq => hs ⟨menuOpen, heq⟩
    exact ⟨hstep.submitted_eq, hstep.history_eq⟩

theorem step_of_refused (h : (w.step s).1.answer = .refused why) :
    (∃ findings, (w.step s).2 = { w with session := { w.session with findings := findings } }) ∧
      (why = .menuOpen → (w.step s).2 = w) := by
  by_cases hs : ∃ menuOpen, s = .run menuOpen
  · obtain ⟨menuOpen, rfl⟩ := hs
    have hcase := runCase_step w menuOpen
    generalize w.step (.run menuOpen) = r at h hcase
    cases hcase with
    | menuOpen => exact ⟨⟨w.session.findings, rfl⟩, fun _ => rfl⟩
    | hasFindings _ =>
      obtain rfl := Answer.refused.inj h
      exact ⟨⟨_, rfl⟩, by simp⟩
    | accepted _ => cases h
  · exact absurd h ((unrelated_step w fun menuOpen heq => hs ⟨menuOpen, heq⟩).not_refused why)

theorem step_of_findings (hvocabulary : w.session.vocabulary = v)
    (h : validate v w.editor.text ≠ []) :
    (w.step (.run false)).1.answer = .refused (.hasFindings (validate v w.editor.text).length) ∧
      (w.step (.run false)).2.session.findings = validate v w.editor.text := by
  subst hvocabulary
  have hcase := runCase_step w false
  generalize w.step (.run false) = r at hcase
  cases hcase with
  | hasFindings _ => exact ⟨rfl, rfl⟩
  | accepted hnil => exact absurd hnil h

/-! ## A run of steps -/

/-- A workbench whose history is the end of its log. -/
structure Recorded (capacity : Nat) (w : Workbench) : Prop where
  capacity_eq : w.history.capacity = capacity
  ends : w.history.Ends w.submitted

theorem recorded_start (v : Vocabulary) (o : SessionOptions) (capacity : Nat) :
    (start v o capacity).Recorded capacity where
  capacity_eq := rfl
  ends := History.ends_ofCapacity capacity

/-- The log grows by what the step runs. -/
theorem submitted_step (w : Workbench) (s : Step) :
    (w.step s).2.submitted = w.submitted ++ (w.step s).1.answer.submitted?.toList := by
  cases hanswer : (w.step s).1.answer.submitted? with
  | some text =>
    rw [step_of_submitted (submitted?_eq_some_iff.mp hanswer)]
    rfl
  | none =>
    have hnot : ∀ text, (w.step s).1.answer ≠ .submitted text := by
      intro text heq
      rw [heq] at hanswer
      cases hanswer
    rw [(step_of_not_submitted hnot).1]
    exact (List.append_nil _).symm

theorem Recorded.step {capacity : Nat} (h : w.Recorded capacity) (positive : 1 ≤ capacity)
    (s : Step) : (w.step s).2.Recorded capacity := by
  by_cases hsubmitted : ∃ text, (w.step s).1.answer = .submitted text
  · obtain ⟨text, hanswer⟩ := hsubmitted
    rw [step_of_submitted hanswer]
    exact ⟨h.capacity_eq, h.ends.append (h.capacity_eq.symm ▸ positive) text⟩
  · have hnot : ∀ text, (w.step s).1.answer ≠ .submitted text :=
      fun text heq => hsubmitted ⟨text, heq⟩
    obtain ⟨hlog, hhistory⟩ := step_of_not_submitted hnot
    constructor
    · rw [hhistory, h.capacity_eq]
    · rw [hhistory, hlog]
      exact h.ends

theorem Recorded.after {capacity : Nat} (h : w.Recorded capacity) (positive : 1 ≤ capacity)
    (steps : List Step) : (w.after steps).Recorded capacity := by
  induction steps generalizing w with
  | nil => exact h
  | cons s steps ih => exact ih (h.step positive s)

theorem submitted_after (w : Workbench) (steps : List Step) :
    (w.after steps).submitted = w.submitted ++ w.submissions steps := by
  induction steps generalizing w with
  | nil => exact (List.append_nil _).symm
  | cons s steps ih => rw [after_cons, ih, submitted_step, submissions_cons, List.append_assoc]

/-- Sessions keep this promise in every run from the start, with any room in the history. -/
theorem runLaw_start (v : Vocabulary) (o : SessionOptions) {capacity : Nat}
    (positive : 1 ≤ capacity) : RunLaw v capacity (start v o capacity) := by
  have hvocabulary : ∀ steps, ((start v o capacity).after steps).session.vocabulary = v :=
    fun steps => ((follows_start v o capacity).after steps).session.vocabulary
  have hlog : ∀ steps, ((start v o capacity).after steps).submitted =
      (start v o capacity).submissions steps :=
    fun steps => submitted_after (start v o capacity) steps
  constructor
  case submits_iff =>
    intro steps s text
    rw [submitted_iff, hvocabulary]
  case records =>
    intro steps s text hanswer
    exact step_of_submitted hanswer
  case keeps =>
    intro steps s hnot
    exact step_of_not_submitted hnot
  case refuses =>
    intro steps s why hanswer
    exact step_of_refused hanswer
  case menu_open =>
    intro steps
    rfl
  case has_findings =>
    intro steps hfound
    exact step_of_findings (hvocabulary steps) hfound
  case submitted_eq => exact hlog
  case history_eq =>
    intro steps
    have hrecorded := (recorded_start v o capacity).after positive steps
    have hentries := hrecorded.ends.entries_eq
    have hlength := hrecorded.ends.length_eq
    rw [hrecorded.capacity_eq, hlog] at hentries hlength
    exact ⟨hentries, hlength⟩

/-- Of four runs the first and the last are accepted, one is refused for its text and one for the
menu; there is room for one entry. -/
theorem runLaw_start_fourRuns :
    let w := start .builtin .default 1
    let steps := [.show ['u', 'p'] 2, .run false, .show ['u', 'p', '{'] 3, .run false,
      .show ['(', 'u', 'p', ')'] 4, .run true, .run false]
    1 ≤ 1 ∧ RunLaw .builtin 1 w ∧ w.submissions steps = [['u', 'p'], ['(', 'u', 'p', ')']] ∧
      (w.after steps).history.entries = [['(', 'u', 'p', ')']] := by
  have hlaw := runLaw_start .builtin .default (Nat.le_refl 1)
  have hlog : (start .builtin .default 1).submissions [.show ['u', 'p'] 2, .run false,
      .show ['u', 'p', '{'] 3, .run false, .show ['(', 'u', 'p', ')'] 4, .run true, .run false] =
      [['u', 'p'], ['(', 'u', 'p', ')']] := by
    decide +kernel
  refine ⟨Nat.le_refl 1, hlaw, hlog, ?_⟩
  rw [(hlaw.history_eq _).1, hlog]
  rfl

end Workbench

end PromqlAssist
