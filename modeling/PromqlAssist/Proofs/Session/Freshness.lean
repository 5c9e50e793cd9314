import PromqlAssist.Proofs.Session.Submission

/-!
# How current the findings are

A session takes findings over when a validation is due and when it refuses a run, and keeps them
otherwise. So they are those of the text that was validated last in one of these ways. A run that is
accepted validates its text as well, but the session does not take note of it: older findings stay.
-/

namespace PromqlAssist

namespace Session

theorem findings_validateDue (s : Session) (now : Nat) : (s.validateDue now).findings =
    ((s.validation.fire now).1.map fun due => validate s.vocabulary due.2).getD s.findings := by
  unfold validateDue
  split
  · rename_i hfire
    rw [hfire]
    rfl
  · rename_i hfire
    rw [hfire]
    rfl

theorem findings_tick (s : Session) (now : Nat) :
    (s.tick now).2.findings = (s.validateDue now).findings := by
  simp only [tick]
  split
  · rfl
  · rfl

end Session

namespace Workbench

/-- The text whose findings a session takes over at a step. -/
def validated? (w : Workbench) : Step → Option Text
  | .tick now => (w.session.validation.fire now).1.map (·.2)
  | .run false =>
    if validate w.session.vocabulary w.editor.text = [] then none else some w.editor.text
  | _ => none

/-- The text whose findings were taken over last among steps, or before them. -/
def lastValidated? (w : Workbench) (before? : Option Text) : List Step → Option Text
  | [] => before?
  | s :: steps => lastValidated? (w.step s).2 ((w.validated? s).or before?) steps

/-- What the findings of a session are, and what a run makes of them, for all runs of steps that
start at a workbench. -/
structure FreshnessLaw (v : Vocabulary) (w : Workbench) : Prop where
  /-- The findings are those of the text that was validated last. -/
  findings_eq : ∀ steps, (w.after steps).session.findings =
    ((w.lastValidated? none steps).map (validate v)).getD []
  /-- A run that is refused for its text leaves the findings of this text. -/
  refused : ∀ steps, validate v (w.after steps).editor.text ≠ [] →
    ((w.after steps).step (.run false)).2.session.findings =
      validate v (w.after steps).editor.text
  /-- A run that is accepted leaves the findings that there were. -/
  accepted : ∀ steps, validate v (w.after steps).editor.text = [] →
    ((w.after steps).step (.run false)).1.answer = .submitted (w.after steps).editor.text ∧
      ((w.after steps).step (.run false)).2.session.findings = (w.after steps).session.findings
  /-- A run leaves the findings of its text if it has some, or the text validated last has none. -/
  current_iff : ∀ steps,
    ((w.after steps).step (.run false)).2.session.findings =
        validate v (w.after steps).editor.text ↔
      validate v (w.after steps).editor.text ≠ [] ∨
        ∀ text, w.lastValidated? none steps = some text → validate v text = []

variable {v : Vocabulary} {o : SessionOptions} {w : Workbench} {p : Stage} {s : Step}
variable {steps : List Step} {last? : Option Text}

/-! ## One step -/

/-- A step that is neither a tick nor a run leaves the findings alone. -/
theorem findings_step_of_ne (w : Workbench) (htick : ∀ now, s ≠ .tick now)
    (hrun : ∀ menuOpen, s ≠ .run menuOpen) :
    (w.step s).2.session.findings = w.session.findings := by
  cases s with
  | tick now => exact absurd rfl (htick now)
  | run menuOpen => exact absurd rfl (hrun menuOpen)
  | insertLabel label now =>
    rw [step]
    split
    · rfl
    · rfl
  | insert proposal now =>
    rw [step]
    split
    · rfl
    · rfl
  | _ => rfl

theorem findings_step (w : Workbench) (s : Step) : (w.step s).2.session.findings =
    ((w.validated? s).map (validate w.session.vocabulary)).getD w.session.findings := by
  cases s with
  | tick now =>
    show (w.session.tick now).2.findings = _
    rw [Session.findings_tick, Session.findings_validateDue, validated?, Option.map_map]
    rfl
  | run menuOpen =>
    have hcase := runCase_step w menuOpen
    generalize w.step (.run menuOpen) = r at hcase
    cases hcase with
    | menuOpen => rfl
    | hasFindings hfound =>
      rw [validated?, if_neg hfound]
      rfl
    | accepted hfound =>
      rw [validated?, if_pos hfound]
      rfl
  | _ => exact findings_step_of_ne w (by simp) (by simp)

theorem step_of_no_findings (hvocabulary : w.session.vocabulary = v)
    (h : validate v w.editor.text = []) :
    (w.step (.run false)).1.answer = .submitted w.editor.text ∧
      (w.step (.run false)).2.session.findings = w.session.findings := by
  have hanswer : (w.step (.run false)).1.answer = .submitted w.editor.text :=
    (submitted_iff w (.run false) w.editor.text).mpr ⟨rfl, hvocabulary.symm ▸ h, rfl⟩
  refine ⟨hanswer, ?_⟩
  rw [step_of_submitted hanswer]

/-- Behind a run the findings are current if the text has some, or if there were none before. -/
theorem findings_run_iff (hvocabulary : w.session.vocabulary = v) :
    (w.step (.run false)).2.session.findings = validate v w.editor.text ↔
      validate v w.editor.text ≠ [] ∨ w.session.findings = [] := by
  by_cases hfound : validate v w.editor.text = []
  · rw [(step_of_no_findings hvocabulary hfound).2, hfound]
    simp
  · exact iff_of_true (step_of_findings hvocabulary hfound).2 (.inl hfound)

/-! ## A run of steps -/

theorem findings_after (hw : w.Follows v o p)
    (hfindings : w.session.findings = (last?.map (validate v)).getD []) :
    (w.after steps).session.findings =
      ((w.lastValidated? last? steps).map (validate v)).getD [] := by
  induction steps generalizing w p last? with
  | nil => exact hfindings
  | cons s steps ih =>
    rw [after_cons, lastValidated?]
    apply ih (hw.step s)
    rw [findings_step, hw.session.vocabulary, hfindings]
    cases w.validated? s with
    | some text => rfl
    | none => rfl

/-- Sessions keep to this in every run from the start. -/
theorem freshnessLaw_start (v : Vocabulary) (o : SessionOptions) (capacity : Nat) :
    FreshnessLaw v (start v o capacity) := by
  have hvocabulary : ∀ steps, ((start v o capacity).after steps).session.vocabulary = v :=
    fun steps => ((follows_start v o capacity).after steps).session.vocabulary
  have hfindings : ∀ steps, ((start v o capacity).after steps).session.findings =
      (((start v o capacity).lastValidated? none steps).map (validate v)).getD [] :=
    fun steps => findings_after (follows_start v o capacity) rfl
  constructor
  case findings_eq => exact hfindings
  case refused =>
    intro steps hfound
    exact (step_of_findings (hvocabulary steps) hfound).2
  case accepted =>
    intro steps hfound
    exact step_of_no_findings (hvocabulary steps) hfound
  case current_iff =>
    intro steps
    rw [findings_run_iff (hvocabulary steps), hfindings steps]
    apply or_congr_right
    cases (start v o capacity).lastValidated? none steps with
    | none => simp
    | some text => simp

/-- The findings of a refused run are still there when the text has been mended and run. -/
theorem findings_ne_of_mendedRun :
    let w := (start .builtin .default 1).after
      [.show ['u', 'p', '{'] 3, .run false, .show ['u', 'p'] 2]
    (w.step (.run false)).1.answer = .submitted ['u', 'p'] ∧
      validate .builtin w.editor.text = [] ∧
        (w.step (.run false)).2.session.findings ≠ validate .builtin w.editor.text := by
  decide +kernel

end Workbench

end PromqlAssist
