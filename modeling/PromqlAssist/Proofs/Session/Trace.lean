import PromqlAssist.Session.Workbench

/-!
# Runs of a workbench

A run is cut between two steps by the workbench that the steps before it leave. Of the steps only
those count as edits for which the session issued a token: a label that no proposal has and a span
that does not fit leave the session alone.
-/

namespace PromqlAssist

namespace Workbench

/-- The time that a step is given. -/
def Step.now? : Step → Option Nat
  | .edit _ _ now => some now
  | .tick now => some now
  | .insertLabel _ now => some now
  | .insert _ now => some now
  | _ => none

/-- The workbench behind a list of steps. -/
def after (w : Workbench) (steps : List Step) : Workbench :=
  steps.foldl (fun w s => (w.step s).2) w

/-- The text in the editor and the time, if a step is an edit. -/
def edit? (w : Workbench) (s : Step) : Option (Text × Nat) :=
  match (w.step s).1.answer with
  | .token _ => s.now?.map fun now => ((w.step s).2.editor.text, now)
  | _ => none

/-- The last edit among steps, or the one before them if there is none. -/
def lastEdit? (w : Workbench) (before? : Option (Text × Nat)) : List Step → Option (Text × Nat)
  | [] => before?
  | s :: steps => lastEdit? (w.step s).2 ((w.edit? s).or before?) steps

/-- Whether no step is an edit. -/
def Quiet (w : Workbench) : List Step → Prop
  | [] => True
  | s :: steps => w.edit? s = none ∧ Quiet (w.step s).2 steps

/-- Whether a tick among steps showed markers. -/
def HasShown (w : Workbench) (steps : List Step) : Prop :=
  ∃ earlier now later, steps = earlier ++ .tick now :: later ∧
    ((w.after earlier).step (.tick now)).1.answer = .projected true

variable {w : Workbench} {s : Step} {steps : List Step}

@[simp] theorem after_nil (w : Workbench) : w.after [] = w := rfl

@[simp] theorem after_cons (w : Workbench) (s : Step) (steps : List Step) :
    w.after (s :: steps) = (w.step s).2.after steps := rfl

@[simp] theorem after_append (w : Workbench) (first second : List Step) :
    w.after (first ++ second) = (w.after first).after second :=
  List.foldl_append

theorem quiet_append {first second : List Step} :
    w.Quiet (first ++ second) ↔ w.Quiet first ∧ (w.after first).Quiet second := by
  induction first generalizing w with
  | nil => simp [Quiet]
  | cons s first ih => simp [Quiet, ih, and_assoc]

theorem HasShown.cons (h : (w.step s).2.HasShown steps) : w.HasShown (s :: steps) := by
  obtain ⟨earlier, now, later, rfl, hshown⟩ := h
  exact ⟨s :: earlier, now, later, rfl, hshown⟩

/-- A run is refused, which may leave new findings, or changes nothing in the session. -/
theorem session_run_cases (s : Session) (text : Text) (menuOpen : Bool) :
    (∃ why findings, s.run text menuOpen = (.error why, { s with findings := findings })) ∨
      s.run text menuOpen = (.ok (), s) := by
  unfold Session.run
  split
  · exact .inl ⟨_, s.findings, rfl⟩
  · split
    · exact .inr rfl
    · exact .inl ⟨_, _, rfl⟩

/-- What a step can do: take an edit down, tick, or leave markers and timers alone. -/
theorem step_cases (w : Workbench) (s : Step) :
    (∃ editor now, s.now? = some now ∧
      w.step s = { w with editor := editor }.noteEdit now) ∨
    (∃ now, s = .tick now) ∨
    ((∃ findings, (w.step s).2.session = { w.session with findings := findings }) ∧
      (w.step s).2.editor.markers = w.editor.markers ∧ w.edit? s = none ∧
      ∀ now, s ≠ .tick now) := by
  cases s with
  | «show» text cursor => exact .inr (.inr ⟨⟨w.session.findings, rfl⟩, rfl, rfl, by simp⟩)
  | edit text cursor now =>
    exact .inl ⟨{ w.editor with text := text, cursor := cursor }, now, rfl, rfl⟩
  | tick now => exact .inr (.inl ⟨now, rfl⟩)
  | complete => exact .inr (.inr ⟨⟨w.session.findings, rfl⟩, rfl, rfl, by simp⟩)
  | insertLabel label now =>
    cases hfind : w.completions.find? fun p => p.label = label with
    | some p =>
      have hstep : w.step (.insertLabel label now) = w.insertProposal p now := by
        simp only [step, hfind]
      exact .inl ⟨w.editor.replace p.span p.plainText, now, rfl, hstep⟩
    | none =>
      have hstep : w.step (.insertLabel label now) = (⟨.noSuchProposal, []⟩, w) := by
        simp only [step, hfind]
      refine .inr (.inr ⟨⟨w.session.findings, ?_⟩, ?_, ?_, by simp⟩)
      · rw [hstep]
      · rw [hstep]
      · rw [edit?, hstep]
  | insert p now =>
    by_cases hfits : p.span.Fits w.editor.text
    · exact .inl ⟨w.editor.replace p.span p.plainText, now, rfl, if_pos hfits⟩
    · have hstep : w.step (.insert p now) = (⟨.badSpan, []⟩, w) := if_neg hfits
      refine .inr (.inr ⟨⟨w.session.findings, ?_⟩, ?_, ?_, by simp⟩)
      · rw [hstep]
      · rw [hstep]
      · rw [edit?, hstep]
  | run menuOpen =>
    obtain ⟨why, findings, hrun⟩ | hrun := session_run_cases w.session w.editor.text menuOpen
    · have hstep : w.step (.run menuOpen) = (⟨.refused why, []⟩,
          { w with session := { w.session with findings := findings } }) := by
        simp only [step, hrun]
      refine .inr (.inr ⟨⟨findings, ?_⟩, ?_, ?_, by simp⟩)
      · rw [hstep]
      · rw [hstep]
      · rw [edit?, hstep]
    · have hstep : w.step (.run menuOpen) = (⟨.submitted w.editor.text, []⟩,
          { w with
            submitted := w.submitted ++ [w.editor.text]
            history := w.history.append w.editor.text }) := by
        simp only [step, hrun]
      refine .inr (.inr ⟨⟨w.session.findings, ?_⟩, ?_, ?_, by simp⟩)
      · rw [hstep]
      · rw [hstep]
      · rw [edit?, hstep]

/-- An edit that is taken down is one of the text in the editor. -/
theorem edit?_of_noteEdit {w' : Workbench} {now : Nat} (hnow : s.now? = some now)
    (h : w.step s = w'.noteEdit now) : w.edit? s = some (w'.editor.text, now) := by
  rw [edit?, h, hnow]
  rfl

end Workbench

end PromqlAssist
