import PromqlAssist.Proofs.Session.Timer
import PromqlAssist.Session.Basic

/-!
# Stages of a session

Since the last edit a session waits to validate its text, waits to show the findings, or has shown
them. A stage is that much and the times that matter. The two timers of a session hold what its
stage says and nothing else, so whatever a session does can be read off its stage.
-/

namespace PromqlAssist

/-- What happened to the text of the last edit. -/
inductive Stage where
  /-- There was no edit. -/
  | untouched
  | edited (text : Text) (time : Nat)
  | validated (text : Text) (time validatedAt : Nat)
  | shown (text : Text) (time : Nat)

namespace Stage

/-- The text and the time of the last edit. -/
def edit? : Stage → Option (Text × Nat)
  | .untouched => none
  | .edited text time => some (text, time)
  | .validated text time _ => some (text, time)
  | .shown text time => some (text, time)

/-- The text that waits to be validated, and until when. -/
def validation? (o : SessionOptions) : Stage → Option (Text × Nat)
  | .edited text time => some (text, time + o.validationDelay)
  | _ => none

/-- The findings that wait to be shown, and until when. -/
def projection? (v : Vocabulary) (o : SessionOptions) : Stage → Option (Projection × Nat)
  | .validated text _ validatedAt =>
    some (⟨text, PromqlAssist.validate v text⟩, validatedAt + o.projectionDelay)
  | _ => none

section Step

variable (o : SessionOptions) (now : Nat)

def validate : Stage → Stage
  | .edited text time =>
    if time + o.validationDelay ≤ now then .validated text time now else .edited text time
  | p => p

/-- The text whose findings are due to be shown. -/
def due? : Stage → Option Text
  | .validated text _ validatedAt =>
    if validatedAt + o.projectionDelay ≤ now then some text else none
  | _ => none

def project : Stage → Stage
  | .validated text time validatedAt =>
    if validatedAt + o.projectionDelay ≤ now then .shown text time
    else .validated text time validatedAt
  | p => p

def tick (p : Stage) : Stage :=
  (p.validate o now).project o now

/-- The text whose findings a tick shows. -/
def shows? (p : Stage) : Option Text :=
  (p.validate o now).due? o now

end Step

variable {o : SessionOptions} {now time validatedAt : Nat} {text : Text} {p : Stage}

theorem validate_edited : (edited text time).validate o now =
    if time + o.validationDelay ≤ now then .validated text time now else .edited text time := rfl

theorem project_validated : (validated text time validatedAt).project o now =
    if validatedAt + o.projectionDelay ≤ now then .shown text time
    else .validated text time validatedAt := rfl

theorem due?_validated : (validated text time validatedAt).due? o now =
    if validatedAt + o.projectionDelay ≤ now then some text else none := rfl

@[simp] theorem edit?_validate : (p.validate o now).edit? = p.edit? := by
  cases p with
  | edited text time =>
    rw [validate_edited]
    split <;> rfl
  | _ => rfl

@[simp] theorem edit?_project : (p.project o now).edit? = p.edit? := by
  cases p with
  | validated text time validatedAt =>
    rw [project_validated]
    split <;> rfl
  | _ => rfl

@[simp] theorem edit?_tick : (p.tick o now).edit? = p.edit? := by
  simp [tick]

/-- The validation of a text was due when it took place. -/
def Punctual (o : SessionOptions) : Stage → Prop
  | .validated _ time validatedAt => time + o.validationDelay ≤ validatedAt
  | _ => True

theorem Punctual.validate (h : p.Punctual o) : (p.validate o now).Punctual o := by
  cases p with
  | edited text time =>
    rw [validate_edited]
    split
    · assumption
    · trivial
  | _ => exact h

theorem Punctual.tick (h : p.Punctual o) : (p.tick o now).Punctual o := by
  have hv : (p.validate o now).Punctual o := h.validate
  unfold Stage.tick
  cases hp : p.validate o now with
  | validated text time validatedAt =>
    rw [project_validated]
    split
    · trivial
    · exact hp ▸ hv
  | _ => trivial

/-- What a tick shows is the text of the last edit, and not before both delays have passed. -/
theorem shows?_eq_some (h : p.shows? o now = some text) (punctual : p.Punctual o) :
    ∃ time, p.edit? = some (text, time) ∧
      time + o.validationDelay + o.projectionDelay ≤ now ∧ p.tick o now = .shown text time := by
  have hv : (p.validate o now).Punctual o := punctual.validate
  have hedit : (p.validate o now).edit? = p.edit? := edit?_validate
  unfold shows? at h
  unfold tick
  cases hp : p.validate o now with
  | validated shown time validatedAt =>
    rw [hp] at h hv hedit
    rw [due?_validated] at h
    split at h
    · rename_i hdue
      obtain rfl := Option.some.inj h
      exact ⟨time, hedit.symm, Nat.le_trans (Nat.add_le_add_right hv _) hdue, if_pos hdue⟩
    · simp at h
  | _ => simp [hp, due?] at h

theorem eq_shown_of_validate (h : p.validate o now = .shown text time) : p = .shown text time := by
  cases p with
  | edited text time =>
    rw [validate_edited] at h
    split at h <;> simp at h
  | _ => exact h

/-- What is shown behind a tick the tick shows, or it was shown before. -/
theorem shows?_of_tick (h : p.tick o now = .shown text time) :
    p.shows? o now = some text ∨ p.shows? o now = none ∧ p = .shown text time := by
  unfold tick at h
  unfold shows?
  cases hp : p.validate o now with
  | validated shown time validatedAt =>
    rw [hp, project_validated] at h
    split at h
    · rename_i hdue
      obtain ⟨rfl, -⟩ := Stage.shown.inj h
      exact .inl (if_pos hdue)
    · cases h
  | shown shown time =>
    rw [hp] at h
    exact .inr ⟨rfl, h ▸ eq_shown_of_validate hp⟩
  | _ =>
    rw [hp] at h
    cases h

/-- Where a text was validated no later than at a given time. -/
inductive Settled (text : Text) (time limit : Nat) : Stage → Prop where
  | validated {validatedAt : Nat} (h : validatedAt ≤ limit) :
    Settled text time limit (.validated text time validatedAt)
  | shown : Settled text time limit (.shown text time)

variable {limit : Nat}

theorem Settled.mono {limit' : Nat} (h : p.Settled text time limit) (hle : limit ≤ limit') :
    p.Settled text time limit' := by
  cases h with
  | validated hvalidated => exact .validated (Nat.le_trans hvalidated hle)
  | shown => exact .shown

theorem tick_validated : (validated text time validatedAt).tick o now =
    if validatedAt + o.projectionDelay ≤ now then .shown text time
    else .validated text time validatedAt := rfl

theorem Settled.tick (h : p.Settled text time limit) (o : SessionOptions) (now : Nat) :
    (p.tick o now).Settled text time limit := by
  cases h with
  | validated hvalidated =>
    rw [tick_validated]
    split
    · exact .shown
    · exact .validated hvalidated
  | shown => exact .shown

/-- A projection delay behind the validation a tick shows the findings. -/
theorem Settled.tick_eq_shown (h : p.Settled text time limit)
    (hdue : limit + o.projectionDelay ≤ now) : p.tick o now = .shown text time := by
  cases h with
  | validated hvalidated =>
    rw [tick_validated, if_pos (Nat.le_trans (Nat.add_le_add_right hvalidated _) hdue)]
  | shown => rfl

theorem tick_edited_of_lt (h : now < time + o.validationDelay) :
    (edited text time).tick o now = .edited text time := by
  rw [Stage.tick, validate_edited, if_neg (Nat.not_le.mpr h)]
  rfl

/-- A validation delay behind the edit a tick validates the text. -/
theorem settled_tick_edited (h : time + o.validationDelay ≤ now) :
    ((edited text time).tick o now).Settled text time now := by
  rw [Stage.tick, validate_edited, if_pos h]
  exact (Settled.validated (Nat.le_refl now)).tick o now

end Stage

namespace Session

/-- A session's timers hold what the stage says. -/
structure AtStage (v : Vocabulary) (o : SessionOptions) (s : Session) (p : Stage) : Prop where
  vocabulary : s.vocabulary = v
  validationDelay : s.validation.delay = o.validationDelay
  projectionDelay : s.projection.delay = o.projectionDelay
  validation : s.validation.waiting? = p.validation? o
  projection : s.projection.waiting? = p.projection? v o

variable {v : Vocabulary} {o : SessionOptions} {s : Session} {p : Stage}

theorem atStage_start (v : Vocabulary) (o : SessionOptions) :
    (start v o).AtStage v o .untouched :=
  ⟨rfl, rfl, rfl, rfl, rfl⟩

namespace AtStage

theorem edit (h : s.AtStage v o p) (text : Text) (now : Nat) :
    (s.edit text now).2.AtStage v o (.edited text now) where
  vocabulary := h.vocabulary
  validationDelay := h.validationDelay
  projectionDelay := h.projectionDelay
  validation := by
    rw [Stage.validation?, ← h.validationDelay]
    rfl
  projection := rfl

theorem with_findings (h : s.AtStage v o p) (findings : List Finding) :
    { s with findings := findings }.AtStage v o p :=
  ⟨h.vocabulary, h.validationDelay, h.projectionDelay, h.validation, h.projection⟩

theorem validateDue (h : s.AtStage v o p) (now : Nat) :
    (s.validateDue now).AtStage v o (p.validate o now) := by
  cases p with
  | edited text time =>
    by_cases hdue : time + o.validationDelay ≤ now
    · obtain ⟨token, hfire⟩ := Timer.fire_of_le h.validation hdue
      rw [Stage.validate, if_pos hdue, Session.validateDue, hfire]
      exact {
        vocabulary := h.vocabulary
        validationDelay := h.validationDelay
        projectionDelay := h.projectionDelay
        validation := rfl
        projection := by
          rw [Stage.projection?, ← h.projectionDelay, ← h.vocabulary]
          rfl }
    · rw [Stage.validate, if_neg hdue, Session.validateDue,
        Timer.fire_of_lt h.validation (Nat.not_le.mp hdue)]
      exact h
  | _ =>
    rw [Session.validateDue, Timer.fire_of_none h.validation]
    exact h

theorem tick (h : s.AtStage v o p) (now : Nat) :
    (s.tick now).2.AtStage v o (p.tick o now) ∧
      (s.tick now).1 = (p.shows? o now).map fun text =>
        MarkerCall.project Marker.defaultSource text (validate v text) := by
  have hv := h.validateDue now
  unfold Session.tick Stage.tick Stage.shows?
  cases hp : p.validate o now with
  | validated text time validatedAt =>
    rw [hp] at hv
    by_cases hdue : validatedAt + o.projectionDelay ≤ now
    · obtain ⟨token, hfire⟩ := Timer.fire_of_le hv.projection hdue
      simp only [hfire, Stage.project, Stage.due?, if_pos hdue]
      exact ⟨⟨hv.vocabulary, hv.validationDelay, hv.projectionDelay, hv.validation, rfl⟩, rfl⟩
    · simp only [Timer.fire_of_lt hv.projection (Nat.not_le.mp hdue), Stage.project, Stage.due?,
        if_neg hdue]
      exact ⟨hv, rfl⟩
  | _ =>
    rw [hp] at hv
    simp only [Timer.fire_of_none hv.projection]
    exact ⟨hv, rfl⟩

/-- Nothing waits where nothing was edited or the findings are shown. -/
theorem isIdle_iff (h : s.AtStage v o p) :
    s.isIdle ↔ p = .untouched ∨ ∃ text time, p = .shown text time := by
  unfold Session.isIdle
  rw [Timer.pending?_isNone, Timer.pending?_isNone, h.validation, h.projection]
  cases p <;> simp [Stage.validation?, Stage.projection?]

end AtStage

end Session

end PromqlAssist
