import PromqlAssist.Session.Timer

/-!
# What waits at a timer

The callers of a timer care for the payload and the deadline of its pending job. The token only
tells jobs apart.
-/

namespace PromqlAssist.Timer

variable {α : Type} {t : Timer α} {now deadline : Nat} {payload : α}

/-- The payload and the deadline of the pending job. -/
def waiting? (t : Timer α) : Option (α × Nat) :=
  t.pending?.map fun job => (job.payload, job.deadline)

theorem pending?_isNone (t : Timer α) : t.pending?.isNone = t.waiting?.isNone := by
  simp [waiting?]

theorem fire_of_none (h : t.waiting? = none) (now : Nat) : t.fire now = (none, t) := by
  unfold fire
  rw [Option.map_eq_none_iff.mp h]

theorem fire_of_lt (h : t.waiting? = some (payload, deadline)) (early : now < deadline) :
    t.fire now = (none, t) := by
  obtain ⟨job, hjob, heq⟩ := Option.map_eq_some_iff.mp h
  obtain ⟨-, rfl⟩ := Prod.mk.inj heq
  unfold fire
  rw [hjob]
  exact if_neg (Nat.not_le.mpr early)

theorem fire_of_le (h : t.waiting? = some (payload, deadline)) (due : deadline ≤ now) :
    ∃ token, t.fire now = (some (token, payload), t.cancelAll) := by
  obtain ⟨job, hjob, heq⟩ := Option.map_eq_some_iff.mp h
  obtain ⟨rfl, rfl⟩ := Prod.mk.inj heq
  refine ⟨job.token, ?_⟩
  unfold fire
  rw [hjob]
  exact if_pos due

/-- A token takes the pending job or nothing. -/
theorem take_cases (t : Timer α) (token : Nat) :
    t.take token = (none, t) ∨
      ∃ job, t.pending? = some job ∧ job.token = token ∧
        t.take token = (some job.payload, t.cancelAll) := by
  unfold take
  cases hpending : t.pending? with
  | none => exact .inl rfl
  | some job =>
    by_cases htoken : job.token = token
    · exact .inr ⟨job, rfl, htoken, if_pos htoken⟩
    · exact .inl (if_neg htoken)

/-- A token that takes a job is the one of the job that waits. -/
theorem exists_job_of_take {token : Nat} (h : (t.take token).1.isSome) :
    ∃ job, t.pending? = some job ∧ job.token = token := by
  obtain htake | ⟨job, hjob, htoken, -⟩ := t.take_cases token
  · rw [htake] at h
    cases h
  · exact ⟨job, hjob, htoken⟩

theorem isPending_iff {token : Nat} :
    t.isPending token ↔ ∃ job, t.pending? = some job ∧ job.token = token := by
  unfold isPending
  cases t.pending? with
  | none => simp
  | some job => simp

theorem take_eq_some_iff {token : Nat} : (t.take token).1 = some payload ↔
    ∃ job, t.pending? = some job ∧ job.token = token ∧ job.payload = payload := by
  unfold take
  cases t.pending? with
  | none => simp
  | some job =>
    dsimp only
    split <;> simp [*]

theorem fire_eq_some_iff {token : Nat} : (t.fire now).1 = some (token, payload) ↔
    ∃ job, t.pending? = some job ∧ job.deadline ≤ now ∧ job.token = token ∧
      job.payload = payload := by
  unfold fire
  cases t.pending? with
  | none => simp
  | some job =>
    dsimp only
    split <;> simp [*]

end PromqlAssist.Timer
