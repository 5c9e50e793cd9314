/-!
# Debounce timers

A timer holds at most one pending job. Scheduling a job replaces the one that is pending, so of a
burst of schedules only the last is ever delivered. The timer reads no clock: every operation that
needs the time is given it, in milliseconds.
-/

namespace PromqlAssist

/-- A job that waits for its deadline. -/
structure TimerJob (α : Type) where
  token : Nat
  deadline : Nat
  payload : α
deriving DecidableEq, Repr

/-- A timer with its delay, the number of tokens it has issued, and the pending job. -/
structure Timer (α : Type) where
  delay : Nat
  issued : Nat
  pending? : Option (TimerJob α)
deriving DecidableEq, Repr

namespace Timer

variable {α : Type}

def ofDelay (delay : Nat) : Timer α :=
  ⟨delay, 0, none⟩

/-- Replaces the pending job by one that is due after the delay. Returns its token. -/
def schedule (t : Timer α) (now : Nat) (payload : α) : Nat × Timer α :=
  let token := t.issued + 1
  (token, { t with issued := token, pending? := some ⟨token, now + t.delay, payload⟩ })

/-- Whether the job of a token waits: it was neither delivered, nor replaced, nor cancelled. -/
def isPending (t : Timer α) (token : Nat) : Bool :=
  match t.pending? with
  | some job => job.token = token
  | none => false

/-- Drops the pending job. -/
def cancelAll (t : Timer α) : Timer α :=
  { t with pending? := none }

/-- Drops the job of a token. Says whether it was pending. -/
def cancel (t : Timer α) (token : Nat) : Bool × Timer α :=
  if t.isPending token then (true, t.cancelAll) else (false, t)

def deadline? (t : Timer α) : Option Nat :=
  t.pending?.map (·.deadline)

/-- Delivers the pending job if it is due. -/
def fire (t : Timer α) (now : Nat) : Option (Nat × α) × Timer α :=
  match t.pending? with
  | some job =>
    if job.deadline ≤ now then (some (job.token, job.payload), t.cancelAll) else (none, t)
  | none => (none, t)

/-- Delivers the job of a token, due or not. It is for callers that wait out the delay
themselves. -/
def take (t : Timer α) (token : Nat) : Option α × Timer α :=
  match t.pending? with
  | some job => if job.token = token then (some job.payload, t.cancelAll) else (none, t)
  | none => (none, t)

end Timer

end PromqlAssist
