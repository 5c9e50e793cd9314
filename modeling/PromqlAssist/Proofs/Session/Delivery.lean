import Mathlib.Data.List.Induction
import PromqlAssist.Proofs.Session.Timer

/-!
# What a timer delivers

A run of a timer is any list of its operations, at times in any order and with tokens that need not
be its own. The events of a run are its operations with their answers, and all that the timer does
can be told from them: a job waits from its schedule until an event that ends the wait, and it is
delivered then or never. `Mirrors` is the invariant; it ties the pending job to the events so far,
and `turn` says what one operation does to either.
-/

namespace PromqlAssist.Timer

/-- An operation with its answer. -/
inductive Event (α : Type) where
  | scheduled (time : Nat) (payload : α) (token : Nat)
  | cancelled (token : Nat) (found : Bool)
  | cancelledAll
  | taken (token : Nat) (payload? : Option α)
  | fired (time : Nat) (job? : Option (Nat × α))
  | asked (token : Nat) (pending : Bool)
deriving DecidableEq

inductive Operation (α : Type) where
  | schedule (now : Nat) (payload : α)
  | cancel (token : Nat)
  | cancelAll
  | take (token : Nat)
  | fire (now : Nat)
  | isPending (token : Nat)

variable {α : Type}

namespace Event

/-- The token and the payload of a job that is scheduled. -/
def job? : Event α → Option (Nat × α)
  | .scheduled _ payload token => some (token, payload)
  | _ => none

/-- The token and the payload of a job that is delivered. -/
def delivery? : Event α → Option (Nat × α)
  | .taken token payload? => payload?.map fun payload => (token, payload)
  | .fired _ job? => job?
  | _ => none

/-- Whether an event is a schedule, a delivery, or a cancellation, of whatever job. -/
def settles : Event α → Bool
  | .scheduled _ _ _ => true
  | .cancelled _ found => found
  | .cancelledAll => true
  | .taken _ payload? => payload?.isSome
  | .fired _ job? => job?.isSome
  | .asked _ _ => false

/-- Whether an event replaces, cancels or delivers the job of a token. -/
def ends (token : Nat) : Event α → Bool
  | .scheduled _ _ _ => true
  | .cancelled t found => found && t = token
  | .cancelledAll => true
  | .taken t payload? => payload?.isSome && t = token
  | .fired _ job? => job?.any fun job => job.1 = token
  | .asked _ _ => false

theorem settles_of_ends {e : Event α} {token : Nat} (h : e.ends token) : e.settles := by
  cases e with
  | cancelled t found => exact (Bool.and_eq_true_iff.mp h).1
  | taken t payload? => exact (Bool.and_eq_true_iff.mp h).1
  | fired time job? =>
    cases job? with
    | none => cases h
    | some job => rfl
  | asked t pending => cases h
  | _ => rfl

end Event

/-- The answer to an operation, and the timer behind it. -/
def perform (t : Timer α) : Operation α → Event α × Timer α
  | .schedule now payload =>
    (.scheduled now payload (t.schedule now payload).1, (t.schedule now payload).2)
  | .cancel token => (.cancelled token (t.cancel token).1, (t.cancel token).2)
  | .cancelAll => (.cancelledAll, t.cancelAll)
  | .take token => (.taken token (t.take token).1, (t.take token).2)
  | .fire now => (.fired now (t.fire now).1, (t.fire now).2)
  | .isPending token => (.asked token (t.isPending token), t)

/-- The timer behind a list of operations. -/
def after (t : Timer α) (ops : List (Operation α)) : Timer α :=
  ops.foldl (fun t op => (t.perform op).2) t

/-- The events of a list of operations. -/
def events (t : Timer α) : List (Operation α) → List (Event α)
  | [] => []
  | op :: ops => (t.perform op).1 :: (t.perform op).2.events ops

/-- Whether a job was scheduled at some time, and no event behind has ended the wait for it. -/
def Waits (ended : Event α → Bool) (events : List (Event α)) (token : Nat) (payload : α)
    (time : Nat) : Prop :=
  ∃ front behind, events = front ++ .scheduled time payload token :: behind ∧
    ∀ e ∈ behind, ended e = false

/-- What one operation does: it schedules a job, drops the pending job unheard, delivers it, or
leaves the timer alone. -/
inductive Turn (t : Timer α) : Event α → Timer α → Prop
  | schedule (now : Nat) (payload : α) :
      Turn t (.scheduled now payload (t.issued + 1)) (t.schedule now payload).2
  | drop {e : Event α} (hjob : e.job? = none) (hdelivery : e.delivery? = none)
      (hends : ∀ job, t.pending? = some job → e.ends job.token) : Turn t e t.cancelAll
  | deliver {e : Event α} (job : TimerJob α) (hpending : t.pending? = some job)
      (hjob : e.job? = none) (hdelivery : e.delivery? = some (job.token, job.payload))
      (hends : e.ends job.token) : Turn t e t.cancelAll
  | quiet {e : Event α} (hjob : e.job? = none) (hdelivery : e.delivery? = none)
      (hsettles : e.settles = false) : Turn t e t

variable {t : Timer α} {op : Operation α} {ops : List (Operation α)} {e : Event α}
variable {trace : List (Event α)} {token time delay : Nat} {payload : α}

theorem turn (t : Timer α) (op : Operation α) : t.Turn (t.perform op).1 (t.perform op).2 := by
  cases op with
  | schedule now payload => exact .schedule now payload
  | cancel token =>
    rw [perform, cancel]
    split
    · rename_i hpending
      obtain ⟨job, hjob, rfl⟩ := isPending_iff.mp hpending
      refine .drop rfl rfl fun job' hjob' => ?_
      obtain rfl := Option.some.inj (hjob.symm.trans hjob')
      simp [Event.ends]
    · exact .quiet rfl rfl rfl
  | cancelAll => exact .drop rfl rfl fun _ _ => rfl
  | take token =>
    rw [perform, take]
    cases hpending : t.pending? with
    | none => exact .quiet rfl rfl rfl
    | some job =>
      dsimp only
      split
      · rename_i htoken
        subst htoken
        exact .deliver job hpending rfl rfl (by simp [Event.ends])
      · exact .quiet rfl rfl rfl
  | fire now =>
    rw [perform, fire]
    cases hpending : t.pending? with
    | none => exact .quiet rfl rfl rfl
    | some job =>
      dsimp only
      split
      · exact .deliver job hpending rfl rfl (by simp [Event.ends])
      · exact .quiet rfl rfl rfl
  | isPending token => exact .quiet rfl rfl rfl

theorem after_concat (t : Timer α) (ops : List (Operation α)) (op : Operation α) :
    t.after (ops ++ [op]) = ((t.after ops).perform op).2 := by
  rw [after, List.foldl_append]
  rfl

theorem events_concat (t : Timer α) (ops : List (Operation α)) (op : Operation α) :
    t.events (ops ++ [op]) = t.events ops ++ [((t.after ops).perform op).1] := by
  induction ops generalizing t with
  | nil => rfl
  | cons first ops ih => exact congrArg (_ :: ·) (ih _)

/-- The events up to some point of a run are those of a run. -/
theorem exists_of_prefix_events {front : List (Event α)} (h : front <+: t.events ops) :
    ∃ earlier, front = t.events earlier := by
  induction ops using List.reverseRecOn with
  | nil => exact ⟨[], List.prefix_nil.mp h⟩
  | append_singleton ops op ih =>
    rw [events_concat] at h
    rcases List.prefix_concat_iff.mp h with rfl | h
    · exact ⟨ops ++ [op], (events_concat t ops op).symm⟩
    · exact ih h

/-- The last event of a run answers an operation on the timer that the events before it left. -/
theorem exists_of_events_eq_concat {front : List (Event α)} (h : front ++ [e] = t.events ops) :
    ∃ earlier op, front = t.events earlier ∧ e = ((t.after earlier).perform op).1 := by
  obtain rfl | ⟨earlier, op, rfl⟩ := List.eq_nil_or_concat ops
  · simp [events] at h
  · rw [List.concat_eq_append, events_concat] at h
    obtain ⟨rfl, hlast⟩ := List.append_inj' h rfl
    exact ⟨earlier, op, rfl, List.singleton_inj.mp hlast⟩

theorem filterMap_concat {β : Type} (f : Event α → Option β) (trace : List (Event α))
    (e : Event α) : (trace ++ [e]).filterMap f = trace.filterMap f ++ (f e).toList := by
  rw [List.filterMap_append]
  cases h : f e <;> simp [h]

theorem waits_concat {ended : Event α → Bool} :
    Waits ended (trace ++ [e]) token payload time ↔
      e = .scheduled time payload token ∨
        (Waits ended trace token payload time ∧ ended e = false) := by
  constructor
  · rintro ⟨front, behind, heq, hnone⟩
    obtain rfl | ⟨behind, last, rfl⟩ := List.eq_nil_or_concat behind
    · obtain ⟨-, hlast⟩ := List.append_inj' heq rfl
      exact .inl (List.singleton_inj.mp hlast)
    · rw [List.concat_eq_append, ← List.cons_append, ← List.append_assoc] at heq
      obtain ⟨rfl, hlast⟩ := List.append_inj' heq rfl
      obtain rfl := List.singleton_inj.mp hlast
      simp only [List.concat_eq_append, List.forall_mem_append, List.forall_mem_singleton] at hnone
      exact .inr ⟨⟨front, behind, rfl, hnone.1⟩, hnone.2⟩
  · rintro (rfl | ⟨⟨front, behind, rfl, hnone⟩, hlast⟩)
    · exact ⟨trace, [], rfl, by simp⟩
    · refine ⟨front, behind ++ [e], by simp, ?_⟩
      simpa [or_imp, forall_and, hlast] using hnone

theorem not_waits_nil {ended : Event α → Bool} : ¬ Waits ended [] token payload time := by
  rintro ⟨front, behind, heq, -⟩
  simp at heq

/-- A wait that nothing has ended was not ended for its own job. -/
theorem Waits.unsettled (h : Waits Event.settles trace token payload time) :
    Waits (Event.ends token) trace token payload time := by
  obtain ⟨front, behind, rfl, hnone⟩ := h
  refine ⟨front, behind, rfl, fun e he => ?_⟩
  rw [Bool.eq_false_iff]
  intro hends
  exact Bool.false_ne_true ((hnone e he).symm.trans (Event.settles_of_ends hends))

/-- How the pending job of a timer and the tokens it has issued follow from the events so far. The
jobs that were delivered, and the pending one behind them, are among those that were scheduled, in
the same order. -/
structure Mirrors (delay : Nat) (t : Timer α) (trace : List (Event α)) : Prop where
  delay_eq : t.delay = delay
  tokens : (trace.filterMap Event.job?).map Prod.fst = List.range' 1 t.issued
  pending : ∀ job, t.pending? = some job → ∃ time,
    Waits Event.settles trace job.token job.payload time ∧ job.deadline = time + delay
  waits : ∀ token payload time, Waits (Event.ends token) trace token payload time →
    t.pending? = some ⟨token, time + delay, payload⟩
  order : (trace.filterMap Event.delivery? ++
    (t.pending?.map fun job => (job.token, job.payload)).toList).Sublist
      (trace.filterMap Event.job?)

namespace Mirrors

theorem ofDelay (delay : Nat) : Mirrors delay (Timer.ofDelay delay : Timer α) [] where
  delay_eq := rfl
  tokens := rfl
  pending := fun job hjob => by cases hjob
  waits := fun token payload time h => absurd h not_waits_nil
  order := List.Sublist.refl []

theorem concat {t' : Timer α} (h : Mirrors delay t trace) (hturn : t.Turn e t') :
    Mirrors delay t' (trace ++ [e]) := by
  -- Without a schedule the wait for a job goes back to the events before.
  have earlier : e.job? = none → ∀ token payload time,
      Waits (Event.ends token) (trace ++ [e]) token payload time →
        t.pending? = some ⟨token, time + delay, payload⟩ ∧ e.ends token = false := by
    intro hjob token payload time hwaits
    rcases waits_concat.mp hwaits with rfl | ⟨hwaits, hends⟩
    · cases hjob
    · exact ⟨h.waits token payload time hwaits, hends⟩
  have hdelivered : (trace.filterMap Event.delivery?).Sublist (trace.filterMap Event.job?) :=
    (List.sublist_append_left _ _).trans h.order
  cases hturn with
  | schedule now payload =>
    refine ⟨h.delay_eq, ?_, ?_, ?_, ?_⟩
    · rw [filterMap_concat, List.map_append, h.tokens, schedule, List.range'_1_concat,
        Nat.add_comm 1]
      rfl
    · intro job hjob
      obtain rfl := Option.some.inj hjob
      exact ⟨now, waits_concat.mpr (.inl rfl), congrArg (now + ·) h.delay_eq⟩
    · intro token payload' time hwaits
      rcases waits_concat.mp hwaits with heq | ⟨-, hends⟩
      · cases heq
        rw [schedule, h.delay_eq]
      · cases hends
    · rw [filterMap_concat, filterMap_concat]
      simpa [Event.delivery?, Event.job?, Timer.schedule] using hdelivered
  | drop hjob hdelivery hends =>
    refine ⟨h.delay_eq, ?_, ?_, ?_, ?_⟩
    · simpa [filterMap_concat, hjob, cancelAll] using h.tokens
    · intro job hnone
      cases hnone
    · intro token payload time hwaits
      obtain ⟨hpending, hwaited⟩ := earlier hjob token payload time hwaits
      rw [hends _ hpending] at hwaited
      cases hwaited
    · simpa [filterMap_concat, hjob, hdelivery, cancelAll] using hdelivered
  | deliver job hpending hjob hdelivery hends =>
    refine ⟨h.delay_eq, ?_, ?_, ?_, ?_⟩
    · simpa [filterMap_concat, hjob, cancelAll] using h.tokens
    · intro job hnone
      cases hnone
    · intro token payload time hwaits
      obtain ⟨hpending', hwaited⟩ := earlier hjob token payload time hwaits
      obtain rfl := Option.some.inj (hpending.symm.trans hpending')
      rw [hends] at hwaited
      cases hwaited
    · simpa [filterMap_concat, hjob, hdelivery, cancelAll, hpending] using h.order
  | quiet hjob hdelivery hsettles =>
    refine ⟨h.delay_eq, ?_, ?_, ?_, ?_⟩
    · simpa [filterMap_concat, hjob] using h.tokens
    · intro job hpending
      obtain ⟨time, hwaits, hdeadline⟩ := h.pending job hpending
      exact ⟨time, waits_concat.mpr (.inr ⟨hwaits, hsettles⟩), hdeadline⟩
    · exact fun token payload time hwaits => (earlier hjob token payload time hwaits).1
    · simpa [filterMap_concat, hjob, hdelivery] using h.order

/-- A timer mirrors the events of every run. -/
theorem events (delay : Nat) (ops : List (Operation α)) :
    Mirrors delay ((Timer.ofDelay delay).after ops) ((Timer.ofDelay delay).events ops) := by
  induction ops using List.reverseRecOn with
  | nil => exact ofDelay delay
  | append_singleton ops op ih =>
    rw [after_concat, events_concat]
    exact ih.concat (turn _ op)

/-- The events of a run up to some point are mirrored as well. -/
theorem of_prefix {front : List (Event α)} (h : front <+: (Timer.ofDelay delay).events ops) :
    ∃ t : Timer α, Mirrors delay t front := by
  obtain ⟨earlier, rfl⟩ := exists_of_prefix_events h
  exact ⟨_, events delay earlier⟩

/-- An event of a run is the answer of a timer that mirrors the events before it. -/
theorem of_prefix_concat {front : List (Event α)}
    (h : front ++ [e] <+: (Timer.ofDelay delay).events ops) :
    ∃ (t : Timer α) (op : Operation α), Mirrors delay t front ∧ e = (t.perform op).1 := by
  obtain ⟨ops, hops⟩ := exists_of_prefix_events h
  obtain ⟨earlier, op, rfl, he⟩ := exists_of_events_eq_concat hops
  exact ⟨_, op, events delay earlier, he⟩

theorem fire_iff (h : Mirrors delay t trace) : (t.fire time).1 = some (token, payload) ↔
    ∃ since, Waits Event.settles trace token payload since ∧ since + delay ≤ time := by
  rw [fire_eq_some_iff]
  constructor
  · rintro ⟨job, hpending, hdue, rfl, rfl⟩
    obtain ⟨since, hwaits, hdeadline⟩ := h.pending job hpending
    exact ⟨since, hwaits, hdeadline ▸ hdue⟩
  · rintro ⟨since, hwaits, hdue⟩
    exact ⟨_, h.waits token payload since hwaits.unsettled, hdue, rfl, rfl⟩

theorem take_iff (h : Mirrors delay t trace) : (t.take token).1 = some payload ↔
    ∃ since, Waits Event.settles trace token payload since := by
  rw [take_eq_some_iff]
  constructor
  · rintro ⟨job, hpending, rfl, rfl⟩
    obtain ⟨since, hwaits, -⟩ := h.pending job hpending
    exact ⟨since, hwaits⟩
  · rintro ⟨since, hwaits⟩
    exact ⟨_, h.waits token payload since hwaits.unsettled, rfl, rfl⟩

theorem isPending_iff (h : Mirrors delay t trace) : t.isPending token ↔
    ∃ payload since, Waits (Event.ends token) trace token payload since := by
  rw [Timer.isPending_iff]
  constructor
  · rintro ⟨job, hpending, rfl⟩
    obtain ⟨since, hwaits, -⟩ := h.pending job hpending
    exact ⟨job.payload, since, hwaits.unsettled⟩
  · rintro ⟨payload, since, hwaits⟩
    exact ⟨_, h.waits token payload since hwaits, rfl⟩

end Mirrors

theorem cancel_fst (t : Timer α) (token : Nat) : (t.cancel token).1 = t.isPending token := by
  rw [cancel]
  split <;> simp [*]

section Answers

variable {front : List (Event α)}

theorem fired_iff {job? : Option (Nat × α)}
    (h : front ++ [.fired time job?] <+: (Timer.ofDelay delay).events ops) :
    job? = some (token, payload) ↔
      ∃ since, Waits Event.settles front token payload since ∧ since + delay ≤ time := by
  obtain ⟨t, op, hmirrors, hevent⟩ := Mirrors.of_prefix_concat h
  cases op with
  | fire time =>
    cases hevent
    exact hmirrors.fire_iff
  | _ => cases hevent

theorem taken_iff {payload? : Option α}
    (h : front ++ [.taken token payload?] <+: (Timer.ofDelay delay).events ops) :
    payload? = some payload ↔ ∃ since, Waits Event.settles front token payload since := by
  obtain ⟨t, op, hmirrors, hevent⟩ := Mirrors.of_prefix_concat h
  cases op with
  | take token =>
    cases hevent
    exact hmirrors.take_iff
  | _ => cases hevent

theorem asked_iff {pending : Bool}
    (h : front ++ [.asked token pending] <+: (Timer.ofDelay delay).events ops) :
    pending ↔ ∃ payload since, Waits (Event.ends token) front token payload since := by
  obtain ⟨t, op, hmirrors, hevent⟩ := Mirrors.of_prefix_concat h
  cases op with
  | isPending token =>
    cases hevent
    exact hmirrors.isPending_iff
  | _ => cases hevent

theorem cancelled_iff {found : Bool}
    (h : front ++ [.cancelled token found] <+: (Timer.ofDelay delay).events ops) :
    found ↔ ∃ payload since, Waits (Event.ends token) front token payload since := by
  obtain ⟨t, op, hmirrors, hevent⟩ := Mirrors.of_prefix_concat h
  cases op with
  | cancel token =>
    cases hevent
    rw [cancel_fst]
    exact hmirrors.isPending_iff
  | _ => cases hevent

theorem exists_waits_of_delivery
    (h : front ++ [e] <+: (Timer.ofDelay delay).events ops)
    (hdelivery : e.delivery? = some (token, payload)) :
    ∃ since, Waits Event.settles front token payload since := by
  cases e with
  | taken t payload? =>
    obtain ⟨payload, rfl, heq⟩ := Option.map_eq_some_iff.mp hdelivery
    cases heq
    exact (taken_iff h).mp rfl
  | fired now job? =>
    obtain ⟨since, hwaits, -⟩ := (fired_iff h).mp hdelivery
    exact ⟨since, hwaits⟩
  | _ => cases hdelivery

/-- There is one pending job at most. -/
theorem eq_of_waits {token' time' : Nat} {payload' : α}
    (h : front <+: (Timer.ofDelay delay).events ops)
    (hwaits : Waits (Event.ends token) front token payload time)
    (hwaits' : Waits (Event.ends token') front token' payload' time') : token = token' := by
  obtain ⟨t, hmirrors⟩ := Mirrors.of_prefix h
  have hjob := hmirrors.waits token payload time hwaits
  rw [hmirrors.waits token' payload' time' hwaits'] at hjob
  exact (congrArg TimerJob.token (Option.some.inj hjob)).symm

end Answers

/-- What a timer with a delay does over a run, told from the events alone. The tokens are issued in
increasing order, and as long as fewer than 2 ^ 64 jobs are scheduled none takes more than 64 bits.
No token is delivered twice, and the jobs that are delivered are among those that were scheduled,
with their payloads and in their order. Whatever is delivered has waited since its schedule with no
schedule, delivery or cancellation in between. Firing delivers the waiting job exactly if its delay
is over, and taking a token delivers its job exactly if it waits. A token is pending, and can be
cancelled, exactly if its job is neither replaced nor cancelled nor delivered; there is at most one
such token. -/
structure DeliveryLaw (delay : Nat) (trace : List (Event α)) : Prop where
  increasing : ((trace.filterMap Event.job?).map Prod.fst).Pairwise (· < ·)
  bounded : (trace.filterMap Event.job?).length < UInt64.size →
    ∀ job ∈ trace.filterMap Event.job?, job.1 < UInt64.size
  once : ((trace.filterMap Event.delivery?).map Prod.fst).Nodup
  delivered : (trace.filterMap Event.delivery?).Sublist (trace.filterMap Event.job?)
  waited : ∀ front e, front ++ [e] <+: trace → ∀ token payload,
    e.delivery? = some (token, payload) → ∃ since, Waits Event.settles front token payload since
  fired : ∀ front now job?, front ++ [.fired now job?] <+: trace → ∀ token payload,
    job? = some (token, payload) ↔
      ∃ since, Waits Event.settles front token payload since ∧ since + delay ≤ now
  taken : ∀ front token payload?, front ++ [.taken token payload?] <+: trace → ∀ payload,
    payload? = some payload ↔ ∃ since, Waits Event.settles front token payload since
  asked : ∀ front token (pending : Bool), front ++ [.asked token pending] <+: trace →
    (pending ↔ ∃ payload since, Waits (Event.ends token) front token payload since)
  cancelled : ∀ front token (found : Bool), front ++ [.cancelled token found] <+: trace →
    (found ↔ ∃ payload since, Waits (Event.ends token) front token payload since)
  alone : ∀ front, front <+: trace → ∀ token payload since token' payload' since',
    Waits (Event.ends token) front token payload since →
      Waits (Event.ends token') front token' payload' since' → token = token'

theorem deliveryLaw_events (delay : Nat) (ops : List (Operation α)) :
    DeliveryLaw delay ((Timer.ofDelay delay).events ops) := by
  have hmirrors := Mirrors.events delay ops
  have hdelivered := (List.sublist_append_left _ _).trans hmirrors.order
  have hincreasing : ((((Timer.ofDelay delay).events ops).filterMap Event.job?).map
      Prod.fst).Pairwise (· < ·) := by
    rw [hmirrors.tokens]
    exact List.pairwise_lt_range'
  have hbounded : ∀ job ∈ ((Timer.ofDelay delay).events ops).filterMap Event.job?,
      job.1 ≤ (((Timer.ofDelay delay).events ops).filterMap Event.job?).length := by
    intro job hjob
    have htoken := List.mem_map_of_mem (f := Prod.fst) hjob
    have hissued := congrArg List.length hmirrors.tokens
    rw [hmirrors.tokens, List.mem_range'_1] at htoken
    rw [List.length_map, List.length_range'] at hissued
    omega
  exact
    { increasing := hincreasing
      bounded := fun hlength job hjob => Nat.lt_of_le_of_lt (hbounded job hjob) hlength
      once := (hincreasing.imp Nat.ne_of_lt).sublist (hdelivered.map Prod.fst)
      delivered := hdelivered
      waited := fun _ _ h _ _ => exists_waits_of_delivery h
      fired := fun _ _ _ h _ _ => fired_iff h
      taken := fun _ _ _ h _ => taken_iff h
      asked := fun _ _ _ h => asked_iff h
      cancelled := fun _ _ _ h => cancelled_iff h
      alone := fun _ h _ _ _ _ _ _ => eq_of_waits h }

/-- A burst of two schedules, a stale token, a clock that goes back, and a job that is taken early. -/
def burst : List (Operation Char) :=
  [.schedule 50 'a', .schedule 40 'b', .fire 139, .cancel 1, .fire 140, .schedule 7 'c', .take 3,
    .isPending 3]

theorem deliveryLaw_events_burst :
    let trace := (Timer.ofDelay 100).events burst
    trace = [.scheduled 50 'a' 1, .scheduled 40 'b' 2, .fired 139 none, .cancelled 1 false,
      .fired 140 (some (2, 'b')), .scheduled 7 'c' 3, .taken 3 (some 'c'), .asked 3 false] ∧
      (∃ since, Waits Event.settles (trace.take 4) 2 'b' since ∧ since + 100 ≤ 140) ∧
      (∃ since, Waits Event.settles (trace.take 6) 3 'c' since) ∧
      ¬ ∃ payload since, Waits (Event.ends 3) (trace.take 7) 3 payload since := by
  intro trace
  have htrace : trace = [.scheduled 50 'a' 1, .scheduled 40 'b' 2, .fired 139 none,
      .cancelled 1 false, .fired 140 (some (2, 'b')), .scheduled 7 'c' 3, .taken 3 (some 'c'),
      .asked 3 false] := by decide
  have hlaw : DeliveryLaw 100 trace := deliveryLaw_events 100 burst
  have hcut : ∀ n, trace.take n <+: trace := fun n => List.take_prefix n trace
  refine ⟨htrace, (hlaw.fired _ 140 _ (hcut 5) 2 'b').mp rfl, (hlaw.taken _ 3 _ (hcut 7) 'c').mp rfl,
    ?_⟩
  have hasked := hlaw.asked (trace.take 7) 3 false (hcut 8)
  exact fun hwaits => Bool.false_ne_true (hasked.mpr hwaits)

end PromqlAssist.Timer
