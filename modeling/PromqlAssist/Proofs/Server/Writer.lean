import PromqlAssist.Server.Channel

/-!
# What a channel writer sends

A run of a writer is any list of writes with what the reading end does in between, and also in the
middle of a write that has found the channel full. Every chunk that was enqueued is still on its way,
or was received, or was lost when the reading end went away, and these chunks are the bytes of the
writes that were answered by their size, in their order. `write_eq` says what one write does, on
whichever way, and `call_eq` that a write that is interrupted does it behind the interruption.
-/

namespace PromqlAssist.ChannelWriter

/-- What the reading end does. -/
inductive Receiving where
  | receive
  | close
deriving DecidableEq

/-- Something that happens at a channel. -/
inductive Operation where
  /-- A write. What the reading end does meanwhile, it does after the write has found the channel
  full, and before the write looks again. -/
  | write (bytes : Bytes) (meanwhile : List Receiving)
  | receiving (what : Receiving)
deriving DecidableEq

/-- What is seen of a run. -/
inductive Event where
  | answered (bytes : Bytes) (result : WriteResult)
  | received (chunk? : Option Bytes)
  | closed (lost : List Bytes)
deriving DecidableEq

namespace Event

/-- The bytes of a write that is answered by a size. -/
def accepted? : Event → Option Bytes
  | .answered bytes (.written _) => some bytes
  | _ => none

/-- The chunks that an event takes out of a channel. -/
def removed : Event → List Bytes
  | .answered _ _ => []
  | .received chunk? => chunk?.toList
  | .closed lost => lost

end Event

def react (w : ChannelWriter) : Receiving → Event × ChannelWriter
  | .receive => (.received w.receive.1, w.receive.2)
  | .close => (.closed w.queue, w.close)

/-- What the reading end does, one thing after the other. -/
def reacts (w : ChannelWriter) : List Receiving → List Event × ChannelWriter
  | [] => ([], w)
  | r :: rs => ((w.react r).1 :: ((w.react r).2.reacts rs).1, ((w.react r).2.reacts rs).2)

/-- A write from its start to its answer. -/
structure Call where
  /-- What the reading end did meanwhile. -/
  seen : List Event
  result : WriteResult
  /-- The writer behind the answer. -/
  writer : ChannelWriter

def call (w : ChannelWriter) (bytes : Bytes) (meanwhile : List Receiving) : Call :=
  match w.attempt bytes with
  | (some result, w) => ⟨[], result, w⟩
  | (none, w) =>
    let (seen, w) := w.reacts meanwhile
    let (result, w) := w.resume bytes
    ⟨seen, result, w⟩

def perform (w : ChannelWriter) : Operation → List Event × ChannelWriter
  | .write bytes meanwhile =>
    let c := w.call bytes meanwhile
    (c.seen ++ [.answered bytes c.result], c.writer)
  | .receiving what => w.reacts [what]

/-- The writer behind a run. -/
def after (w : ChannelWriter) (ops : List Operation) : ChannelWriter :=
  ops.foldl (fun w op => (w.perform op).2) w

/-- The events of a run. -/
def events (w : ChannelWriter) : List Operation → List Event
  | [] => []
  | op :: ops => (w.perform op).1 ++ (w.perform op).2.events ops

/-- The places that a reservation holds. -/
def held (w : ChannelWriter) : Nat :=
  if w.reservation = some .granted then 1 else 0

/-- What a write does to the channel: it enqueues its bytes if it is answered by their size, and
nothing otherwise. Only a write that waits leaves a reservation behind, and it waits only if the
channel is full. A write fails exactly if the reading end is gone. -/
structure CallLaw (capacity : Nat) (w : ChannelWriter) (bytes : Bytes) (c : Call) : Prop where
  enqueued : c.seen.flatMap Event.removed ++ c.writer.queue =
    w.queue ++ if c.result = .written bytes.length then [bytes] else []
  whole : ∀ size, c.result = .written size → size = bytes.length
  settled : c.result ≠ .pending → c.writer.reservation = none
  full : c.result = .pending → c.writer.closed = false ∧ c.writer.queue.length = capacity
  broken : c.result = .brokenPipe ↔ c.writer.closed = true

/-- What a writer does over a run and with the next write. The chunks that were enqueued are those
that have left the channel and those on their way. They are the bytes of the writes that were answered
by a size, in their order, and this size is their length. There are never more chunks on their way
than places. -/
structure BackpressureLaw (capacity : Nat) (ops : List Operation) : Prop where
  enqueued : ((ofCapacity capacity).events ops).flatMap Event.removed ++
      ((ofCapacity capacity).after ops).queue =
    ((ofCapacity capacity).events ops).filterMap Event.accepted?
  whole : ∀ bytes size, .answered bytes (.written size) ∈ (ofCapacity capacity).events ops →
    size = bytes.length
  bounded : ((ofCapacity capacity).after ops).queue.length ≤ capacity
  next : ∀ bytes meanwhile, CallLaw capacity ((ofCapacity capacity).after ops) bytes
    (((ofCapacity capacity).after ops).call bytes meanwhile)

variable {w w' w'' : ChannelWriter} {es es' : List Event} {rs meanwhile : List Receiving}
variable {r : Receiving} {bytes chunk : Bytes} {queue : List Bytes} {capacity : Nat}

/-! ## One chunk received -/

@[simp] theorem queue_release (w : ChannelWriter) : w.release.queue = w.queue := by
  unfold release
  split <;> rfl

@[simp] theorem closed_release (w : ChannelWriter) : w.release.closed = w.closed := by
  unfold release
  split <;> rfl

/-- A place that becomes free is not lost, and a reservation that waits holds it. -/
theorem free_add_held_release (w : ChannelWriter) :
    w.release.free + w.release.held = w.free + w.held + 1 := by
  unfold release
  split
  · rename_i hwaiting
    simp [held, hwaiting]
  · exact Nat.add_right_comm w.free 1 w.held

theorem reservation_release (w : ChannelWriter) :
    w.release.reservation = none ↔ w.reservation = none := by
  unfold release
  split
  · rename_i hwaiting
    simp [hwaiting]
  · rfl

theorem react_receive_nil (h : w.queue = []) : w.react .receive = (.received none, w) := by
  simp only [react, receive, h]

theorem react_receive_cons (h : w.queue = chunk :: queue) :
    w.react .receive = (.received (some chunk), { w with queue := queue }.release) := by
  simp only [react, receive, h]

/-! ## One write -/

/-- What a write does, whether it finds a place at once or with its reservation, now or on an earlier
call. -/
theorem write_eq (w : ChannelWriter) (bytes : Bytes) : w.write bytes =
    if w.closed then (.brokenPipe, { w with reservation := none })
    else if 0 < w.free + w.held then
      (.written bytes.length,
        { w with free := w.free + w.held - 1, reservation := none }.enqueue bytes)
    else (.pending, { w with reservation := some .waiting }) := by
  obtain ⟨queue, closed, free, reservation⟩ := w
  cases reservation with
  | none =>
    cases closed <;> by_cases hfree : 0 < free <;> simp [write, attempt, resume, held, hfree]
  | some reservation =>
    cases closed <;> cases reservation <;> by_cases hfree : 0 < free <;>
      simp [write, attempt, resume, held, enqueue, hfree]

/-! ## A write that is interrupted -/

theorem write_of_reservation (h : w.reservation ≠ none) (bytes : Bytes) :
    w.write bytes = w.resume bytes := by
  obtain ⟨reservation, hreservation⟩ := Option.ne_none_iff_exists'.mp h
  simp only [write, attempt, hreservation]

theorem resume_asking (h : w.reservation = none) (bytes : Bytes) :
    { w with reservation := some .asking }.resume bytes = w.write bytes := by
  simp [write_eq, resume, held, h]

theorem reservation_react (w : ChannelWriter) (r : Receiving) :
    (w.react r).2.reservation = none ↔ w.reservation = none := by
  cases r with
  | receive =>
    cases hqueue : w.queue with
    | nil => rw [react_receive_nil hqueue]
    | cons chunk queue =>
      rw [react_receive_cons hqueue]
      exact reservation_release _
  | close => rfl

theorem reservation_reacts (w : ChannelWriter) (rs : List Receiving) :
    (w.reacts rs).2.reservation = none ↔ w.reservation = none := by
  induction rs generalizing w with
  | nil => rfl
  | cons r rs ih => exact (ih _).trans (w.reservation_react r)

/-- The reading end does not see a reservation that has not asked for a place. -/
theorem react_asking (h : w.reservation = none) (r : Receiving) :
    { w with reservation := some .asking }.react r =
      ((w.react r).1, { (w.react r).2 with reservation := some .asking }) := by
  cases r with
  | receive => cases hqueue : w.queue <;> simp [react, receive, release, hqueue, h]
  | close => rfl

theorem reacts_asking (h : w.reservation = none) (rs : List Receiving) :
    { w with reservation := some .asking }.reacts rs =
      ((w.reacts rs).1, { (w.reacts rs).2 with reservation := some .asking }) := by
  induction rs generalizing w with
  | nil => rfl
  | cons r rs ih =>
    rw [reacts, react_asking h]
    simp only [ih ((w.reservation_react r).mpr h), reacts]

/-- A write that is interrupted does what a write does behind the interruption. -/
theorem call_eq (w : ChannelWriter) (bytes : Bytes) (meanwhile : List Receiving) :
    ∃ rs, w.call bytes meanwhile = ⟨(w.reacts rs).1, ((w.reacts rs).2.write bytes).1,
      ((w.reacts rs).2.write bytes).2⟩ := by
  cases hattempt : w.attempt bytes with
  | mk result? v =>
    cases result? with
    | some result => exact ⟨[], by simp [call, reacts, write, hattempt]⟩
    | none =>
      refine ⟨meanwhile, ?_⟩
      by_cases hreservation : w.reservation = none
      · have hasking : v = { w with reservation := some .asking } := by
          simp only [attempt, hreservation] at hattempt
          grind
        have hnone := (w.reservation_reacts meanwhile).mpr hreservation
        simp only [call, hattempt, hasking, reacts_asking hreservation, resume_asking hnone]
      · have hsame : v = w := by
          obtain ⟨reservation, hsome⟩ := Option.ne_none_iff_exists'.mp hreservation
          simpa [attempt, hsome, eq_comm] using hattempt
        have hsome := mt (w.reservation_reacts meanwhile).mp hreservation
        simp only [call, hattempt, hsame, write_of_reservation hsome]

/-! ## What is enqueued -/

/-- What the events between two states tell of the chunks. -/
structure Tells (w : ChannelWriter) (es : List Event) (w' : ChannelWriter) : Prop where
  enqueued : es.flatMap Event.removed ++ w'.queue = w.queue ++ es.filterMap Event.accepted?
  whole : ∀ bytes size, .answered bytes (.written size) ∈ es → size = bytes.length

namespace Tells

theorem nil (w : ChannelWriter) : Tells w [] w where
  enqueued := by simp
  whole := by simp

theorem append (h : Tells w es w') (h' : Tells w' es' w'') : Tells w (es ++ es') w'' where
  enqueued := by
    rw [List.flatMap_append, List.append_assoc, h'.enqueued, ← List.append_assoc, h.enqueued,
      List.append_assoc, List.filterMap_append]
  whole bytes size hmem := by
    rcases List.mem_append.mp hmem with hmem | hmem
    · exact h.whole bytes size hmem
    · exact h'.whole bytes size hmem

end Tells

theorem tells_react (w : ChannelWriter) (r : Receiving) : Tells w [(w.react r).1] (w.react r).2 := by
  cases r with
  | receive =>
    cases hqueue : w.queue with
    | nil =>
      rw [react_receive_nil hqueue]
      constructor <;> simp [Event.removed, Event.accepted?]
    | cons chunk queue =>
      rw [react_receive_cons hqueue]
      constructor <;> simp [Event.removed, Event.accepted?, hqueue]
  | close => constructor <;> simp [react, close, Event.removed, Event.accepted?]

theorem tells_reacts (w : ChannelWriter) (rs : List Receiving) :
    Tells w (w.reacts rs).1 (w.reacts rs).2 := by
  induction rs generalizing w with
  | nil => exact .nil w
  | cons r rs ih => exact (w.tells_react r).append (ih _)

theorem accepted?_reacts (w : ChannelWriter) (rs : List Receiving) :
    (w.reacts rs).1.filterMap Event.accepted? = [] := by
  induction rs generalizing w with
  | nil => rfl
  | cons r rs ih => cases r <;> exact ih _

theorem tells_write (w : ChannelWriter) (bytes : Bytes) :
    Tells w [.answered bytes (w.write bytes).1] (w.write bytes).2 := by
  rw [write_eq]
  split
  · constructor <;> simp [Event.removed, Event.accepted?]
  · split
    · constructor <;> simp [Event.removed, Event.accepted?, enqueue]
    · constructor <;> simp [Event.removed, Event.accepted?]

theorem tells_perform (w : ChannelWriter) (op : Operation) :
    Tells w (w.perform op).1 (w.perform op).2 := by
  cases op with
  | write bytes meanwhile =>
    obtain ⟨rs, hcall⟩ := w.call_eq bytes meanwhile
    simp only [perform, hcall]
    exact (w.tells_reacts rs).append (tells_write _ bytes)
  | receiving what => exact w.tells_reacts [what]

theorem tells_events (w : ChannelWriter) (ops : List Operation) :
    Tells w (w.events ops) (w.after ops) := by
  induction ops generalizing w with
  | nil => exact .nil w
  | cons op ops ih => exact (w.tells_perform op).append (ih _)

/-! ## The places -/

/-- Every place of an open channel is free, or taken by a chunk, or held by the reservation. -/
structure Places (capacity : Nat) (w : ChannelWriter) : Prop where
  total : w.closed = false → w.free + w.held + w.queue.length = capacity
  gone : w.closed = true → w.queue = []

namespace Places

theorem ofCapacity (capacity : Nat) : Places capacity (ofCapacity capacity) where
  total _ := rfl
  gone := nofun

theorem react (h : Places capacity w) (r : Receiving) : Places capacity (w.react r).2 := by
  cases r with
  | receive =>
    cases hqueue : w.queue with
    | nil =>
      rw [react_receive_nil hqueue]
      exact h
    | cons chunk queue =>
      rw [react_receive_cons hqueue]
      constructor
      · intro hopen
        have htotal := h.total (by simpa using hopen)
        rw [hqueue, List.length_cons] at htotal
        rw [free_add_held_release, queue_release]
        show w.free + w.held + 1 + queue.length = capacity
        omega
      · intro hclosed
        have hgone := h.gone (by simpa using hclosed)
        exact absurd (hqueue.symm.trans hgone) nofun
  | close => exact ⟨nofun, fun _ => rfl⟩

theorem reacts (h : Places capacity w) (rs : List Receiving) : Places capacity (w.reacts rs).2 := by
  induction rs generalizing w with
  | nil => exact h
  | cons r rs ih => exact ih (h.react r)

theorem write (h : Places capacity w) (bytes : Bytes) : Places capacity (w.write bytes).2 := by
  rw [write_eq]
  split
  · rename_i hclosed
    exact ⟨fun hopen => absurd (hclosed.symm.trans hopen) nofun, h.gone⟩
  · rename_i hopen
    have htotal := h.total (Bool.eq_false_iff.mpr hopen)
    split
    · refine ⟨fun _ => ?_, fun hclosed => absurd hclosed hopen⟩
      show w.free + w.held - 1 + 0 + (w.queue ++ [bytes]).length = capacity
      rw [List.length_append, List.length_singleton]
      omega
    · refine ⟨fun _ => ?_, fun hclosed => absurd hclosed hopen⟩
      show w.free + 0 + w.queue.length = capacity
      omega

theorem perform (h : Places capacity w) (op : Operation) : Places capacity (w.perform op).2 := by
  cases op with
  | write bytes meanwhile =>
    obtain ⟨rs, hcall⟩ := w.call_eq bytes meanwhile
    simp only [ChannelWriter.perform, hcall]
    exact (h.reacts rs).write bytes
  | receiving what => exact h.reacts [what]

theorem after (h : Places capacity w) (ops : List Operation) : Places capacity (w.after ops) := by
  induction ops generalizing w with
  | nil => exact h
  | cons op ops ih => exact ih (h.perform op)

theorem length_le (h : Places capacity w) : w.queue.length ≤ capacity := by
  cases hclosed : w.closed with
  | true => simp [h.gone hclosed]
  | false =>
    have htotal := h.total hclosed
    omega

end Places

/-! ## The law -/

theorem callLaw_write (h : Places capacity w) (bytes : Bytes) :
    CallLaw capacity w bytes ⟨[], (w.write bytes).1, (w.write bytes).2⟩ := by
  rw [write_eq]
  split
  · rename_i hclosed
    constructor <;> simp [hclosed]
  · rename_i hopen
    have htotal := h.total (Bool.eq_false_iff.mpr hopen)
    split
    · constructor <;> simp [enqueue, hopen]
    · constructor <;> simp [hopen]
      omega

/-- What the reading end does in the middle of a write is told apart from what the write does. -/
theorem callLaw_call (h : Places capacity w) (bytes : Bytes) (meanwhile : List Receiving) :
    CallLaw capacity w bytes (w.call bytes meanwhile) := by
  obtain ⟨rs, hcall⟩ := w.call_eq bytes meanwhile
  have hwrite := callLaw_write (h.reacts rs) bytes
  have hreacts := (w.tells_reacts rs).enqueued
  rw [accepted?_reacts, List.append_nil] at hreacts
  rw [hcall]
  refine ⟨?_, hwrite.whole, hwrite.settled, hwrite.full, hwrite.broken⟩
  rw [← hreacts, List.append_assoc]
  exact congrArg _ hwrite.enqueued

/-- A writer keeps to this whatever is written, and whatever the reading end does in between and in
the middle of the writes. -/
theorem backpressureLaw_ofCapacity (capacity : Nat) (ops : List Operation) :
    BackpressureLaw capacity ops where
  enqueued := (tells_events (ofCapacity capacity) ops).enqueued
  whole := (tells_events (ofCapacity capacity) ops).whole
  bounded := ((Places.ofCapacity capacity).after ops).length_le
  next bytes meanwhile := callLaw_call ((Places.ofCapacity capacity).after ops) bytes meanwhile

/-- A write that waits is followed by one of other bytes, which takes its place. A write that finds
the channel full goes on at once if a chunk is received meanwhile. -/
example : (ofCapacity 1).events [.write [1] [], .write [2] [], .receiving .receive, .write [3, 4] [],
    .receiving .receive, .write [5] [], .write [6] [.receive]] =
      [.answered [1] (.written 1), .answered [2] .pending, .received (some [1]),
        .answered [3, 4] (.written 2), .received (some [3, 4]), .answered [5] (.written 1),
        .received (some [5]), .answered [6] (.written 1)] := by
  decide

end PromqlAssist.ChannelWriter
