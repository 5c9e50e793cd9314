import PromqlAssist.Server.Channel
import PromqlAssist.Server.Framing

/-!
# What a channel reader delivers

A run of a reader is any list of chunks that are sent, of reads, and of closes, in any order. In front
of every operation the bytes that were delivered and those that are undelivered make up the bytes that
were sent. So the bytes come out as they went in, wherever a read cuts a chunk, and a read of none
comes behind the last of them.
-/

namespace PromqlAssist

/-- A frame has bytes, whatever its body. -/
theorem Framing.frame_ne_nil (body : Bytes) : frame body ≠ [] := by
  simp [frame, blankLine]

namespace ChannelReader

/-- Something that happens at a reader. -/
inductive Operation where
  | send (chunk : Bytes)
  | close
  | read (size : Nat)
deriving DecidableEq

namespace Operation

/-- Whether an operation neither sends nothing nor asks for nothing. -/
def Proper : Operation → Prop
  | .send chunk => chunk ≠ []
  | .close => True
  | .read size => 0 < size

def chunk? : Operation → Option Bytes
  | .send chunk => some chunk
  | _ => none

end Operation

def step (r : ChannelReader) : Operation → ChannelReader
  | .send chunk => r.send chunk
  | .close => r.close
  | .read size => (r.read size).2

/-- The bytes that an operation hands out. -/
def output (r : ChannelReader) : Operation → Bytes
  | .read size => (r.read size).1.getD []
  | _ => []

/-- The reader behind a run. -/
def after (r : ChannelReader) (ops : List Operation) : ChannelReader :=
  ops.foldl step r

/-- The bytes that the reads of a run hand out, one read after the other. -/
def delivered (r : ChannelReader) : List Operation → Bytes
  | [] => []
  | op :: ops => r.output op ++ (r.step op).delivered ops

/-- The bytes of the chunks that are sent in front of the first close. -/
def sent (ops : List Operation) : Bytes :=
  ((ops.takeWhile (· ≠ .close)).filterMap Operation.chunk?).flatten

/-- The bytes that were sent and not handed out. -/
def undelivered (r : ChannelReader) : Bytes :=
  r.buffer.drop r.position ++ r.queue.flatten

/-- What a reader does behind a run. What it has delivered is a first part of what was sent. As long
as bytes are undelivered, a read gives the next of them, at least one and not more than it asks for.
Otherwise it gives none of them: an empty answer, for the end, if the channel was closed, and no
answer if it was not. Reads alone bring all that was sent. -/
structure StreamLaw (ops : List Operation) : Prop where
  inOrder : empty.delivered ops <+: sent ops
  next : ∀ size, 0 < size → empty.delivered ops ≠ sent ops →
    ∃ bytes, ((empty.after ops).read size).1 = some bytes ∧ bytes ≠ [] ∧ bytes.length ≤ size ∧
      empty.delivered ops ++ bytes <+: sent ops
  ended : ∀ size, 0 < size → (((empty.after ops).read size).1 = some [] ↔
    .close ∈ ops ∧ empty.delivered ops = sent ops)
  waits : ∀ size, 0 < size → (((empty.after ops).read size).1 = none ↔
    .close ∉ ops ∧ empty.delivered ops = sent ops)
  drained : ∀ sizes : List Nat, (∀ size ∈ sizes, 0 < size) →
    (sent ops).length ≤ (empty.delivered ops).length + sizes.length →
      empty.delivered (ops ++ sizes.map .read) = sent ops

variable {r : ChannelReader} {op : Operation} {ops : List Operation} {size : Nat}
variable {chunk : Bytes} {queue : List Bytes}

/-! ## One read -/

theorem read_of_buffer (h : r.position < r.buffer.length) (size : Nat) :
    r.read size = (some (r.readBuffer size).1, (r.readBuffer size).2) :=
  if_pos h

theorem read_of_chunk (h : r.buffer.length ≤ r.position) (hqueue : r.queue = chunk :: queue)
    (size : Nat) : r.read size = (some (({ r with queue := queue }.readChunk chunk size).1),
      ({ r with queue := queue }.readChunk chunk size).2) := by
  rw [read, if_neg (Nat.not_lt.mpr h), hqueue]

theorem read_of_nothing (h : r.buffer.length ≤ r.position) (hqueue : r.queue = []) (size : Nat) :
    r.read size = (if r.closed then some [] else none, r) := by
  rw [read, if_neg (Nat.not_lt.mpr h), hqueue]

theorem undelivered_eq_queue (h : r.buffer.length ≤ r.position) :
    r.undelivered = r.queue.flatten := by
  rw [undelivered, List.drop_eq_nil_of_le h, List.nil_append]

theorem readBuffer_conserved (r : ChannelReader) (size : Nat) :
    (r.readBuffer size).1 ++ (r.readBuffer size).2.undelivered = r.undelivered := by
  simp only [readBuffer, undelivered]
  split
  · rename_i hall
    rw [List.length_drop] at hall ⊢
    rw [List.take_of_length_le (by rw [List.length_drop]; omega)]
    simp
  · rw [← List.drop_drop, ← List.append_assoc, List.take_append_drop]

theorem readChunk_conserved (h : r.buffer.length ≤ r.position) (chunk : Bytes) (size : Nat) :
    (r.readChunk chunk size).1 ++ (r.readChunk chunk size).2.undelivered =
      chunk ++ r.queue.flatten := by
  simp only [readChunk, undelivered]
  split
  · rw [← List.append_assoc, List.take_append_drop]
  · rw [List.take_of_length_le (by omega), List.drop_eq_nil_of_le h, List.nil_append]

/-- What a read hands out is the first part of what was undelivered. -/
theorem read_conserved (r : ChannelReader) (size : Nat) :
    (r.read size).1.getD [] ++ (r.read size).2.undelivered = r.undelivered := by
  rcases Nat.lt_or_ge r.position r.buffer.length with h | h
  · rw [read_of_buffer h]
    exact r.readBuffer_conserved size
  · rw [undelivered_eq_queue h]
    cases hqueue : r.queue with
    | cons chunk queue =>
      rw [read_of_chunk h hqueue]
      exact readChunk_conserved (r := { r with queue := queue }) h chunk size
    | nil =>
      rw [read_of_nothing h hqueue, undelivered_eq_queue h, hqueue]
      cases r.closed <;> rfl

/-- A read that finds bytes gives some of them. Only an empty chunk could stand in its way. -/
theorem exists_of_read (hchunks : ∀ chunk ∈ r.queue, chunk ≠ []) (hsize : 0 < size)
    (h : r.undelivered ≠ []) :
    ∃ bytes, (r.read size).1 = some bytes ∧ bytes ≠ [] ∧ bytes.length ≤ size := by
  have htake : ∀ bytes : Bytes, bytes ≠ [] → bytes.take (min bytes.length size) ≠ [] ∧
      (bytes.take (min bytes.length size)).length ≤ size := by
    intro bytes hbytes
    have hpos := List.length_pos_iff.mpr hbytes
    refine ⟨?_, by rw [List.length_take]; omega⟩
    rw [← List.length_pos_iff, List.length_take]
    omega
  rcases Nat.lt_or_ge r.position r.buffer.length with hbuffer | hbuffer
  · rw [read_of_buffer hbuffer]
    refine ⟨_, rfl, htake (r.buffer.drop r.position) ?_⟩
    rw [Ne, List.drop_eq_nil_iff]
    omega
  · rw [undelivered_eq_queue hbuffer] at h
    cases hqueue : r.queue with
    | cons chunk queue =>
      rw [read_of_chunk hbuffer hqueue]
      exact ⟨_, rfl, htake chunk (hchunks chunk (by simp [hqueue]))⟩
    | nil => simp [hqueue] at h

/-- A read that finds nothing tells whether the channel was closed. -/
theorem read_of_undelivered (hchunks : ∀ chunk ∈ r.queue, chunk ≠ []) (h : r.undelivered = [])
    (size : Nat) : (r.read size).1 = if r.closed then some [] else none := by
  obtain ⟨hbuffer, hflat⟩ := List.append_eq_nil_iff.mp h
  rw [List.drop_eq_nil_iff] at hbuffer
  have hqueue : r.queue = [] := by
    rw [List.eq_nil_iff_forall_not_mem]
    intro chunk hmem
    exact hchunks chunk hmem (List.flatten_eq_nil_iff.mp hflat chunk hmem)
  rw [read_of_nothing hbuffer hqueue]

theorem read_eq_end_iff (hchunks : ∀ chunk ∈ r.queue, chunk ≠ []) (hsize : 0 < size) :
    (r.read size).1 = some [] ↔ r.closed = true ∧ r.undelivered = [] := by
  by_cases h : r.undelivered = []
  · rw [read_of_undelivered hchunks h]
    cases r.closed <;> simp [h]
  · obtain ⟨bytes, hread, hbytes, -⟩ := exists_of_read hchunks hsize h
    simp [hread, hbytes, h]

theorem read_eq_none_iff (hchunks : ∀ chunk ∈ r.queue, chunk ≠ []) (hsize : 0 < size) :
    (r.read size).1 = none ↔ ¬ r.closed = true ∧ r.undelivered = [] := by
  by_cases h : r.undelivered = []
  · rw [read_of_undelivered hchunks h]
    cases r.closed <;> simp [h]
  · obtain ⟨bytes, hread, -⟩ := exists_of_read hchunks hsize h
    simp [hread, h]

@[simp] theorem closed_read (r : ChannelReader) (size : Nat) : (r.read size).2.closed = r.closed := by
  unfold read readBuffer readChunk
  grind

theorem queue_read_subset (r : ChannelReader) (size : Nat) : (r.read size).2.queue ⊆ r.queue := by
  unfold read readBuffer readChunk
  grind

/-! ## One operation -/

@[simp] theorem sent_send (chunk : Bytes) (ops : List Operation) :
    sent (.send chunk :: ops) = chunk ++ sent ops := by
  simp [sent, Operation.chunk?]

@[simp] theorem sent_close (ops : List Operation) : sent (.close :: ops) = [] := rfl

@[simp] theorem sent_read (size : Nat) (ops : List Operation) :
    sent (.read size :: ops) = sent ops := rfl

theorem closed_step (r : ChannelReader) (op : Operation) :
    (r.step op).closed = true ↔ r.closed = true ∨ op = .close := by
  cases op with
  | send chunk =>
    show (r.send chunk).closed = true ↔ _
    unfold send
    split <;> simp
  | close => simp [step, close]
  | read size => simp [step]

theorem chunks_step (hchunks : ∀ chunk ∈ r.queue, chunk ≠ []) (hop : op.Proper) :
    ∀ chunk ∈ (r.step op).queue, chunk ≠ [] := by
  cases op with
  | send chunk =>
    show ∀ c ∈ (r.send chunk).queue, c ≠ []
    unfold send
    split
    · exact hchunks
    · intro c hc
      rcases List.mem_append.mp hc with hc | hc
      · exact hchunks c hc
      · exact List.mem_singleton.mp hc ▸ hop
  | close => exact hchunks
  | read size => exact fun chunk hchunk => hchunks chunk (r.queue_read_subset size hchunk)

/-- What is still to be delivered of a run, and what of that an operation does. -/
theorem step_conserved (r : ChannelReader) (op : Operation) (ops : List Operation) :
    r.output op ++ ((r.step op).undelivered ++ if (r.step op).closed then [] else sent ops) =
      r.undelivered ++ if r.closed then [] else sent (op :: ops) := by
  cases op with
  | send chunk =>
    show (r.send chunk).undelivered ++ _ = _
    cases hclosed : r.closed <;> simp [step, send, undelivered, hclosed]
  | close => simp [output, step, close, undelivered]
  | read size =>
    show (r.read size).1.getD [] ++ _ = _
    rw [← List.append_assoc]
    show (_ ++ (r.read size).2.undelivered) ++ (if (r.read size).2.closed then _ else _) = _
    rw [read_conserved, closed_read, sent_read]

/-! ## A run -/

theorem after_append (r : ChannelReader) (ops later : List Operation) :
    r.after (ops ++ later) = (r.after ops).after later :=
  List.foldl_append

theorem run_conserved (r : ChannelReader) (ops : List Operation) :
    r.delivered ops ++ (r.after ops).undelivered =
      r.undelivered ++ if r.closed then [] else sent ops := by
  induction ops generalizing r with
  | nil => simp [delivered, after, sent]
  | cons op ops ih =>
    have hrest := ih (r.step op)
    rw [← step_conserved, ← hrest, delivered, List.append_assoc]
    rfl

theorem closed_after (r : ChannelReader) (ops : List Operation) :
    (r.after ops).closed = true ↔ r.closed = true ∨ .close ∈ ops := by
  induction ops generalizing r with
  | nil => simp [after]
  | cons op ops ih =>
    show ((r.step op).after ops).closed = true ↔ _
    rw [ih, closed_step, List.mem_cons, or_assoc, eq_comm (a := op)]

theorem chunks_after (hchunks : ∀ chunk ∈ r.queue, chunk ≠ []) (hops : ∀ op ∈ ops, op.Proper) :
    ∀ chunk ∈ (r.after ops).queue, chunk ≠ [] := by
  induction ops generalizing r with
  | nil => exact hchunks
  | cons op ops ih =>
    rw [List.forall_mem_cons] at hops
    exact ih (chunks_step hchunks hops.1) hops.2

theorem sent_append_reads (ops : List Operation) (sizes : List Nat) :
    sent (ops ++ sizes.map .read) = sent ops := by
  induction ops with
  | nil =>
    induction sizes with
    | nil => rfl
    | cons size sizes ih => exact ih
  | cons op ops ih =>
    cases op with
    | send chunk => simp [ih]
    | close => rfl
    | read size => simp [ih]

/-- Every read makes what is undelivered shorter, until nothing is. -/
theorem undelivered_after_reads {sizes : List Nat} (hchunks : ∀ chunk ∈ r.queue, chunk ≠ [])
    (hsizes : ∀ size ∈ sizes, 0 < size) (h : r.undelivered.length ≤ sizes.length) :
    (r.after (sizes.map .read)).undelivered = [] := by
  induction sizes generalizing r with
  | nil => exact List.length_eq_zero_iff.mp (Nat.le_zero.mp h)
  | cons size sizes ih =>
    rw [List.forall_mem_cons] at hsizes
    have hqueue := fun chunk hchunk => hchunks chunk (r.queue_read_subset size hchunk)
    refine ih hqueue hsizes.2 ?_
    show (r.read size).2.undelivered.length ≤ sizes.length
    have hconserved := congrArg List.length (r.read_conserved size)
    rw [List.length_append] at hconserved
    rw [List.length_cons] at h
    by_cases hnothing : r.undelivered = []
    · rw [hnothing, List.length_nil] at hconserved
      omega
    · obtain ⟨bytes, hread, hbytes, -⟩ := exists_of_read hchunks hsizes.1 hnothing
      rw [hread, Option.getD_some] at hconserved
      have hpos := List.length_pos_iff.mpr hbytes
      omega

/-- Whatever is sent and read, in any order and in pieces of any size, comes out as it was sent. -/
theorem streamLaw_of_proper (h : ∀ op ∈ ops, op.Proper) : StreamLaw ops := by
  have hconserved : empty.delivered ops ++ (empty.after ops).undelivered = sent ops :=
    run_conserved empty ops
  have hchunks : ∀ chunk ∈ (empty.after ops).queue, chunk ≠ [] := chunks_after (by simp [empty]) h
  have hclosed : (empty.after ops).closed = true ↔ .close ∈ ops := by simp [closed_after, empty]
  have hdone : empty.delivered ops = sent ops ↔ (empty.after ops).undelivered = [] := by
    rw [← hconserved]
    exact List.self_eq_append_right
  constructor
  case inOrder => exact ⟨_, hconserved⟩
  case next =>
    intro size hsize hmore
    obtain ⟨bytes, hread, hbytes, hlength⟩ := exists_of_read hchunks hsize (mt hdone.mpr hmore)
    refine ⟨bytes, hread, hbytes, hlength, ((empty.after ops).read size).2.undelivered, ?_⟩
    have hrest := read_conserved (empty.after ops) size
    rw [hread, Option.getD_some] at hrest
    rw [List.append_assoc, hrest, hconserved]
  case ended =>
    intro size hsize
    rw [read_eq_end_iff hchunks hsize, hclosed, hdone]
  case waits =>
    intro size hsize
    rw [read_eq_none_iff hchunks hsize, hclosed, hdone]
  case drained =>
    intro sizes hsizes hlength
    have hlast : (empty.after (ops ++ sizes.map .read)).undelivered = [] := by
      rw [after_append]
      refine undelivered_after_reads hchunks hsizes ?_
      rw [← hconserved, List.length_append] at hlength
      omega
    have hall : empty.delivered (ops ++ sizes.map .read) ++
        (empty.after (ops ++ sizes.map .read)).undelivered = sent (ops ++ sizes.map .read) :=
      run_conserved empty _
    rw [hlast, List.append_nil, sent_append_reads] at hall
    exact hall

/-- A frame that is read in three pieces, the last of which fits exactly, with a chunk that is sent
in between and the close in front of the last reads. -/
def splitFrame : List Operation :=
  [.send (Framing.frame [123, 125]), .read 20, .send [1, 2, 3], .read 1, .read 2, .close, .read 4]

theorem streamLaw_splitFrame :
    (∀ op ∈ splitFrame, op.Proper) ∧
      empty.delivered splitFrame = sent splitFrame ∧
      ((empty.after splitFrame).read 7).1 = some [] := by
  have hproper : ∀ op ∈ splitFrame, op.Proper := by
    simp [splitFrame, Operation.Proper, Framing.frame_ne_nil]
  have hdelivered : empty.delivered splitFrame = sent splitFrame := by decide
  have hclose : Operation.close ∈ splitFrame := by decide
  exact ⟨hproper, hdelivered,
    ((streamLaw_of_proper hproper).ended 7 (by decide)).mpr ⟨hclose, hdelivered⟩⟩

end ChannelReader

end PromqlAssist
