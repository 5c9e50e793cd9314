import PromqlAssist.Format.Utf8

/-!
# Byte channels

A channel carries chunks of bytes, first in, first out. The reading end hands them out as a byte
stream, in pieces of any size. The writing end sends every write as one chunk, and waits while the
channel is full.
-/

namespace PromqlAssist

/-- The reading end of a channel, with the chunks on their way. -/
structure ChannelReader where
  queue : List Bytes
  closed : Bool
  /-- The chunk that was read last, as long as a part of it is left. -/
  buffer : Bytes
  /-- The number of bytes of the buffer that were handed out. -/
  position : Nat
deriving DecidableEq, Repr

namespace ChannelReader

def empty : ChannelReader :=
  ⟨[], false, [], 0⟩

/-- A chunk is sent. Nothing can be sent after the end. -/
def send (r : ChannelReader) (chunk : Bytes) : ChannelReader :=
  if r.closed then r else { r with queue := r.queue ++ [chunk] }

def close (r : ChannelReader) : ChannelReader :=
  { r with closed := true }

/-- Hands out the next bytes of the buffer, which is emptied behind its last one. -/
def readBuffer (r : ChannelReader) (size : Nat) : Bytes × ChannelReader :=
  let left := r.buffer.drop r.position
  let count := min left.length size
  let position := r.position + count
  (left.take count,
    if r.buffer.length ≤ position then { r with buffer := [], position := 0 }
    else { r with position := position })

/-- Hands out the first bytes of a chunk. What is left of it becomes the buffer. -/
def readChunk (r : ChannelReader) (chunk : Bytes) (size : Nat) : Bytes × ChannelReader :=
  let count := min chunk.length size
  (chunk.take count,
    if count < chunk.length then { r with buffer := chunk, position := count } else r)

/-- Reads at most `size` bytes, of one chunk only. Gives nothing while the channel is empty, and no
bytes once it is closed and empty. -/
def read (r : ChannelReader) (size : Nat) : Option Bytes × ChannelReader :=
  if r.position < r.buffer.length then
    let (bytes, r) := r.readBuffer size
    (some bytes, r)
  else
    match r.queue with
    | chunk :: queue =>
      let (bytes, r) := { r with queue := queue }.readChunk chunk size
      (some bytes, r)
    | [] => (if r.closed then some [] else none, r)

end ChannelReader

/-- How far a reservation of a place in a channel has come. -/
inductive Reservation where
  /-- It has not asked for a place yet. -/
  | asking
  /-- It waits for the next place that becomes free. -/
  | waiting
  /-- It holds a place. -/
  | granted
deriving DecidableEq, Repr

/-- The writing end of a channel, with the chunks on their way. -/
structure ChannelWriter where
  queue : List Bytes
  closed : Bool
  /-- The number of places that neither a chunk nor a reservation holds. -/
  free : Nat
  /-- The reservation that was made when a write found the channel full, until a write uses it. -/
  reservation : Option Reservation
deriving DecidableEq, Repr

/-- What a write comes to. -/
inductive WriteResult where
  | pending
  | written (size : Nat)
  | brokenPipe
deriving DecidableEq, Repr

/-- How a write that finds no reading end is reported. -/
def WriteResult.brokenPipeMessage : String :=
  "channel closed"

namespace ChannelWriter

def ofCapacity (capacity : Nat) : ChannelWriter :=
  ⟨[], false, capacity, none⟩

def enqueue (w : ChannelWriter) (chunk : Bytes) : ChannelWriter :=
  { w with queue := w.queue ++ [chunk] }

/-- The first look of a write at the channel. If a place is free the bytes are sent at once, and if
none is a reservation is made. Nothing is looked at while there is a reservation. -/
def attempt (w : ChannelWriter) (bytes : Bytes) : Option WriteResult × ChannelWriter :=
  match w.reservation with
  | some _ => (none, w)
  | none =>
    if w.closed then (some .brokenPipe, w)
    else if 0 < w.free then
      (some (.written bytes.length), { w with free := w.free - 1 }.enqueue bytes)
    else (none, { w with reservation := some .asking })

/-- Sends bytes with the reservation, once that holds a place or finds one free. A reservation that
was answered is gone. -/
def resume (w : ChannelWriter) (bytes : Bytes) : WriteResult × ChannelWriter :=
  match w.reservation with
  | none => (.pending, w)
  | some reservation =>
    if w.closed then (.brokenPipe, { w with reservation := none })
    else if reservation = .granted then
      (.written bytes.length, { w with reservation := none }.enqueue bytes)
    else if 0 < w.free then
      (.written bytes.length, { w with reservation := none, free := w.free - 1 }.enqueue bytes)
    else (.pending, { w with reservation := some .waiting })

/-- Sends bytes as one chunk, if there is a place for it. -/
def write (w : ChannelWriter) (bytes : Bytes) : WriteResult × ChannelWriter :=
  match w.attempt bytes with
  | (some result, w) => (result, w)
  | (none, w) => w.resume bytes

/-- A place becomes free. A reservation that waits for one gets it. -/
def release (w : ChannelWriter) : ChannelWriter :=
  if w.reservation = some .waiting then { w with reservation := some .granted }
  else { w with free := w.free + 1 }

/-- The reading end takes a chunk. -/
def receive (w : ChannelWriter) : Option Bytes × ChannelWriter :=
  match w.queue with
  | chunk :: queue => (some chunk, { w with queue := queue }.release)
  | [] => (none, w)

/-- The reading end goes away, and what was on its way with it. -/
def close (w : ChannelWriter) : ChannelWriter :=
  { w with closed := true, queue := [] }

end ChannelWriter

end PromqlAssist
