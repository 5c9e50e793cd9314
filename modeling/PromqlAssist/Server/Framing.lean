import PromqlAssist.Format.Decimal
import PromqlAssist.Format.Utf8

/-!
# Message frames

On a byte stream each message follows a block of header lines, of which one tells the length of the
message in bytes. A blank line ends the block.
-/

namespace PromqlAssist.Framing

/-- Lengths and offsets are below this bound. -/
def sizeLimit : Nat :=
  Nat.pow 2 64

/-- The name of the header line that tells the length. -/
def lengthHeader : Text :=
  "Content-Length:".toList

/-- The end of a header line and the blank line behind it. -/
def blankLine : Bytes :=
  [13, 10, 13, 10]

/-- A message behind a header block that tells its length. -/
def frame (body : Bytes) : Bytes :=
  Utf8.encode (lengthHeader ++ ' ' :: Decimal.render body.length) ++ blankLine ++ body

/-- The number of bytes in front of the first blank line. -/
def headerEnd? : Bytes → Option Nat
  | [] => none
  | b :: bytes =>
    if blankLine.isPrefixOf (b :: bytes) then some 0 else (headerEnd? bytes).map (· + 1)

/-- The lines of a text. A line ends at a line feed, and a carriage return in front of it belongs to
the line end. -/
def linesFrom (pending : Text) : Text → List Text
  | [] => if pending.isEmpty then [] else [pending.reverse]
  | c :: t =>
    if c = '\n' then
      (match pending with
        | '\r' :: line => line.reverse
        | line => line.reverse) :: linesFrom [] t
    else linesFrom (c :: pending) t

def lines (t : Text) : List Text :=
  linesFrom [] t

/-- The length that a header block tells: that of its first line with the name, if it is a
number. -/
def contentLength? (header : Text) : Option Nat :=
  ((lines header).findSome? fun line => Text.dropPart? lengthHeader line).bind fun value =>
    Decimal.parse? sizeLimit (Text.trim value)

/-- What a buffer starts with, if the body of a message is read as a value of `β`. -/
inductive Popped (β : Type) where
  /-- No whole message that can be read; the buffer stays as it is. -/
  | incomplete
  /-- A message, and the bytes behind it. -/
  | message (body : β) (rest : Bytes)
  /-- The header tells a length that leads past the largest offset. -/
  | tooLong
deriving DecidableEq, Repr

/-- Takes the first message from a buffer, whatever its body. -/
def popBytes (buffer : Bytes) : Popped Bytes :=
  match headerEnd? buffer with
  | none => .incomplete
  | some headerEnd =>
    match (Utf8.decode? (buffer.take headerEnd)).bind contentLength? with
    | none => .incomplete
    | some length =>
      let start := headerEnd + blankLine.length
      if sizeLimit ≤ start + length then .tooLong
      else if buffer.length < start + length then .incomplete
      else .message ((buffer.drop start).take length) (buffer.drop (start + length))

theorem popBytes_rest_lt {buffer body rest : Bytes} (h : popBytes buffer = .message body rest) :
    rest.length < buffer.length := by
  unfold popBytes at h
  split at h
  · simp at h
  · split at h
    · simp at h
    · dsimp only at h
      split at h
      · simp at h
      · split at h
        · simp at h
        · obtain ⟨-, rfl⟩ := Popped.message.inj h
          simp only [blankLine, List.length_cons, List.length_nil, List.length_drop] at *
          omega

/-- Takes the first message from a buffer. One that is no text stays there. -/
def pop (buffer : Bytes) : Popped Text :=
  match popBytes buffer with
  | .incomplete => .incomplete
  | .tooLong => .tooLong
  | .message bytes rest =>
    match Utf8.decode? bytes with
    | none => .incomplete
    | some body => .message body rest

theorem pop_rest_lt {buffer rest : Bytes} {body : Text} (h : pop buffer = .message body rest) :
    rest.length < buffer.length := by
  unfold pop at h
  split at h
  · simp at h
  · simp at h
  · rename_i hp
    split at h
    · simp at h
    · obtain ⟨-, rfl⟩ := Popped.message.inj h
      exact popBytes_rest_lt hp

/-- The bodies of the messages of a buffer, whatever they hold, and what is left of it. -/
def bodies (buffer : Bytes) : List Bytes × Bytes :=
  match h : popBytes buffer with
  | .message body rest =>
    have : rest.length < buffer.length := popBytes_rest_lt h
    let (later, left) := bodies rest
    (body :: later, left)
  | _ => ([], buffer)
termination_by buffer.length

/-- The messages of a buffer and what is left of it. It is told apart whether the rest waits for
more bytes (`true`) or tells a length out of range (`false`). -/
def drain (buffer : Bytes) : List Text × Bytes × Bool :=
  match h : pop buffer with
  | .incomplete => ([], buffer, true)
  | .tooLong => ([], buffer, false)
  | .message body rest =>
    have : rest.length < buffer.length := pop_rest_lt h
    let (bodies, left, ok) := drain rest
    (body :: bodies, left, ok)
termination_by buffer.length

/-- The messages that each chunk of a stream completes, with the bytes that are left behind them. -/
def reassemble (buffer : Bytes) : List Bytes → List (List Text × Bytes × Bool)
  | [] => []
  | chunk :: chunks =>
    let r := drain (buffer ++ chunk)
    r :: reassemble r.2.1 chunks

end PromqlAssist.Framing
