import Mathlib.Algebra.Group.Nat.Defs
import PromqlAssist.Proofs.Server.Header

/-!
# Messages out of a stream in pieces

Framed messages come out of a stream as they went in, wherever the stream is cut: in a header, in the
blank line, inside a character, or behind any number of messages. What a reader keeps between two
pieces is always the start of the messages that are still to come, and it never waits for more than
the next of them.
-/

namespace PromqlAssist

namespace Framing

/-- A header line of which nothing is read. -/
structure HeaderLine where
  text : Text
  isLine : IsLine text
  unnamed : ¬ lengthHeader <+: text

/-- A message with the header lines above and below the one that tells its length. -/
structure Envelope where
  above : List HeaderLine
  body : Text
  below : List HeaderLine

/-- The header line that tells a length. -/
def lengthLine (length : Nat) : Text :=
  lengthHeader ++ ' ' :: Decimal.render length

namespace Envelope

def lines (e : Envelope) : List Text :=
  e.above.map (·.text) ++ lengthLine (Utf8.encode e.body).length :: e.below.map (·.text)

/-- The header block, a blank line and the body. -/
def bytes (e : Envelope) : Bytes :=
  Utf8.encode (block e.lines) ++ blankLine ++ Utf8.encode e.body

/-- A message without other header lines is a frame. -/
theorem bytes_bare (body : Text) : (⟨[], body, []⟩ : Envelope).bytes = frame (Utf8.encode body) :=
  rfl

end Envelope

theorem isBlank_of_mem_render {c : Char} {n : Nat} (h : c ∈ Decimal.render n) :
    Text.isBlank c = false :=
  Text.isBlank_of_isIdent (Text.isIdent_of_isDigit (Decimal.isDigit_of_mem_render h))

theorem isLine_lengthLine (n : Nat) : IsLine (lengthLine n) := by
  refine ⟨by simp [lengthLine], fun c hc => ?_⟩
  have hdigit : c ∈ Decimal.render n → c ≠ '\r' ∧ c ≠ '\n' := by
    intro hmem
    have hc := Decimal.isDigit_of_mem_render hmem
    constructor <;> rintro rfl <;> exact absurd hc (by decide)
  rcases List.mem_append.mp hc with hc | hc
  · have hname : ∀ c ∈ lengthHeader, c ≠ '\r' ∧ c ≠ '\n' := by decide
    exact hname c hc
  · rcases List.mem_cons.mp hc with rfl | hc
    · decide
    · exact hdigit hc

theorem parse?_trim_render {n : Nat} (h : n < sizeLimit) :
    Decimal.parse? sizeLimit (Text.trim (' ' :: Decimal.render n)) = some n := by
  have htrim : Text.trim (' ' :: Decimal.render n) = Decimal.render n := by
    rw [Text.trim, Text.trimStart_blank (by decide)]
    exact Text.trim_eq_self fun c hc => isBlank_of_mem_render hc
  rw [htrim, Decimal.parse?_render h]

namespace Envelope

variable {e : Envelope} {es : List Envelope} {p later rest : Bytes}

theorem isLine_of_mem (e : Envelope) : ∀ l ∈ e.lines, IsLine l := by
  intro l hl
  rcases List.mem_append.mp hl with hl | hl
  · obtain ⟨h, -, rfl⟩ := List.mem_map.mp hl
    exact h.isLine
  · rcases List.mem_cons.mp hl with rfl | hl
    · exact isLine_lengthLine _
    · obtain ⟨h, -, rfl⟩ := List.mem_map.mp hl
      exact h.isLine

theorem lines_ne_nil (e : Envelope) : e.lines ≠ [] := by
  simp [lines]

/-- The lines above the one with the name are passed over. -/
theorem contentLength?_block (h : (Utf8.encode e.body).length < sizeLimit) :
    contentLength? (block e.lines) = some (Utf8.encode e.body).length := by
  have habove : (e.above.map (·.text)).findSome? (Text.dropPart? lengthHeader) = none := by
    rw [List.findSome?_eq_none_iff]
    intro l hl
    obtain ⟨line, -, rfl⟩ := List.mem_map.mp hl
    rw [Option.eq_none_iff_forall_ne_some]
    intro rest hrest
    exact line.unnamed ⟨rest, (Text.dropPart?_eq_some_iff.mp hrest).symm⟩
  have hlength : Text.dropPart? lengthHeader (lengthLine (Utf8.encode e.body).length) =
      some (' ' :: Decimal.render (Utf8.encode e.body).length) :=
    Text.dropPart?_eq_some_iff.mpr rfl
  rw [contentLength?, lines_block e.isLine_of_mem, lines, List.findSome?_append, habove,
    Option.none_or, List.findSome?_cons, hlength]
  exact parse?_trim_render h

theorem length_bytes (e : Envelope) :
    e.bytes.length =
      (Utf8.encode (block e.lines)).length + blankLine.length + (Utf8.encode e.body).length := by
  simp only [bytes, List.length_append]

/-- Behind a header block that is there as a whole, the length decides. -/
theorem popBytes_of_header (hheader : Utf8.encode (block e.lines) <+: p)
    (hend : headerEnd? p = some (Utf8.encode (block e.lines)).length)
    (hsize : e.bytes.length < sizeLimit) :
    popBytes p = if p.length < e.bytes.length then .incomplete
      else .message ((p.drop ((Utf8.encode (block e.lines)).length + blankLine.length)).take
        (Utf8.encode e.body).length) (p.drop e.bytes.length) := by
  have hbody : (Utf8.encode e.body).length < sizeLimit := by
    rw [length_bytes] at hsize
    omega
  have hlimit : ¬ sizeLimit ≤ e.bytes.length := Nat.not_le.mpr hsize
  rw [length_bytes] at hlimit ⊢
  simp only [popBytes, hend, ← List.prefix_iff_eq_take.mp hheader, Utf8.decode?_encode,
    Option.bind_some, contentLength?_block hbody, if_neg hlimit]

theorem headerEnd?_bytes (e : Envelope) (rest : Bytes) :
    headerEnd? (e.bytes ++ rest) = some (Utf8.encode (block e.lines)).length := by
  rw [bytes, List.append_assoc, List.append_assoc, headerEnd?_block e.lines_ne_nil e.isLine_of_mem]

/-- A whole message is taken from the front of a buffer. -/
theorem popBytes_append (hsize : e.bytes.length < sizeLimit) (rest : Bytes) :
    popBytes (e.bytes ++ rest) = .message (Utf8.encode e.body) rest := by
  have hheader : Utf8.encode (block e.lines) <+: e.bytes ++ rest := by
    rw [bytes, List.append_assoc, List.append_assoc]
    exact List.prefix_append _ _
  have hlong : ¬ (e.bytes ++ rest).length < e.bytes.length := by
    rw [List.length_append]
    omega
  have hbody : ((e.bytes ++ rest).drop
      ((Utf8.encode (block e.lines)).length + blankLine.length)).take
        (Utf8.encode e.body).length = Utf8.encode e.body := by
    rw [bytes, List.append_assoc, ← List.length_append, List.drop_left, List.take_left]
  rw [popBytes_of_header hheader (headerEnd?_bytes e rest) hsize, if_neg hlong, hbody,
    List.drop_left]

/-- Nothing is taken from a message that is not whole. -/
theorem popBytes_of_short (h : p ++ later = e.bytes ++ rest) (hshort : p.length < e.bytes.length)
    (hsize : e.bytes.length < sizeLimit) : popBytes p = .incomplete := by
  cases hend : headerEnd? p with
  | none => simp only [popBytes, hend]
  | some n =>
    have hn : n = (Utf8.encode (block e.lines)).length := by
      have hlonger := headerEnd?_append hend later
      rw [h, headerEnd?_bytes] at hlonger
      exact (Option.some.inj hlonger).symm
    have hheader : Utf8.encode (block e.lines) <+: p := by
      have hwhole : Utf8.encode (block e.lines) <+: p ++ later := by
        rw [h, bytes, List.append_assoc, List.append_assoc]
        exact List.prefix_append _ _
      refine List.prefix_of_prefix_length_le hwhole (List.prefix_append p later) ?_
      have hreach := add_length_le_of_headerEnd? hend
      omega
    rw [popBytes_of_header hheader (hn ▸ hend) hsize, if_pos hshort]

theorem pop_append (hsize : e.bytes.length < sizeLimit) (rest : Bytes) :
    pop (e.bytes ++ rest) = .message e.body rest := by
  simp only [pop, popBytes_append hsize, Utf8.decode?_encode]

theorem pop_of_short (h : p ++ later = e.bytes ++ rest) (hshort : p.length < e.bytes.length)
    (hsize : e.bytes.length < sizeLimit) : pop p = .incomplete := by
  simp only [pop, popBytes_of_short h hshort hsize]

end Envelope

theorem drain_of_incomplete {p : Bytes} (h : pop p = .incomplete) : drain p = ([], p, true) := by
  rw [drain]
  split <;> simp_all

theorem drain_of_message {p rest : Bytes} {body : Text} (h : pop p = .message body rest) :
    drain p = (body :: (drain rest).1, (drain rest).2) := by
  rw [drain]
  split <;> simp_all

/-- The bytes of messages one behind the other. -/
def stream (es : List Envelope) : Bytes :=
  es.flatMap Envelope.bytes

/-- What a reader has made of the first part of a stream: it gave the messages that are whole, and
keeps the start of those still to come. At the end of the stream there are none. -/
structure Drained (es : List Envelope) (later : Bytes) (r : List Text × Bytes × Bool)
    (coming : List Envelope) : Prop where
  bodies : r.1 ++ coming.map (·.body) = es.map (·.body)
  rest : r.2.1 ++ later = stream coming
  coming_le : (stream coming).length ≤ (stream es).length
  complete : later = [] → coming = []
  waits : r.2.2 = true

/-- What is kept behind the last chunk. -/
def leftover (buffer : Bytes) (steps : List (List Text × Bytes × Bool)) : Bytes :=
  (steps.getLast?.map (·.2.1)).getD buffer

theorem leftover_cons (buffer : Bytes) (r : List Text × Bytes × Bool)
    (steps : List (List Text × Bytes × Bool)) : leftover buffer (r :: steps) = leftover r.2.1 steps := by
  rw [leftover, leftover, List.getLast?_cons]
  cases steps.getLast? <;> rfl

variable {e : Envelope} {es : List Envelope} {buffer p later : Bytes} {chunks : List Bytes}

theorem stream_cons (e : Envelope) (es : List Envelope) :
    stream (e :: es) = e.bytes ++ stream es :=
  List.flatMap_cons

theorem stream_eq_nil_iff : stream es = [] ↔ es = [] := by
  cases es with
  | nil => simp [stream]
  | cons e es => simp [stream_cons, Envelope.bytes, blankLine]

/-- Draining takes one message after the other, up to the first that is not whole. -/
theorem exists_drained (h : p ++ later = stream es) (hsize : (stream es).length < sizeLimit) :
    ∃ coming, Drained es later (drain p) coming := by
  induction es generalizing p with
  | nil =>
    obtain ⟨rfl, rfl⟩ := List.append_eq_nil_iff.mp h
    rw [drain_of_incomplete rfl]
    exact ⟨[], rfl, rfl, Nat.le_refl _, fun _ => rfl, rfl⟩
  | cons e es ih =>
    rw [stream_cons] at h
    have hlength : (stream (e :: es)).length = e.bytes.length + (stream es).length := by
      rw [stream_cons, List.length_append]
    have hfirst : e.bytes.length < sizeLimit := by omega
    rcases Nat.lt_or_ge p.length e.bytes.length with hshort | hlong
    · rw [drain_of_incomplete (Envelope.pop_of_short h hshort hfirst)]
      refine ⟨e :: es, rfl, by rw [stream_cons]; exact h, Nat.le_refl _, ?_, rfl⟩
      rintro rfl
      -- Without later bytes the message would be whole.
      have hwhole := congrArg List.length h
      simp only [List.append_nil, List.length_append] at hwhole
      omega
    · obtain ⟨q, rfl⟩ : e.bytes <+: p :=
        List.prefix_of_prefix_length_le (h ▸ List.prefix_append _ _) (List.prefix_append p later)
          hlong
      rw [List.append_assoc, List.append_cancel_left_eq] at h
      obtain ⟨coming, hcoming⟩ := ih h (by omega)
      rw [drain_of_message (Envelope.pop_append hfirst q)]
      refine ⟨coming, ?_, hcoming.rest, ?_, hcoming.complete, hcoming.waits⟩
      · rw [List.cons_append, hcoming.bodies, List.map_cons]
      · exact Nat.le_trans hcoming.coming_le (by omega)

/-- The loop over the chunks. In front of every chunk the reader keeps the start of the messages that
it has not given yet. -/
theorem reassemble_spec (h : buffer ++ chunks.flatten = stream es)
    (hsize : (stream es).length < sizeLimit) (hend : chunks = [] → es = []) :
    (reassemble buffer chunks).flatMap (·.1) = es.map (·.body) ∧
      leftover buffer (reassemble buffer chunks) = [] ∧
      ∀ r ∈ reassemble buffer chunks, r.2.2 = true := by
  induction chunks generalizing buffer es with
  | nil =>
    obtain rfl := hend rfl
    have hbuffer : buffer = [] := by simpa [stream] using h
    exact ⟨rfl, hbuffer, by simp [reassemble]⟩
  | cons chunk chunks ih =>
    rw [List.flatten_cons, ← List.append_assoc] at h
    obtain ⟨coming, hcoming⟩ := exists_drained h hsize
    have hrest : chunks = [] → coming = [] := by
      rintro rfl
      exact hcoming.complete rfl
    obtain ⟨hbodies, hleft, hwaits⟩ :=
      ih hcoming.rest (Nat.lt_of_le_of_lt hcoming.coming_le hsize) hrest
    refine ⟨?_, ?_, ?_⟩
    · rw [reassemble, List.flatMap_cons, hbodies, hcoming.bodies]
    · rw [reassemble, leftover_cons]
      exact hleft
    · rw [reassemble, List.forall_mem_cons]
      exact ⟨hcoming.waits, hwaits⟩

/-- Whatever the pieces in which a stream of messages arrives, exactly its messages come out, in
their order, and nothing is left. No length is ever found out of range. -/
theorem reassemble_chunks (es : List Envelope) (chunks : List Bytes)
    (hchunks : chunks.flatten = stream es) (hsize : (stream es).length < 2 ^ 63) :
    (reassemble [] chunks).flatMap (·.1) = es.map (·.body) ∧
      leftover [] (reassemble [] chunks) = [] ∧
      ∀ r ∈ reassemble [] chunks, r.2.2 = true := by
  have hend : chunks = [] → es = [] := by
    rintro rfl
    exact stream_eq_nil_iff.mp hchunks.symm
  exact reassemble_spec hchunks (Nat.lt_trans hsize (by decide)) hend

/-- A message that speaks of lengths and blank lines, between header lines, and an empty one, cut
behind every byte. -/
theorem reassemble_singly :
    let note : HeaderLine := ⟨"Content-Type: text/φ".toList, by decide, by decide⟩
    let es : List Envelope :=
      [⟨[note], "φ\r\n\r\nContent-Length: 9".toList, [note]⟩, ⟨[], [], []⟩]
    let chunks := (stream es).map fun b => [b]
    chunks.flatten = stream es ∧ (stream es).length < 2 ^ 63 ∧
      (reassemble [] chunks).flatMap (·.1) = es.map (·.body) ∧
      leftover [] (reassemble [] chunks) = [] ∧ ∀ r ∈ reassemble [] chunks, r.2.2 = true := by
  intro note es chunks
  have hchunks : chunks.flatten = stream es := List.flatMap_singleton' _
  have hsize : (stream es).length < 2 ^ 63 := by decide
  exact ⟨hchunks, hsize, reassemble_chunks es chunks hchunks hsize⟩

end Framing

end PromqlAssist
