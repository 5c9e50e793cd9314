import PromqlAssist.Proofs.Server.Header

/-!
# Taking a message by offsets

Taking the first message from a buffer is defined with parts of lists, which always exist. Here it is
done with offsets into the buffer: sums that have to stay below the largest offset, and slices that
have to lie in the buffer. No slice ever lies outside. But the sum with a length that the header tells
is taken before it is compared with anything, so it can lead past the largest offset, and
`ExtractionLaw` says when. Else the buffer is left as it was, or what is taken from it is a whole
message.
-/

namespace PromqlAssist.Framing

/-- What can go wrong with offsets into a buffer. -/
inductive OffsetFault where
  /-- A sum leads past the largest offset. -/
  | overflow
  /-- A slice does not lie in the buffer. -/
  | outOfRange
deriving DecidableEq, Repr

/-- The sum of two offsets. -/
def plus (m n : Nat) : Except OffsetFault Nat :=
  if m + n < sizeLimit then .ok (m + n) else .error .overflow

/-- The bytes between two offsets. -/
def cut (bytes : Bytes) (start stop : Nat) : Except OffsetFault Bytes :=
  if start ≤ stop ∧ stop ≤ bytes.length then .ok ((bytes.drop start).take (stop - start))
  else .error .outOfRange

/-- Takes the first message from a buffer by offsets. Gives the message, if there is one, and what the
buffer holds then. -/
def extract (buffer : Bytes) : Except OffsetFault (Option Text × Bytes) :=
  match headerEnd? buffer with
  | none => return (none, buffer)
  | some headerEnd => do
    let header ← cut buffer 0 headerEnd
    match (Utf8.decode? header).bind contentLength? with
    | none => return (none, buffer)
    | some length =>
      let start ← plus headerEnd blankLine.length
      let stop ← plus start length
      if buffer.length < stop then return (none, buffer)
      else
        let bytes ← cut buffer start stop
        match Utf8.decode? bytes with
        | none => return (none, buffer)
        | some body =>
          let rest ← cut buffer stop buffer.length
          return (some body, rest)

/-- What taking by offsets comes to where a part of the buffer is taken. -/
def Popped.byOffsets (buffer : Bytes) : Popped Text → Except OffsetFault (Option Text × Bytes)
  | .incomplete => .ok (none, buffer)
  | .message body rest => .ok (some body, rest)
  | .tooLong => .error .overflow

/-- Whether a buffer starts with a header block that tells a length: the bytes in front of its first
blank line are a text, and the text tells the length. The rest stands behind the blank line. -/
structure Announces (buffer : Bytes) (header : Text) (length : Nat) (rest : Bytes) : Prop where
  buffer_eq : buffer = Utf8.encode header ++ (blankLine ++ rest)
  first : ∀ front behind, buffer = front ++ (blankLine ++ behind) →
    (Utf8.encode header).length ≤ front.length
  tells : contentLength? header = some length

/-- The offset to which a message of some length reaches. -/
def reach (header : Text) (length : Nat) : Nat :=
  (Utf8.encode header).length + blankLine.length + length

/-- What taking the first message from a buffer does. -/
structure ExtractionLaw (buffer : Bytes) : Prop where
  /-- The parts that are taken are those between the offsets. -/
  byOffsets : extract buffer = (pop buffer).byOffsets buffer
  inRange : extract buffer ≠ .error .outOfRange
  overflow_iff : extract buffer = .error .overflow ↔
    ∃ header length rest, Announces buffer header length rest ∧ sizeLimit ≤ reach header length
  /-- Without a message the buffer stays as it is. -/
  kept : ∀ rest, extract buffer = .ok (none, rest) → rest = buffer
  /-- A message is taken exactly if it stands whole behind a header block that tells its length. -/
  taken_iff : ∀ body rest, extract buffer = .ok (some body, rest) ↔
    ∃ header, Announces buffer header (Utf8.encode body).length (Utf8.encode body ++ rest) ∧
      reach header (Utf8.encode body).length < sizeLimit

variable {buffer bytes rest : Bytes} {header : Text} {m n length start stop : Nat}

/-! ## Offsets -/

theorem plus_of_lt (h : m + n < sizeLimit) : plus m n = .ok (m + n) :=
  if_pos h

theorem plus_of_le (h : sizeLimit ≤ m + n) : plus m n = .error .overflow :=
  if_neg (Nat.not_lt.mpr h)

theorem cut_of_le (hstart : start ≤ stop) (hstop : stop ≤ bytes.length) :
    cut bytes start stop = .ok ((bytes.drop start).take (stop - start)) :=
  if_pos ⟨hstart, hstop⟩

theorem cut_zero (h : stop ≤ bytes.length) : cut bytes 0 stop = .ok (bytes.take stop) :=
  cut_of_le (Nat.zero_le stop) h

theorem cut_length (h : start ≤ bytes.length) :
    cut bytes start bytes.length = .ok (bytes.drop start) := by
  rw [cut_of_le h (Nat.le_refl _), List.take_of_length_le (Nat.le_of_eq List.length_drop)]

theorem ok_bind {α β : Type} (a : α) (f : α → Except OffsetFault β) :
    ((.ok a : Except OffsetFault α) >>= f) = f a := rfl

theorem error_bind {α β : Type} (fault : OffsetFault) (f : α → Except OffsetFault β) :
    ((.error fault : Except OffsetFault α) >>= f) = .error fault := rfl

/-- Of two sums, one behind the other, the second alone decides. -/
theorem plus_bind_plus {α : Type} (m n k : Nat) (f : Nat → Nat → Except OffsetFault α) :
    (plus m n >>= fun start => plus start k >>= f start) =
      if sizeLimit ≤ m + n + k then .error .overflow else f (m + n) (m + n + k) := by
  rcases Nat.lt_or_ge (m + n + k) sizeLimit with hlimit | hlimit
  · rw [if_neg (Nat.not_le.mpr hlimit), plus_of_lt (by omega), ok_bind, plus_of_lt hlimit, ok_bind]
  · rw [if_pos hlimit]
    rcases Nat.lt_or_ge (m + n) sizeLimit with hstart | hstart
    · rw [plus_of_lt hstart, ok_bind, plus_of_le hlimit, error_bind]
    · rw [plus_of_le hstart, error_bind]

/-- Taking by offsets goes wrong only where a length out of range is told, and does the same else. -/
theorem extract_eq (buffer : Bytes) : extract buffer = (pop buffer).byOffsets buffer := by
  unfold extract pop popBytes
  cases hend : headerEnd? buffer with
  | none => rfl
  | some headerEnd =>
    have hreach := add_length_le_of_headerEnd? hend
    dsimp only
    rw [cut_zero (by omega), ok_bind]
    cases (Utf8.decode? (buffer.take headerEnd)).bind contentLength? with
    | none => rfl
    | some length =>
      dsimp only
      rw [plus_bind_plus]
      split
      · rfl
      · split
        · rfl
        · rename_i hlong
          rw [cut_of_le (Nat.le_add_right _ _) (by omega), ok_bind, Nat.add_sub_cancel_left]
          dsimp only
          cases Utf8.decode? ((buffer.drop (headerEnd + blankLine.length)).take length) with
          | none => rfl
          | some body =>
            dsimp only
            rw [cut_length (by omega), ok_bind]
            rfl

/-! ## Header blocks -/

/-- Where no blank line stands at the start, all of them stand in the rest. -/
theorem exists_of_cons_eq_append {b : UInt8} {front behind : Bytes}
    (hnone : ¬ blankLine.isPrefixOf (b :: bytes))
    (h : b :: bytes = front ++ (blankLine ++ behind)) :
    ∃ front', front = b :: front' ∧ bytes = front' ++ (blankLine ++ behind) := by
  cases front with
  | nil => exact absurd (List.isPrefixOf_iff_prefix.mpr ⟨behind, h.symm⟩) hnone
  | cons c front =>
    obtain ⟨rfl, rfl⟩ := List.cons.inj h
    exact ⟨front, rfl, rfl⟩

/-- A block ends at the first blank line. -/
theorem headerEnd?_eq_some_iff : headerEnd? bytes = some n ↔
    (∃ front behind, bytes = front ++ (blankLine ++ behind) ∧ front.length = n) ∧
      ∀ front behind, bytes = front ++ (blankLine ++ behind) → n ≤ front.length := by
  induction bytes generalizing n with
  | nil => simp [headerEnd?, blankLine]
  | cons b bytes ih =>
    rw [headerEnd?]
    split
    · rename_i hprefix
      obtain ⟨behind, hbehind⟩ := List.isPrefixOf_iff_prefix.mp hprefix
      constructor
      · intro h
        obtain rfl := Option.some.inj h
        exact ⟨⟨[], behind, hbehind.symm, rfl⟩, fun _ _ _ => Nat.zero_le _⟩
      · rintro ⟨-, hfirst⟩
        have hzero := hfirst [] behind hbehind.symm
        rw [Nat.le_zero.mp hzero]
    · rename_i hprefix
      rw [Option.map_eq_some_iff]
      constructor
      · rintro ⟨m, hm, rfl⟩
        obtain ⟨⟨front, behind, rfl, rfl⟩, hfirst⟩ := ih.mp hm
        refine ⟨⟨b :: front, behind, rfl, rfl⟩, fun front' behind' h => ?_⟩
        obtain ⟨front', rfl, hrest⟩ := exists_of_cons_eq_append hprefix h
        exact Nat.succ_le_succ (hfirst front' behind' hrest)
      · rintro ⟨⟨front, behind, h, rfl⟩, hfirst⟩
        obtain ⟨front, rfl, hrest⟩ := exists_of_cons_eq_append hprefix h
        refine ⟨front.length, ih.mpr ⟨⟨front, behind, hrest, rfl⟩, fun front' behind' h' => ?_⟩, rfl⟩
        have hle := hfirst (b :: front') behind' (congrArg _ h')
        exact Nat.le_of_succ_le_succ hle

namespace Announces

theorem headerEnd?_eq (h : Announces buffer header length rest) :
    headerEnd? buffer = some (Utf8.encode header).length :=
  headerEnd?_eq_some_iff.mpr ⟨⟨_, rest, h.buffer_eq, rfl⟩, h.first⟩

/-- What is read of a header block that tells a length. -/
theorem decode_eq (h : Announces buffer header length rest) :
    (Utf8.decode? (buffer.take (Utf8.encode header).length)).bind contentLength? = some length := by
  rw [h.buffer_eq, List.take_left, Utf8.decode?_encode, Option.bind_some, h.tells]

theorem drop_eq (h : Announces buffer header length rest) :
    buffer.drop ((Utf8.encode header).length + blankLine.length) = rest := by
  rw [h.buffer_eq, ← List.append_assoc, ← List.length_append, List.drop_left]

end Announces

theorem exists_announces_of_popBytes {headerEnd : Nat} (hend : headerEnd? buffer = some headerEnd)
    (hlength : (Utf8.decode? (buffer.take headerEnd)).bind contentLength? = some length) :
    ∃ header rest, Announces buffer header length rest := by
  obtain ⟨⟨front, rest, rfl, rfl⟩, hfirst⟩ := headerEnd?_eq_some_iff.mp hend
  rw [List.take_left] at hlength
  obtain ⟨header, hheader, htells⟩ := Option.bind_eq_some_iff.mp hlength
  obtain rfl := Utf8.decode?_eq_some_iff.mp hheader
  exact ⟨header, rest, rfl, hfirst, htells⟩

theorem popBytes_of_announces (h : Announces buffer header length rest) : popBytes buffer =
    if sizeLimit ≤ reach header length then .tooLong
    else if rest.length < length then .incomplete
    else .message (rest.take length) (rest.drop length) := by
  have hsize : buffer.length = (Utf8.encode header).length + blankLine.length + rest.length := by
    rw [h.buffer_eq]
    simp only [List.length_append, Nat.add_assoc]
  have hdrop : buffer.drop ((Utf8.encode header).length + blankLine.length + length) =
      rest.drop length := by
    rw [← List.drop_drop, h.drop_eq]
  simp only [popBytes, h.headerEnd?_eq, h.decode_eq, h.drop_eq, hdrop, hsize,
    Nat.add_lt_add_iff_left]
  rfl

theorem pop_of_announces (h : Announces buffer header length rest) : pop buffer =
    if sizeLimit ≤ reach header length then .tooLong
    else if rest.length < length then .incomplete
    else match Utf8.decode? (rest.take length) with
      | none => .incomplete
      | some body => .message body (rest.drop length) := by
  rw [pop, popBytes_of_announces h]
  by_cases hlimit : sizeLimit ≤ reach header length
  · rw [if_pos hlimit, if_pos hlimit]
  · rw [if_neg hlimit, if_neg hlimit]
    by_cases hshort : rest.length < length
    · rw [if_pos hshort, if_pos hshort]
    · cases hdecode : Utf8.decode? (rest.take length) <;>
        simp only [if_neg hshort, hdecode]

theorem exists_announces (h : pop buffer ≠ .incomplete) :
    ∃ header length rest, Announces buffer header length rest := by
  cases hend : headerEnd? buffer with
  | none => exact absurd (by simp only [pop, popBytes, hend]) h
  | some headerEnd =>
    cases hlength : (Utf8.decode? (buffer.take headerEnd)).bind contentLength? with
    | none => exact absurd (by simp only [pop, popBytes, hend, hlength]) h
    | some length =>
      obtain ⟨header, rest, hannounces⟩ := exists_announces_of_popBytes hend hlength
      exact ⟨header, length, rest, hannounces⟩

/-! ## The law -/

theorem pop_eq_tooLong_iff : pop buffer = .tooLong ↔
    ∃ header length rest, Announces buffer header length rest ∧ sizeLimit ≤ reach header length := by
  constructor
  · intro h
    have hsome : pop buffer ≠ .incomplete := by simp [h]
    obtain ⟨header, length, rest, hannounces⟩ := exists_announces hsome
    refine ⟨header, length, rest, hannounces, ?_⟩
    rw [pop_of_announces hannounces] at h
    grind
  · rintro ⟨header, length, rest, hannounces, hlimit⟩
    rw [pop_of_announces hannounces, if_pos hlimit]

theorem pop_eq_message_iff {body : Text} : pop buffer = .message body rest ↔
    ∃ header, Announces buffer header (Utf8.encode body).length (Utf8.encode body ++ rest) ∧
      reach header (Utf8.encode body).length < sizeLimit := by
  constructor
  · intro h
    have hsome : pop buffer ≠ .incomplete := by simp [h]
    obtain ⟨header, length, behind, hannounces⟩ := exists_announces hsome
    rw [pop_of_announces hannounces] at h
    split at h
    · cases h
    · rename_i hlimit
      split at h
      · cases h
      · rename_i hlong
        split at h
        · cases h
        · rename_i body hdecode
          obtain ⟨rfl, rfl⟩ := Popped.message.inj h
          have hbody := Utf8.decode?_eq_some_iff.mp hdecode
          have hlength : (Utf8.encode body).length = length := by
            rw [← hbody, List.length_take]
            omega
          refine ⟨header, ?_, ?_⟩
          · rw [hlength, ← hbody, List.take_append_drop]
            exact hannounces
          · rw [hlength]
            exact Nat.not_le.mp hlimit
  · rintro ⟨header, hannounces, hlimit⟩
    have hlong : ¬ (Utf8.encode body ++ rest).length < (Utf8.encode body).length := by
      rw [List.length_append]
      omega
    rw [pop_of_announces hannounces, if_neg (Nat.not_le.mpr hlimit), if_neg hlong, List.take_left,
      List.drop_left, Utf8.decode?_encode]

/-- Taking a message by offsets goes wrong exactly where a header tells a length past the largest
offset. -/
theorem extractionLaw_extract (buffer : Bytes) : ExtractionLaw buffer := by
  have heq := extract_eq buffer
  constructor
  case byOffsets => exact heq
  case inRange =>
    rw [heq]
    cases pop buffer <;> simp [Popped.byOffsets]
  case overflow_iff =>
    rw [heq, ← pop_eq_tooLong_iff]
    cases pop buffer <;> simp [Popped.byOffsets]
  case kept =>
    intro rest h
    rw [heq] at h
    cases hpop : pop buffer <;> simp_all [Popped.byOffsets]
  case taken_iff =>
    intro body rest
    rw [heq, ← pop_eq_message_iff]
    cases pop buffer <;> simp [Popped.byOffsets]

/-- A header that tells the largest length, with nothing behind it. -/
def boundless : Bytes :=
  Utf8.encode "Content-Length: 18446744073709551615\r\n\r\n".toList

theorem extract_boundless : extract boundless = .error .overflow := by
  have hpop : pop boundless = .tooLong := by decide +kernel
  rw [extract_eq, hpop]
  rfl

end PromqlAssist.Framing
