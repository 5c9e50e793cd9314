import PromqlAssist.Proofs.Format.Decimal
import PromqlAssist.Proofs.Text.CharClass
import PromqlAssist.Server.Framing

/-!
# Header blocks

The lines of a header block are read back as they were written, and the block ends at the first
blank line and nowhere before. Only carriage returns matter for the end, and these are single bytes
that no other character has in its encoding.
-/

namespace PromqlAssist

namespace Utf8

/-- A byte below 128 encodes its own character and is part of no other. -/
theorem eq_of_mem_encodeChar {c : Char} {b : UInt8} (h : b ∈ String.utf8EncodeChar c)
    (hb : b.toNat < 128) : c.toNat = b.toNat := by
  dsimp only [String.utf8EncodeChar] at h
  simp only [Char.toNat]
  split at h
  · obtain rfl := List.mem_singleton.mp h
    rw [UInt8.toNat_ofNat']
    omega
  · -- All bytes of a longer encoding have the highest bit.
    split at h
    · simp only [List.mem_cons, List.not_mem_nil, or_false] at h
      rcases h with rfl | rfl <;> rw [UInt8.toNat_ofNat'] at hb <;> omega
    · split at h
      · simp only [List.mem_cons, List.not_mem_nil, or_false] at h
        rcases h with rfl | rfl | rfl <;> rw [UInt8.toNat_ofNat'] at hb <;> omega
      · simp only [List.mem_cons, List.not_mem_nil, or_false] at h
        rcases h with rfl | rfl | rfl | rfl <;> rw [UInt8.toNat_ofNat'] at hb <;> omega

theorem return_mem_encode {t : Text} (h : 13 ∈ encode t) : '\r' ∈ t := by
  obtain ⟨c, hc, hbyte⟩ := List.mem_flatMap.mp h
  have heq : c.toNat = 13 := eq_of_mem_encodeChar hbyte (by decide)
  have hreturn : c = '\r' := Char.toNat_inj.mp heq
  exact hreturn ▸ hc

theorem encode_ne_nil {t : Text} (h : t ≠ []) : encode t ≠ [] := by
  intro hnil
  have hsize : t.size = 0 := by rw [← length_encode, hnil, List.length_nil]
  cases t with
  | nil => exact h rfl
  | cons c t =>
    have hpos := c.utf8Size_pos
    rw [Text.size_cons] at hsize
    omega

end Utf8

namespace Framing

/-! ### The end of a block -/

section HeaderEnd

variable {bytes p : Bytes} {b : UInt8} {n : Nat}

theorem headerEnd?_cons_of_ne (h : b ≠ 13) (rest : Bytes) :
    headerEnd? (b :: rest) = (headerEnd? rest).map (· + 1) := by
  have hprefix : blankLine.isPrefixOf (b :: rest) = false := by
    simp [blankLine, List.isPrefixOf, Ne.symm h]
  rw [headerEnd?, hprefix]
  rfl

theorem headerEnd?_append_of_not_mem (h : 13 ∉ bytes) (rest : Bytes) :
    headerEnd? (bytes ++ rest) = (headerEnd? rest).map (· + bytes.length) := by
  induction bytes with
  | nil => simp
  | cons b bytes ih =>
    rw [List.mem_cons, not_or] at h
    rw [List.cons_append, headerEnd?_cons_of_ne (Ne.symm h.1), ih h.2, Option.map_map]
    rfl

/-- A line break in front of anything but another one ends nothing. -/
theorem headerEnd?_break (h : ∀ b ∈ bytes.head?, b ≠ 13) :
    headerEnd? (13 :: 10 :: bytes) = (headerEnd? bytes).map (· + 2) := by
  have hprefix : blankLine.isPrefixOf (13 :: 10 :: bytes) = false := by
    cases bytes with
    | nil => rfl
    | cons b bytes => simp [blankLine, List.isPrefixOf, Ne.symm (h b rfl)]
  rw [headerEnd?, hprefix, headerEnd?_cons_of_ne (by decide)]
  simp [Option.map_map, Function.comp_def]

theorem headerEnd?_blankLine (rest : Bytes) : headerEnd? (blankLine ++ rest) = some 0 := by
  simp [blankLine, headerEnd?, List.isPrefixOf]

theorem add_length_le_of_headerEnd? (h : headerEnd? p = some n) :
    n + blankLine.length ≤ p.length := by
  induction p generalizing n with
  | nil => cases h
  | cons b p ih =>
    rw [headerEnd?] at h
    split at h
    · rename_i hprefix
      obtain rfl := Option.some.inj h
      simpa using (List.isPrefixOf_iff_prefix.mp hprefix).length_le
    · obtain ⟨m, hm, rfl⟩ := Option.map_eq_some_iff.mp h
      have hle := ih hm
      rw [List.length_cons]
      omega

/-- More bytes behind a block do not move its end. -/
theorem headerEnd?_append (h : headerEnd? p = some n) (later : Bytes) :
    headerEnd? (p ++ later) = some n := by
  induction p generalizing n with
  | nil => cases h
  | cons b p ih =>
    rw [headerEnd?] at h
    rw [List.cons_append, headerEnd?]
    split at h
    · rename_i hprefix
      have hlonger : blankLine.isPrefixOf (b :: (p ++ later)) = true :=
        List.isPrefixOf_iff_prefix.mpr
          ((List.isPrefixOf_iff_prefix.mp hprefix).trans (List.prefix_append (b :: p) later))
      rw [if_pos hlonger, ← h]
    · rename_i hprefix
      obtain ⟨m, hm, rfl⟩ := Option.map_eq_some_iff.mp h
      have hlonger : ¬ blankLine.isPrefixOf (b :: (p ++ later)) = true := by
        intro hlong
        -- The bytes at hand reach behind a blank line, so the one found would have been among them.
        have hreach := add_length_le_of_headerEnd? hm
        have hshort : blankLine <+: b :: p :=
          List.prefix_of_prefix_length_le (List.isPrefixOf_iff_prefix.mp hlong)
            (List.prefix_append (b :: p) later) (by rw [List.length_cons]; omega)
        exact hprefix (List.isPrefixOf_iff_prefix.mpr hshort)
      rw [if_neg hlonger, ih hm]
      rfl

end HeaderEnd

/-! ### The lines of a block -/

/-- Lines with a break between each two. -/
def block : List Text → Text
  | [] => []
  | [line] => line
  | line :: next :: lines => line ++ '\r' :: '\n' :: block (next :: lines)

/-- Whether a text is one line. -/
def IsLine (t : Text) : Prop :=
  t ≠ [] ∧ ∀ c ∈ t, c ≠ '\r' ∧ c ≠ '\n'

instance (t : Text) : Decidable (IsLine t) :=
  inferInstanceAs (Decidable (_ ∧ _))

theorem IsLine.return_not_mem {line : Text} (h : IsLine line) : 13 ∉ Utf8.encode line := by
  intro hmem
  exact (h.2 '\r' (Utf8.return_mem_encode hmem)).1 rfl

/-- No line starts with a line break. -/
theorem IsLine.head?_encode_append {line : Text} (h : IsLine line) (rest : Bytes) :
    ∀ b ∈ (Utf8.encode line ++ rest).head?, b ≠ 13 := by
  rintro b hb rfl
  rw [List.head?_append, Option.mem_def, Option.or_eq_some_iff] at hb
  rcases hb with hb | ⟨hnil, -⟩
  · exact h.return_not_mem (List.mem_of_head? hb)
  · exact Utf8.encode_ne_nil h.1 (List.head?_eq_none_iff.mp hnil)

theorem block_cons (line : Text) (lines : List Text) :
    ∃ more, block (line :: lines) = line ++ more := by
  cases lines with
  | nil => exact ⟨[], (List.append_nil line).symm⟩
  | cons next lines => exact ⟨_, rfl⟩

theorem encode_block_cons (line next : Text) (lines : List Text) :
    Utf8.encode (block (line :: next :: lines)) =
      Utf8.encode line ++ 13 :: 10 :: Utf8.encode (block (next :: lines)) := by
  rw [block, Utf8.encode_append]
  rfl

/-- A block of lines ends where its last line does. -/
theorem headerEnd?_block {lines : List Text} (hne : lines ≠ []) (h : ∀ l ∈ lines, IsLine l)
    (rest : Bytes) : headerEnd? (Utf8.encode (block lines) ++ (blankLine ++ rest)) =
      some (Utf8.encode (block lines)).length := by
  induction lines with
  | nil => exact absurd rfl hne
  | cons line lines ih =>
    have hline : 13 ∉ Utf8.encode line := (h line List.mem_cons_self).return_not_mem
    cases lines with
    | nil =>
      rw [block, headerEnd?_append_of_not_mem hline, headerEnd?_blankLine]
      simp
    | cons next lines =>
      have hnext : IsLine next := h next (by simp)
      have hhead : ∀ b ∈ (Utf8.encode (block (next :: lines)) ++ (blankLine ++ rest)).head?,
          b ≠ 13 := by
        obtain ⟨more, hmore⟩ := block_cons next lines
        rw [hmore, Utf8.encode_append, List.append_assoc]
        exact hnext.head?_encode_append _
      rw [encode_block_cons, List.append_assoc, headerEnd?_append_of_not_mem hline,
        List.cons_append, List.cons_append, headerEnd?_break hhead,
        ih (by simp) fun l hl => h l (List.mem_cons_of_mem line hl)]
      simp only [Option.map_some, List.length_append, List.length_cons]
      congr 1
      omega

theorem linesFrom_cons_of_ne {c : Char} (h : c ≠ '\n') (pending rest : Text) :
    linesFrom pending (c :: rest) = linesFrom (c :: pending) rest := by
  rw [linesFrom.eq_def]
  exact if_neg h

theorem linesFrom_break (pending rest : Text) :
    linesFrom pending ('\r' :: '\n' :: rest) = pending.reverse :: linesFrom [] rest := by
  rw [linesFrom_cons_of_ne (by decide)]
  rfl

theorem linesFrom_append {line : Text} (h : ∀ c ∈ line, c ≠ '\n') (pending rest : Text) :
    linesFrom pending (line ++ rest) = linesFrom (line.reverse ++ pending) rest := by
  induction line generalizing pending with
  | nil => rfl
  | cons c line ih =>
    rw [List.cons_append, linesFrom_cons_of_ne (h c List.mem_cons_self),
      ih fun d hd => h d (List.mem_cons_of_mem c hd)]
    simp

/-- The lines of a block are those that were written. -/
theorem lines_block {ls : List Text} (h : ∀ l ∈ ls, IsLine l) : lines (block ls) = ls := by
  induction ls with
  | nil => rfl
  | cons line ls ih =>
    have hline : IsLine line := h line List.mem_cons_self
    have hbreak : ∀ c ∈ line, c ≠ '\n' := fun c hc => (hline.2 c hc).2
    cases ls with
    | nil =>
      have hend := linesFrom_append hbreak [] []
      rw [List.append_nil, List.append_nil] at hend
      rw [lines, block, hend, linesFrom]
      simp [hline.1]
    | cons next ls =>
      have hrest : linesFrom [] (block (next :: ls)) = next :: ls :=
        ih fun l hl => h l (List.mem_cons_of_mem line hl)
      rw [lines, block, linesFrom_append hbreak, linesFrom_break, hrest]
      simp

end Framing

end PromqlAssist
