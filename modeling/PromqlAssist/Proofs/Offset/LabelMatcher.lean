import PromqlAssist.Proofs.Offset.Scan

/-!
# Label matchers by offsets

Offsets that are found in a masked entry cut the entry itself.
-/

namespace PromqlAssist.Offset

open Text Checked

variable {t masked entry : Text}

/-- Whether an entry is a name, one comparison and a value. -/
def isMatcher (entry masked : Text) : Checked Bool := do
  match first? Rule.isComparisonChar masked with
  | none => return false
  | some stop =>
    match Rule.comparison? (← masked.cutFrom stop) with
    | none => return false
    | some (op, _) =>
      let start := stop + op.utf8ByteSize
      let name ← entry.cutTo stop
      let value ← entry.cutFrom start
      let valueMasked ← masked.cutFrom start
      return !isAllBlank name && !isAllBlank value && !valueMasked.any Rule.isComparisonChar

theorem isMatcher_eq (h : Blanked entry masked) :
    isMatcher entry masked = .ok (Rule.isMatcher entry masked) := by
  have hsplit := List.takeWhile_append_dropWhile (p := fun c => !Rule.isComparisonChar c) (l := masked)
  rw [isMatcher, Rule.isMatcher, first?_eq]
  generalize masked.takeWhile (fun c => !Rule.isComparisonChar c) = name at hsplit
  cases hrest : masked.dropWhile fun c => !Rule.isComparisonChar c with
  | nil => rfl
  | cons c rest =>
    rw [hrest] at hsplit
    subst hsplit
    dsimp only
    rw [cutFrom_append, ok_bind]
    cases hop : Rule.comparison? (c :: rest) with
    | none => rfl
    | some found =>
      obtain ⟨op, value⟩ := found
      obtain ⟨hmem, heq⟩ := Rule.comparison?_eq_some hop
      obtain ⟨hsize, hne, hchars⟩ := Rule.comparison_spelling hmem
      rw [heq] at h ⊢
      obtain ⟨name', value', rfl, hname, -⟩ := h.exists_of_append_word
        (fun c hc => (Rule.isShown_of_isComparisonChar (hchars c hc)).1) hne
      have hcutName := cutTo_append name' (op.toList ++ value')
      have hcutValue := cutFrom_append (name' ++ op.toList) value'
      have hcutMasked := cutFrom_append (name ++ op.toList) value
      have hbefore := before_size_append name' (op.toList ++ value')
      have hafter := after_size_append (name' ++ op.toList) value'
      rw [hname.size_eq] at hcutName hbefore
      rw [size_append, hname.size_eq, List.append_assoc] at hcutValue hafter
      rw [size_append, List.append_assoc] at hcutMasked
      simp only [hsize, hbefore, hafter]
      rw [hcutName, ok_bind, hcutValue, ok_bind, hcutMasked, ok_bind]
      rfl

/-- The offset of the first entry that is neither blank nor a matcher. -/
def badEntry (masked : Text) : List (Nat × Text) → Checked (Option Nat)
  | [] => return none
  | (offset, entry) :: entries => do
    if isAllBlank entry then badEntry masked entries
    else
      let entryMasked ← masked.cut offset (offset + size entry)
      if ← isMatcher entry entryMasked then badEntry masked entries
      else
        let blanks ← sub (size entry) (size (trimStart entry))
        return some (offset + blanks)

theorem badEntry_eq (h : Blanked t masked) {entries : List (Nat × Text)}
    (hentries : ∀ e ∈ entries, e ∈ Text.splitCommas t masked) :
    badEntry masked entries = .ok (entries.findSome? fun (offset, entry) =>
      if isAllBlank entry || Rule.isMatcher entry (slice masked offset (offset + size entry)) then
        none
      else some (offset + (size entry - size (trimStart entry)))) := by
  induction entries with
  | nil => rfl
  | cons e entries ih =>
    obtain ⟨offset, entry⟩ := e
    have hlater := ih fun e he => hentries e (List.mem_cons_of_mem _ he)
    obtain ⟨front, behind, frontMasked, entryMasked, behindMasked, -, rfl, hmasked, hfront, hentry⟩ :=
      Rule.exists_of_mem_splitCommas h (hentries (offset, entry) (by simp))
    have hcut := cut_append frontMasked entryMasked behindMasked
    have hslice := slice_append frontMasked entryMasked behindMasked
    rw [← hmasked, ← hfront.size_eq, ← hentry.size_eq] at hcut hslice
    have htrim : size (trimStart entry) ≤ size entry := by
      conv => rhs; rw [← List.takeWhile_append_dropWhile (p := isBlank) (l := entry), size_append]
      exact Nat.le_add_left _ _
    rw [badEntry, List.findSome?_cons]
    dsimp only
    rw [hslice]
    cases hblank : isAllBlank entry with
    | true => exact hlater
    | false =>
      rw [if_neg Bool.false_ne_true, hcut, ok_bind, isMatcher_eq hentry, ok_bind, sub_of_le htrim]
      cases Rule.isMatcher entry entryMasked with
      | true => exact hlater
      | false => rfl

/-- The entries of the first closed brace block have to be label matchers. -/
def labelMatchers (query : Text) : Checked (Option Span) := do
  let masked := query.mask
  match first? (· = '{') masked with
  | none => return none
  | some start =>
    match first? (· = '}') (← masked.cutFrom start) with
    | none => return none
    | some length =>
      let stop := start + length
      let block ← query.cut (start + 1) stop
      let blockMasked ← masked.cut (start + 1) stop
      match ← badEntry blockMasked (← splitCommas block blockMasked) with
      | none => return none
      | some n => return some ⟨start + 1 + n, stop + 1⟩

theorem labelMatchers_eq (v : Vocabulary) (query : Text) :
    labelMatchers query = .ok (Rule.labelMatchers v query) := by
  rcases Rule.labelBlock_cases query with hnone | ⟨front, rest, hmask, hfirst, hopen⟩ | ⟨⟨b⟩⟩
  · rw [labelMatchers, labelMatchers_of_not_mem v hnone, first?_not_mem hnone]
    rfl
  · rw [Rule.labelMatchers_of_open v hmask hfirst hopen, labelMatchers, hmask, first?_char hfirst]
    dsimp only
    rw [cutFrom_append, ok_bind, first?_not_mem (by simpa using hopen)]
    rfl
  · have hstart : first? (· = '{') query.mask = some (size b.frontMasked) := by
      rw [b.mask_eq, first?_char b.first]
    have hstop : first? (· = '}') ('{' :: (b.blockMasked ++ '}' :: b.behindMasked)) =
        some (1 + size b.blockMasked) :=
      first?_char (by simpa using b.next : '}' ∉ '{' :: b.blockMasked) b.behindMasked
    have hrest : query.mask.cutFrom (size b.frontMasked) =
        .ok ('{' :: (b.blockMasked ++ '}' :: b.behindMasked)) := by
      rw [b.mask_eq, cutFrom_append]
    have hopen : size (b.front ++ ['{']) = size b.frontMasked + 1 := by
      simp [b.blanked_front.size_eq]
    have hopenMasked : size (b.frontMasked ++ ['{']) = size b.frontMasked + 1 := by simp
    have hblock := cut_append (b.front ++ ['{']) b.block ('}' :: b.behind)
    have hblockMasked := cut_append (b.frontMasked ++ ['{']) b.blockMasked ('}' :: b.behindMasked)
    rw [← List.append_cons, ← b.query_eq, b.blanked_block.size_eq, hopen] at hblock
    rw [← List.append_cons, ← b.mask_eq, hopenMasked] at hblockMasked
    rw [Rule.labelMatchers_eq v b, labelMatchers, hstart]
    dsimp only
    rw [hrest, ok_bind, hstop]
    dsimp only
    rw [← Nat.add_assoc, hblock, ok_bind, hblockMasked, ok_bind, splitCommas_eq b.blanked_block,
      ok_bind, badEntry_eq b.blanked_block fun e he => he, ok_bind, Rule.badMatcher?]
    split
    · rename_i hnone
      rw [hnone]
      rfl
    · rename_i n hsome
      rw [hsome]
      rfl

end PromqlAssist.Offset
