import Mathlib.Data.List.Basic
import PromqlAssist.Proofs.Offset.LabelMatcher
import PromqlAssist.Proofs.Text.Literal
import PromqlAssist.Rule.Builtin

/-!
# Rules see a query through its mask

All rules but the one on metrics find in a query what they find in its mask, also those that look at
the query itself: a blank query has no literal, the reader of literals is as often inside one in the
mask as in the query, and the parts of a label matcher are blank where their masks are. So nothing
that stands inside a string literal has a say in their outcome.
-/

namespace PromqlAssist.Rule

open Text

variable {query entry : Text} {n opened : Nat} {r : Rule}

theorem blankQuery_mask (v : Vocabulary) (query : Text) :
    blankQuery v query.mask = blankQuery v query := by
  rw [blankQuery, blankQuery, isAllBlank_mask, size_mask]

/-! ## String literals -/

theorem literalDefectFrom?_inside (n opened : Nat) (c : Char) (t : Text) :
    literalDefectFrom? n .inside opened (c :: t) =
      literalDefectFrom? (n + c.utf8Size) (LiteralState.inside.next c) opened t := by
  simp [literalDefectFrom?]

/-- Blanks inside a literal are passed over. -/
theorem literalDefectFrom?_blanks (n opened k : Nat) (t : Text) :
    literalDefectFrom? n .inside opened (List.replicate k ' ' ++ t) =
      literalDefectFrom? (n + k) .inside opened t := by
  have hsize : (' ' : Char).utf8Size = 1 := by decide
  induction k generalizing n with
  | zero => rfl
  | succ k ih =>
    rw [List.replicate_succ, List.cons_append, literalDefectFrom?_inside, hsize]
    show literalDefectFrom? (n + 1) .inside opened _ = _
    rw [ih, Nat.add_right_comm, Nat.add_assoc]

theorem literalDefectFrom?_maskFrom (n : Nat) (state : LiteralState) (opened : Nat) (t : Text) :
    literalDefectFrom? n state.masked opened (maskFrom state t) =
      literalDefectFrom? n state opened t := by
  induction t generalizing n state opened with
  | nil => cases state <;> rfl
  | cons c t ih =>
    cases state with
    | outside =>
      rw [maskFrom_outside_cons, LiteralState.masked, literalDefectFrom?, literalDefectFrom?]
      split
      · rfl
      · rw [← ih, LiteralState.next_outside_masked]
    | inside =>
      show literalDefectFrom? n .inside opened _ = _
      rw [literalDefectFrom?_inside, maskFrom, ← ih]
      by_cases hc : c = '"'
      · subst hc
        rw [if_pos rfl, List.singleton_append, literalDefectFrom?_inside]
        rfl
      · rw [if_neg hc, blankFor, literalDefectFrom?_blanks, LiteralState.next_inside_masked hc]
    | escaped =>
      have hstep : literalDefectFrom? n .escaped opened (c :: t) =
          literalDefectFrom? (n + c.utf8Size) .inside opened t := by
        simp [literalDefectFrom?, LiteralState.next]
      show literalDefectFrom? n .inside opened _ = _
      rw [hstep, maskFrom, blankFor, literalDefectFrom?_blanks]
      exact ih _ .inside _

theorem stringLiterals_mask (v : Vocabulary) (query : Text) :
    stringLiterals v query.mask = stringLiterals v query :=
  congrArg (Option.map _) (literalDefectFrom?_maskFrom 0 .outside 0 query)

/-! ## Label matchers -/

/-- The sides of the comparison are blank where their masks are. -/
theorem isMatcher_mask (entry : Text) :
    isMatcher entry.mask entry.mask = isMatcher entry entry.mask := by
  have hsplit := List.takeWhile_append_dropWhile (p := fun c => !isComparisonChar c)
    (l := entry.mask)
  unfold isMatcher
  generalize entry.mask.takeWhile (fun c => !isComparisonChar c) = name at hsplit
  cases hop : comparison? (entry.mask.dropWhile fun c => !isComparisonChar c) with
  | none => rfl
  | some found =>
    obtain ⟨op, value⟩ := found
    obtain ⟨hmem, hrest⟩ := comparison?_eq_some hop
    obtain ⟨hsize, hne, hchars⟩ := comparison_spelling hmem
    rw [hrest] at hsplit
    obtain ⟨name', value', hentry, hname, hvalue, -⟩ := exists_of_mask_append_word hsplit.symm
      (fun c hc => isShown_of_isComparisonChar (hchars c hc)) hne
    have hsizes : size name' = size name := by rw [← hname, size_mask]
    have hbefore := before_size_append name' (op.toList ++ value')
    have hafter := after_size_append (name' ++ op.toList) value'
    have hbeforeMask := before_size_append name (op.toList ++ value)
    have hafterMask := after_size_append (name ++ op.toList) value
    rw [hsizes, ← hentry] at hbefore
    rw [size_append, hsizes, List.append_assoc, ← hentry] at hafter
    rw [hsplit] at hbeforeMask
    rw [size_append, List.append_assoc, hsplit] at hafterMask
    simp only [hsize, hbefore, hafter, hbeforeMask, hafterMask]
    rw [← hname, ← hvalue, isAllBlank_mask, isAllBlank_mask]

/-- An entry starts at the start of the list or behind a comma of it. -/
theorem start_of_mem_commaSpansFrom {start n : Nat} {rest : Text} {span : Span}
    (h : span ∈ commaSpansFrom start n rest) :
    span.start = start ∨ ∃ a b, rest = a ++ ',' :: b ∧ span.start = n + size a + 1 := by
  have hcomma : (',' : Char).utf8Size = 1 := by decide
  induction rest generalizing start n with
  | nil =>
    obtain rfl := List.mem_singleton.mp h
    exact .inl rfl
  | cons c rest ih =>
    rw [commaSpansFrom] at h
    by_cases hc : c = ','
    · subst hc
      simp only [if_true, hcomma] at h
      cases h with
      | head => exact .inl rfl
      | tail _ h =>
        obtain hstart | ⟨a, b, rfl, hstart⟩ := ih h
        · exact .inr ⟨[], rest, rfl, hstart⟩
        · refine .inr ⟨',' :: a, b, rfl, ?_⟩
          rw [hstart, size_cons, hcomma]
          omega
    · simp only [if_neg hc] at h
      obtain hstart | ⟨a, b, rfl, hstart⟩ := ih h
      · exact .inl hstart
      · refine .inr ⟨c :: a, b, rfl, ?_⟩
        rw [hstart, size_cons]
        omega

/-- Commas stand outside literals, so an entry is masked by itself. -/
theorem mask_slice_of_mem_commaSpansFrom {t : Text} {span : Span}
    (h : span ∈ commaSpansFrom 0 0 t.mask) :
    (span.slice t).mask = span.slice t.mask ∧ span.stop = span.start + size (span.slice t) := by
  have hfits : span.Fits t :=
    fits_of_mem_commaSpansFrom [] (.mask t) (isBoundary_zero t) (Nat.le_refl 0) h
  obtain ⟨a, b, c, rfl, rfl⟩ := hfits.exists_append
  have houtside : LiteralState.outside.after a = .outside := by
    obtain hstart | ⟨p, s, hmask, hstart⟩ := start_of_mem_commaSpansFrom h
    · obtain rfl := size_eq_zero_iff.mp hstart
      rfl
    · obtain ⟨a', b', ht, rfl, -, hstate⟩ := exists_of_mask_append_cons hmask (by decide)
      rw [List.append_cons] at ht
      have hsize : size a = size (a' ++ [',']) := by
        have hcomma : (',' : Char).utf8Size = 1 := by decide
        have hfront : size a = 0 + size a'.mask + 1 := hstart
        simp only [hfront, size_mask, size_append, size_cons, size_nil, hcomma]
        omega
      obtain ⟨rfl, -⟩ := append_inj_of_size ht hsize
      rw [LiteralState.after_append, hstate]
      rfl
  have hmask : (a ++ (b ++ c)).mask = a.mask ++ (b.mask ++
      maskFrom (LiteralState.outside.after b) c) := by
    rw [mask, maskFrom_append, houtside, maskFrom_append]
    rfl
  have hcut : (⟨size a, size a + size b⟩ : Span).slice (a ++ (b ++ c)) = b := slice_append a b c
  have hcutMask := slice_append a.mask b.mask (maskFrom (LiteralState.outside.after b) c)
  rw [size_mask, size_mask, ← hmask] at hcutMask
  rw [hcut]
  exact ⟨hcutMask.symm, rfl⟩

theorem badMatcher?_mask (block : Text) :
    badMatcher? block.mask block.mask = badMatcher? block block.mask := by
  unfold badMatcher? splitCommas
  rw [List.findSome?_map, List.findSome?_map, ← List.head?_filterMap, ← List.head?_filterMap]
  congr 1
  apply List.filterMap_congr
  intro span hspan
  obtain ⟨hentry, hstop⟩ := mask_slice_of_mem_commaSpansFrom hspan
  have hpart : slice block.mask span.start (span.start + size (span.slice block)) =
      (span.slice block).mask := by
    rw [hentry, ← hstop]
    rfl
  simp only [Function.comp_apply]
  rw [← hentry, size_mask, trimStart_mask, size_mask, isAllBlank_mask, hpart, isMatcher_mask]

/-- A block of a query is masked by itself, and is a block of the mask. -/
theorem labelMatchers_mask (v : Vocabulary) (query : Text) :
    labelMatchers v query.mask = labelMatchers v query := by
  obtain hnone | ⟨front, rest, hmask, hfirst, hopen⟩ | ⟨⟨b⟩⟩ := labelBlock_cases query
  · rw [labelMatchers_of_not_mem v hnone]
    exact labelMatchers_of_not_mem v (by rwa [mask_mask])
  · rw [labelMatchers_of_open v hmask hfirst hopen]
    exact labelMatchers_of_open v (by rwa [mask_mask]) hfirst hopen
  · have hblock : b.block.mask = b.blockMasked := by
      have hmask : mask (b.front ++ '{' :: (b.block ++ '}' :: b.behind)) =
          b.frontMasked ++ '{' :: (b.blockMasked ++ '}' :: b.behindMasked) :=
        (congrArg mask b.query_eq).symm.trans b.mask_eq
      rw [mask, maskFrom_append] at hmask
      obtain ⟨-, hrest⟩ := append_inj_of_size hmask
        ((size_mask b.front).trans b.blanked_front.size_eq)
      rw [eq_outside_of_shown hrest (by decide), maskFrom_outside_cons, next_of_shown (by decide),
        maskFrom_append] at hrest
      exact (append_inj_of_size (List.cons.inj hrest).2
        ((size_mask b.block).trans b.blanked_block.size_eq)).1
    let masked : LabelBlock query.mask :=
      { front := b.frontMasked
        block := b.blockMasked
        behind := b.behindMasked
        frontMasked := b.frontMasked
        blockMasked := b.blockMasked
        behindMasked := b.behindMasked
        query_eq := b.mask_eq
        mask_eq := by rw [mask_mask, b.mask_eq]
        first := b.first
        next := b.next
        blanked_front := .self b.frontMasked
        blanked_block := .self b.blockMasked }
    rw [labelMatchers_eq v masked, labelMatchers_eq v b]
    show (badMatcher? b.blockMasked b.blockMasked).map _ = _
    rw [← hblock, badMatcher?_mask]

/-! ## All rules -/

/-- A rule in force, other than that on metrics, finds in a query what it finds in its mask. -/
theorem check_mask (hr : r ∈ builtin) (hid : r.id ≠ .metricPresence) (v : Vocabulary)
    (query : Text) : r.check v query.mask = r.check v query := by
  simp only [builtin, List.mem_cons, List.not_mem_nil, or_false] at hr
  rcases hr with rfl | rfl | rfl | rfl | rfl | rfl | rfl | rfl | rfl
  · exact blankQuery_mask v query
  · show balancedBrackets v query.mask = balancedBrackets v query
    rw [balancedBrackets, balancedBrackets, mask_mask]
  · exact absurd rfl hid
  · show timeRange v query.mask = timeRange v query
    rw [timeRange, timeRange, mask_mask]
  · exact labelMatchers_mask v query
  · show binaryExpression v query.mask = binaryExpression v query
    rw [binaryExpression, binaryExpression, mask_mask]
  · show rateUsage v query.mask = rateUsage v query
    rw [rateUsage, rateUsage, mask_mask]
  · show aggregationExpression v query.mask = aggregationExpression v query
    rw [aggregationExpression, aggregationExpression, mask_mask]
  · exact stringLiterals_mask v query

/-- What stands inside string literals has no say in the outcome of a rule, the rule on metrics
apart. -/
theorem check_eq_of_mask_eq {q₁ q₂ : Text} (hmask : q₁.mask = q₂.mask) (hr : r ∈ builtin)
    (hid : r.id ≠ .metricPresence) (v : Vocabulary) : r.check v q₁ = r.check v q₂ := by
  rw [← check_mask hr hid v q₁, hmask, check_mask hr hid v q₂]

/-- Two strings of five bytes. One of them holds a brace, a comma and an escaped quote; the entry
behind them is no matcher. -/
theorem check_eq_of_mask_eq_labelMatchers :
    ∃ r ∈ builtin, r.id = .labelMatchers ∧
      mask "x\x7ba=\"é=\\\\\", b\x7d".toList = mask "x\x7ba=\"\x7d,\\\"]\", b\x7d".toList ∧
      r.check .empty "x\x7ba=\"é=\\\\\", b\x7d".toList = some ⟨13, 15⟩ ∧
      r.check .empty "x\x7ba=\"\x7d,\\\"]\", b\x7d".toList = some ⟨13, 15⟩ := by
  have hr : ⟨.labelMatchers, "Invalid label matcher, expected name=\"value\"",
      some mentionsLabelBlock, labelMatchers⟩ ∈ builtin := by
    simp [builtin]
  have hmask : mask "x\x7ba=\"é=\\\\\", b\x7d".toList =
      mask "x\x7ba=\"\x7d,\\\"]\", b\x7d".toList := by decide +kernel
  have hplain : labelMatchers .empty "x\x7ba=\"é=\\\\\", b\x7d".toList = some ⟨13, 15⟩ := by
    decide +kernel
  have heq := check_eq_of_mask_eq hmask hr (by decide) .empty
  exact ⟨_, hr, rfl, hmask, hplain, heq ▸ hplain⟩

end PromqlAssist.Rule
