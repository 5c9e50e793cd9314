import PromqlAssist.Proofs.Rule.Gate
import PromqlAssist.Proofs.Text.CharClass

/-!
# Blanks in front of a query

Every search of a rule starts at an offset, and reports its find at that offset. Blanks in front of a
query only move the offset at which the searches start in earnest: no bracket, quote, operator or
word stands among them, and no word goes on behind them. So a query that is moved by blanks keeps
its findings, and they move with it. The rule on metrics names the whole query in either place.
-/

namespace PromqlAssist

open Text

namespace Text

variable {w t : Text} {c : Char}

/-! ## Searches that pass over blanks -/

/-- A search that only counts a blank passes over a run of them. -/
theorem skip_blanks {β : Type} (search : Nat → Text → β)
    (hskip : ∀ n c t, isBlank c → search n (c :: t) = search (n + c.utf8Size) t)
    (hw : isAllBlank w) (n : Nat) (t : Text) : search n (w ++ t) = search (n + size w) t := by
  induction w generalizing n with
  | nil => rfl
  | cons c w ih =>
    obtain ⟨hc, hw⟩ := Bool.and_eq_true_iff.mp hw
    rw [List.cons_append, hskip n c _ hc, ih hw, size_cons, Nat.add_assoc]

theorem mask_blanks_append (hw : isAllBlank w) (t : Text) : mask (w ++ t) = w ++ t.mask := by
  induction w with
  | nil => rfl
  | cons c w ih =>
    obtain ⟨hc, hw⟩ := Bool.and_eq_true_iff.mp hw
    have hquote : c ≠ '"' := ne_of_isBlank hc (by decide)
    rw [List.cons_append, mask, maskFrom_outside_cons, LiteralState.next_outside_plain hquote]
    exact congrArg _ (ih hw)

theorem slice_append_add (w t : Text) (start stop : Nat) :
    slice (w ++ t) (size w + start) (size w + stop) = slice t start stop := by
  rw [slice, slice, after_append, Nat.add_sub_add_left]

/-- A part without blanks is found behind the blanks or not at all. -/
theorem hasInfix_blanks_append {part : Text} (hpart : ∀ c ∈ part, isBlank c = false)
    (hw : isAllBlank w) (t : Text) : hasInfix part (w ++ t) = hasInfix part t := by
  cases part with
  | nil =>
    have hnil : ∀ t, hasInfix [] t = true := fun t => hasInfix_iff.mpr (List.nil_infix)
    rw [hnil, hnil]
  | cons d part =>
    refine skip_blanks (fun _ => hasInfix (d :: part)) (fun _ c t hc => ?_) hw 0 t
    have hne : d ≠ c := (ne_of_isBlank hc (hpart d (by simp))).symm
    rw [hasInfix, List.isPrefixOf_cons_cons]
    simp [hne]

/-! ## Words and brace blocks -/

theorem wordsFrom_add (n k : Nat) (openWord : Option (Nat × Text)) (t : Text) :
    wordsFrom (n + k) (openWord.map fun w => (w.1 + k, w.2)) t =
      (wordsFrom n openWord t).map fun w => (w.1 + k, w.2) := by
  induction t generalizing n openWord with
  | nil => cases openWord <;> rfl
  | cons c t ih =>
    rw [wordsFrom, wordsFrom, Nat.add_right_comm]
    split
    · rw [← ih]
      cases openWord <;> rfl
    · rw [List.map_append, ← ih]
      cases openWord <;> rfl

theorem words_blanks_append (hw : isAllBlank w) (t : Text) :
    words (w ++ t) = (words t).map fun word => (word.1 + size w, word.2) := by
  have hskip : ∀ n c t, isBlank c → wordsFrom n none (c :: t) = wordsFrom (n + c.utf8Size) none t := by
    intro n c t hc
    rw [wordsFrom, isIdent_of_isBlank hc]
    rfl
  rw [words, skip_blanks (fun n t => wordsFrom n none t) hskip hw]
  exact wordsFrom_add 0 (size w) none t

theorem braceBlocksFrom_add (n k : Nat) (start? : Option Nat) (t : Text) :
    braceBlocksFrom (n + k) (start?.map (· + k)) t =
      (braceBlocksFrom n start? t).map (·.shift k) := by
  induction t generalizing n start? with
  | nil => cases start? <;> rfl
  | cons c t ih =>
    rw [braceBlocksFrom.eq_def, braceBlocksFrom.eq_def]
    cases start? with
    | none =>
      dsimp only [Option.map_none]
      rw [Nat.add_right_comm, ← ih]
      split <;> rfl
    | some start =>
      dsimp only [Option.map_some]
      rw [Nat.add_right_comm]
      split
      · rw [List.map_cons, ← ih]
        rfl
      · exact ih _ (some start)

theorem braceBlocks_blanks_append (hw : isAllBlank w) (t : Text) :
    braceBlocks (w ++ t) = (braceBlocks t).map (·.shift (size w)) := by
  have hskip : ∀ n c t, isBlank c →
      braceBlocksFrom n none (c :: t) = braceBlocksFrom (n + c.utf8Size) none t := by
    intro n c t hc
    rw [braceBlocksFrom.eq_def]
    dsimp only
    rw [if_neg (ne_of_isBlank hc (by decide))]
  rw [braceBlocks, skip_blanks (fun n t => braceBlocksFrom n none t) hskip hw]
  exact braceBlocksFrom_add 0 (size w) none t

end Text

namespace Rule

variable {v : Vocabulary} {w query t : Text} {r : Rule}

theorem blankQuery_append (v : Vocabulary) (w : Text) (hquery : query.isAllBlank = false) :
    blankQuery v (w ++ query) = none := by
  refine if_neg ?_
  rw [isAllBlank, List.all_append, ← isAllBlank, ← isAllBlank, hquery, Bool.and_false]
  exact Bool.false_ne_true

/-! ## Brackets and string literals -/

theorem firstUnbalanced?_add (n k : Nat) (stack : List (Char × Nat)) (t : Text) :
    firstUnbalanced? (n + k) (stack.map fun e => (e.1, e.2 + k)) t =
      (firstUnbalanced? n stack t).map (· + k) := by
  induction t generalizing n stack with
  | nil =>
    rw [firstUnbalanced?, firstUnbalanced?, List.getLast?_map, Option.map_map, Option.map_map]
    rfl
  | cons c t ih =>
    rw [firstUnbalanced?, firstUnbalanced?, Nat.add_right_comm]
    split
    · exact ih _ ((c, n) :: stack)
    · exact ih _ stack
    · cases stack with
      | nil => rfl
      | cons e stack =>
        rw [List.map_cons]
        dsimp only
        split
        · exact ih _ stack
        · rfl

theorem map_ofLength (k : Nat) (n? : Option Nat) :
    (n?.map (· + k)).map (Span.ofLength · 1) = (n?.map (Span.ofLength · 1)).map (·.shift k) := by
  cases n? with
  | none => rfl
  | some n =>
    show some (Span.ofLength (n + k) 1) = some ((Span.ofLength n 1).shift k)
    rw [Span.ofLength, Span.ofLength, Span.shift, Nat.add_right_comm]

theorem balancedBrackets_append (hw : isAllBlank w) (v : Vocabulary) (query : Text) :
    balancedBrackets v (w ++ query) = (balancedBrackets v query).map (·.shift (size w)) := by
  have hflat : Balanced w :=
    Balanced.flat fun c hc => isBracket_of_isBlank (List.all_eq_true.mp hw c hc)
  have hsearch : firstUnbalanced? 0 [] (mask (w ++ query)) =
      (firstUnbalanced? 0 [] query.mask).map (· + size w) := by
    rw [mask_blanks_append hw, hflat]
    exact firstUnbalanced?_add 0 (size w) [] query.mask
  rw [balancedBrackets, balancedBrackets, hsearch]
  exact map_ofLength (size w) _

/-- The opening quote matters inside a literal only. -/
theorem literalDefectFrom?_add {n k opened opened' : Nat} {state : LiteralState}
    (hopened : state ≠ .outside → opened' = opened + k) (t : Text) :
    literalDefectFrom? (n + k) state opened' t =
      (literalDefectFrom? n state opened t).map (· + k) := by
  induction t generalizing n state opened opened' with
  | nil =>
    rw [literalDefectFrom?, literalDefectFrom?]
    split
    · rfl
    · rename_i hstate
      rw [hopened hstate]
      rfl
  | cons c t ih =>
    rw [literalDefectFrom?, literalDefectFrom?]
    split
    · rfl
    · rw [Nat.add_right_comm]
      apply ih
      intro hnext
      by_cases hquote : state = .outside ∧ c = '"'
      · rw [if_pos hquote, if_pos hquote]
      · rw [if_neg hquote, if_neg hquote]
        apply hopened
        rintro rfl
        exact hnext (if_neg fun hc => hquote ⟨rfl, hc⟩)

theorem stringLiterals_append (hw : isAllBlank w) (v : Vocabulary) (query : Text) :
    stringLiterals v (w ++ query) = (stringLiterals v query).map (·.shift (size w)) := by
  have hplain : ∀ c, isBlank c → c ≠ '"' ∧ c ≠ '\x27' ∧ c ≠ '\x60' := fun c hc =>
    ⟨ne_of_isBlank hc (by decide), ne_of_isBlank hc (by decide), ne_of_isBlank hc (by decide)⟩
  have hskip : ∀ n c t, isBlank c → literalDefectFrom? n .outside 0 (c :: t) =
      literalDefectFrom? (n + c.utf8Size) .outside 0 t := by
    intro n c t hc
    simp [literalDefectFrom?, LiteralState.next, hplain c hc]
  have hsearch : literalDefectFrom? 0 .outside 0 (w ++ query) =
      (literalDefectFrom? 0 .outside 0 query).map (· + size w) := by
    rw [skip_blanks (fun n t => literalDefectFrom? n .outside 0 t) hskip hw]
    exact literalDefectFrom?_add (absurd rfl) query
  rw [stringLiterals, stringLiterals, hsearch]
  exact map_ofLength (size w) _

/-! ## Time ranges and label matchers -/

/-- Where the last range ended matters to what is read of it only. -/
theorem badRangeFrom?_add {n k resume resume' : Nat}
    (hresume : ∀ m, n ≤ m → (m + k < resume' ↔ m < resume)) (t : Text) :
    badRangeFrom? (n + k) resume' t = (badRangeFrom? n resume t).map (·.shift k) := by
  induction t generalizing n resume resume' with
  | nil => rfl
  | cons c t ih =>
    have hlater : ∀ m, n + c.utf8Size ≤ m → (m + k < resume' ↔ m < resume) :=
      fun m hm => hresume m (Nat.le_of_add_right_le hm)
    rw [badRangeFrom?, badRangeFrom?, Nat.add_right_comm n k c.utf8Size]
    by_cases hread : n < resume ∨ c ≠ '['
    · rw [if_pos hread, if_pos (hread.imp_left (hresume n (Nat.le_refl n)).mpr)]
      exact ih hlater
    · rw [if_neg hread, if_neg (hread ∘ Or.imp_left (hresume n (Nat.le_refl n)).mp)]
      cases closeDistance? '[' ']' 1 t with
      | none => rfl
      | some length =>
        dsimp only
        split
        · exact ih fun m hm => by omega
        · simp only [Option.map_some, Span.shift, Option.some.injEq, Span.mk.injEq, true_and]
          omega

theorem timeRange_append (hw : isAllBlank w) (v : Vocabulary) (query : Text) :
    timeRange v (w ++ query) = (timeRange v query).map (·.shift (size w)) := by
  have hskip : ∀ n c t, isBlank c →
      badRangeFrom? n 0 (c :: t) = badRangeFrom? (n + c.utf8Size) 0 t := by
    intro n c t hc
    rw [badRangeFrom?, if_pos (.inr (ne_of_isBlank hc (by decide)))]
  rw [timeRange, timeRange, mask_blanks_append hw,
    skip_blanks (fun n t => badRangeFrom? n 0 t) hskip hw]
  exact badRangeFrom?_add (fun m _ => by omega) query.mask

theorem labelMatchers_append (hw : isAllBlank w) (v : Vocabulary) (query : Text) :
    labelMatchers v (w ++ query) = (labelMatchers v query).map (·.shift (size w)) := by
  have hne : ∀ c ∈ w, decide (c ≠ '{') = true := fun c hc =>
    decide_eq_true (ne_of_isBlank (List.all_eq_true.mp hw c hc) (by decide))
  have htake : (w ++ query.mask).takeWhile (· ≠ '{') = w ++ query.mask.takeWhile (· ≠ '{') :=
    List.takeWhile_append_of_pos hne
  have hdrop : (w ++ query.mask).dropWhile (· ≠ '{') = query.mask.dropWhile (· ≠ '{') :=
    List.dropWhile_append_of_pos hne
  unfold labelMatchers
  simp only [mask_blanks_append hw, htake, hdrop]
  cases query.mask.dropWhile (· ≠ '{') with
  | nil => rfl
  | cons c rest =>
    dsimp only
    split
    · simp only [size_append, Nat.add_assoc, slice_append_add, Option.map_map]
      apply congrArg (Option.map · _)
      funext offset
      simp only [Function.comp_apply, Span.shift, Span.mk.injEq]
      omega
    · rfl

/-! ## Arithmetic -/

theorem firstOperatorFrom?_add (n k : Nat) (last? : Option Char) (t : Text) :
    firstOperatorFrom? (n + k) last? t = (firstOperatorFrom? n last? t).map (· + k) := by
  induction t generalizing n last? with
  | nil => rfl
  | cons c t ih =>
    rw [firstOperatorFrom?, firstOperatorFrom?, Nat.add_right_comm, ih]
    split <;> rfl

theorem binaryExpression_append (hw : isAllBlank w) (v : Vocabulary) (query : Text) :
    binaryExpression v (w ++ query) = (binaryExpression v query).map (·.shift (size w)) := by
  have hfirst : ∀ n c t, isBlank c →
      firstOperatorFrom? n none (c :: t) = firstOperatorFrom? (n + c.utf8Size) none t := by
    intro n c t hc
    rw [firstOperatorFrom?, isArithmetic_of_isBlank hc, hc]
    rfl
  have hcomplete : ∀ (n : Nat) c t, isBlank c →
      hasCompleteOperation (c :: t) = hasCompleteOperation t := by
    intro n c t hc
    rw [hasCompleteOperation, endsOperand_of_isBlank hc]
    rfl
  unfold binaryExpression
  dsimp only
  rw [mask_blanks_append hw,
    skip_blanks (fun n t => firstOperatorFrom? n none t) hfirst hw,
    skip_blanks (fun _ t => hasCompleteOperation t) hcomplete hw 0,
    firstOperatorFrom?_add 0 (size w)]
  cases firstOperatorFrom? 0 none query.mask with
  | none => rfl
  | some n =>
    show (if hasCompleteOperation query.mask then _ else _) =
      Option.map _ (if hasCompleteOperation query.mask then _ else _)
    split
    · rfl
    · exact map_ofLength (size w) (some n)

/-! ## Calls -/

theorem bareRateFrom?_add (n k : Nat) (last? : Option Char) (t : Text) :
    bareRateFrom? (n + k) last? t = (bareRateFrom? n last? t).map (·.shift k) := by
  induction t generalizing n last? with
  | nil => rfl
  | cons c t ih =>
    rw [bareRateFrom?, bareRateFrom?, Nat.add_right_comm, ih]
    split
    · rfl
    · split
      · rfl
      · split
        · split
          · simp only [Option.map_some, Span.shift, Option.some.injEq, Span.mk.injEq, true_and]
            omega
          · rfl
        · split
          · simp only [Option.map_some, Span.shift, Option.some.injEq, Span.mk.injEq, true_and]
            omega
          · rfl

/-- Of the character in front it only matters whether it is one of a word. -/
theorem bareRateFrom?_congr {last? last?' : Option Char}
    (h : (last?.map isWordChar).getD false = (last?'.map isWordChar).getD false) (n : Nat)
    (t : Text) : bareRateFrom? n last? t = bareRateFrom? n last?' t := by
  cases t with
  | nil => rfl
  | cons c t => rw [bareRateFrom?, bareRateFrom?, h]

theorem rateCall?_blank (hc : isBlank c) (t : Text) : rateCall? (c :: t) = none := by
  rw [Option.eq_none_iff_forall_ne_some]
  rintro ⟨length, inner⟩ hcall
  obtain ⟨name, hname, -, hident, hne⟩ := rateCall?_eq_append hcall
  obtain ⟨d, name, rfl⟩ := List.exists_cons_of_ne_nil hne
  obtain ⟨rfl, -⟩ := List.cons.inj hname
  exact Bool.false_ne_true ((isIdent_of_isBlank hc).symm.trans (hident c (by simp)))

theorem rateUsage_append (hw : isAllBlank w) (v : Vocabulary) (query : Text) :
    rateUsage v (w ++ query) = (rateUsage v query).map (·.shift (size w)) := by
  have hskip : ∀ n c t, isBlank c →
      bareRateFrom? n none (c :: t) = bareRateFrom? (n + c.utf8Size) none t := by
    intro n c t hc
    have hbehind : bareRateFrom? (n + c.utf8Size) (some c) t =
        bareRateFrom? (n + c.utf8Size) none t := by
      apply bareRateFrom?_congr
      simp [isWordChar_of_isBlank hc]
    rw [bareRateFrom?, rateCall?_blank hc, hbehind]
    rfl
  rw [rateUsage, rateUsage, mask_blanks_append hw,
    skip_blanks (fun n t => bareRateFrom? n none t) hskip hw]
  exact bareRateFrom?_add 0 (size w) none query.mask

theorem aggregationExpression_append (hw : isAllBlank w) (v : Vocabulary) (query : Text) :
    aggregationExpression v (w ++ query) =
      (aggregationExpression v query).map (·.shift (size w)) := by
  unfold aggregationExpression
  dsimp only
  rw [mask_blanks_append hw, words_blanks_append hw, braceBlocks_blanks_append hw,
    List.findSome?_map, List.map_findSome?]
  congr 1
  funext ⟨start, word⟩
  have hstop : start + size w + size word = size w + (start + size word) := by omega
  have hblocks : (braceBlocks query.mask).any ((fun b => decide (b.start < start + size w) &&
      decide (start + size w < b.stop)) ∘ (·.shift (size w))) =
        (braceBlocks query.mask).any fun b => decide (b.start < start) && decide (start < b.stop) := by
    congr 1
    funext b
    simp [Span.shift]
  simp only [Function.comp_apply, hstop, after_append, List.any_map, hblocks]
  split
  · simp [Span.shift, Nat.add_comm]
  · rfl

/-! ## All rules -/

theorem metricPresence_append (hmetrics : ∀ m ∈ v.metrics, ∀ c ∈ m.toList, isBlank c = false)
    (hw : isAllBlank w) (query : Text) : metricPresence v (w ++ query) =
      (metricPresence v query).map fun _ => ⟨0, size (w ++ query)⟩ := by
  have hany : (v.metrics.any fun m => hasInfix m.toList (w ++ query)) =
      v.metrics.any fun m => hasInfix m.toList query := by
    rw [Bool.eq_iff_iff, List.any_eq_true, List.any_eq_true]
    apply exists_congr
    intro m
    apply and_congr_right
    intro hm
    rw [hasInfix_blanks_append (hmetrics m hm) hw]
  rw [metricPresence, metricPresence, hany]
  split <;> rfl

/-- What becomes of the span of a rule when blanks are put in front of the query. -/
def moved (id : RuleId) (w query : Text) (span : Span) : Span :=
  if id = .metricPresence then ⟨0, size (w ++ query)⟩ else span.shift (size w)

theorem check_append (hmetrics : ∀ m ∈ v.metrics, ∀ c ∈ m.toList, isBlank c = false)
    (hw : isAllBlank w) (hquery : query.isAllBlank = false) (hr : r ∈ builtin) :
    r.check v (w ++ query) = (r.check v query).map (moved r.id w query) := by
  simp only [builtin, List.mem_cons, List.not_mem_nil, or_false] at hr
  rcases hr with rfl | rfl | rfl | rfl | rfl | rfl | rfl | rfl | rfl
  · show blankQuery v (w ++ query) = (blankQuery v query).map _
    rw [blankQuery_append v w hquery, show blankQuery v query = none from
      blankQuery_append v [] hquery]
    rfl
  · exact balancedBrackets_append hw v query
  · exact metricPresence_append hmetrics hw query
  · exact timeRange_append hw v query
  · exact labelMatchers_append hw v query
  · exact binaryExpression_append hw v query
  · exact rateUsage_append hw v query
  · exact aggregationExpression_append hw v query
  · exact stringLiterals_append hw v query

theorem isHeard_append (hw : isAllBlank w) (query : Text) (f : Finding) :
    isHeard (w ++ query) f = isHeard query f := by
  rw [isHeard, isHeard, hasInfix_blanks_append (by decide) hw]

end Rule

/-- The finding of a rule when blanks are put in front of the query. -/
def Finding.moved (w query : Text) (f : Finding) : Finding :=
  { f with span := Rule.moved f.rule w query f.span }

theorem finding?_append {v : Vocabulary} {w query : Text} {r : Rule}
    (hmetrics : ∀ m ∈ v.metrics, ∀ c ∈ m.toList, isBlank c = false) (hw : isAllBlank w)
    (hquery : query.isAllBlank = false) (hr : r ∈ Rule.builtin) :
    r.finding? v (w ++ query) = (r.finding? v query).map (·.moved w query) := by
  rw [Rule.finding?_eq_filter hr, Rule.finding?_eq_filter hr,
    Rule.check_append hmetrics hw hquery hr]
  cases r.check v query with
  | none => rfl
  | some span =>
    -- Whether a finding is heard does not depend on its span.
    have hheard : Rule.isHeard (w ++ query) ⟨r.id, r.message, Rule.moved r.id w query span⟩ =
        Rule.isHeard query ⟨r.id, r.message, span⟩ :=
      Rule.isHeard_append hw query _
    rw [Option.map_some, Option.map_some, Option.map_some, Option.filter_some, Option.filter_some,
      hheard]
    split <;> rfl

/-- Blanks in front of a query move its findings by their size. The finding that no metric is known
goes on to name the whole query. -/
theorem validate_append (v : Vocabulary) (w query : Text)
    (hmetrics : ∀ m ∈ v.metrics, ∀ c ∈ m.toList, isBlank c = false) (hw : isAllBlank w)
    (hquery : query.isAllBlank = false) :
    validate v (w ++ query) = (validate v query).map (·.moved w query) := by
  have hmoved : (w ++ query).isAllBlank = false := by
    rw [isAllBlank, List.all_append, ← isAllBlank, ← isAllBlank, hquery, Bool.and_false]
  rw [Rule.validate_eq_filterMap v hmoved, Rule.validate_eq_filterMap v hquery,
    List.map_filterMap]
  apply List.filterMap_congr
  intro r hr
  exact finding?_append hmetrics hw hquery hr

/-- Four blanks of six bytes, a line feed among them, in front of a query with six defects. -/
theorem validate_append_fourBlanks :
    let w : Text := " \n\u3000 ".toList
    let query : Text := "é\x7bb\x7d[5x] + rate(job) - sum \"".toList
    (∀ m ∈ Vocabulary.builtin.metrics, ∀ c ∈ m.toList, isBlank c = false) ∧ isAllBlank w ∧
      query.isAllBlank = false ∧
      (validate .builtin query).map (fun f => (f.rule, f.span)) =
        [(.metricPresence, ⟨0, 29⟩), (.timeRange, ⟨5, 9⟩), (.labelMatchers, ⟨3, 5⟩),
          (.rateUsage, ⟨12, 21⟩), (.aggregationExpression, ⟨24, 27⟩), (.stringLiterals, ⟨28, 29⟩)] ∧
      (validate .builtin (w ++ query)).map (fun f => (f.rule, f.span)) =
        [(.metricPresence, ⟨0, 35⟩), (.timeRange, ⟨11, 15⟩), (.labelMatchers, ⟨9, 11⟩),
          (.rateUsage, ⟨18, 27⟩), (.aggregationExpression, ⟨30, 33⟩), (.stringLiterals, ⟨34, 35⟩)] := by
  intro w query
  have hmetrics : ∀ m ∈ Vocabulary.builtin.metrics, ∀ c ∈ m.toList, isBlank c = false := by
    decide +kernel
  have hquery : query.isAllBlank = false := by decide
  have hplain : (validate .builtin query).map (fun f => (f.rule, f.span)) =
      [(.metricPresence, ⟨0, 29⟩), (.timeRange, ⟨5, 9⟩), (.labelMatchers, ⟨3, 5⟩),
        (.rateUsage, ⟨12, 21⟩), (.aggregationExpression, ⟨24, 27⟩),
        (.stringLiterals, ⟨28, 29⟩)] := by
    decide +kernel
  refine ⟨hmetrics, by decide, hquery, hplain, ?_⟩
  have hshape : ∀ fs : List Finding, (fs.map (·.moved w query)).map (fun f => (f.rule, f.span)) =
      (fs.map fun f => (f.rule, f.span)).map fun e => (e.1, Rule.moved e.1 w query e.2) := by
    intro fs
    rw [List.map_map, List.map_map]
    rfl
  rw [validate_append .builtin w query hmetrics (by decide) hquery, hshape, hplain]
  decide

end PromqlAssist
