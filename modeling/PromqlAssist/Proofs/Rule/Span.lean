import PromqlAssist.Proofs.Rule.LabelBlock
import PromqlAssist.Proofs.Text.Bracket
import PromqlAssist.Proofs.Text.CharClass
import PromqlAssist.Proofs.Text.Word
import PromqlAssist.Rule.Builtin

/-!
# The spans of defects

A rule reads the masked query and names a span of the query itself. Each end of the span is an end
of the query or lies next to a character that is no blank, so it is a boundary of both texts.
-/

namespace PromqlAssist

open Text

/-- The span cuts out a part of a text, which is empty only if the text is. -/
structure Span.CutsOut (span : Span) (t : Text) : Prop where
  fits : span.Fits t
  nonempty : t ≠ [] → span.start < span.stop

namespace Rule

variable {v : Vocabulary} {query front rest t : Text} {span : Span} {c : Char} {n : Nat}

theorem cutsOut_whole (query : Text) : Span.CutsOut ⟨0, size query⟩ query where
  fits := ⟨Nat.zero_le _, isBoundary_zero query, isBoundary_size query⟩
  nonempty hne := Nat.pos_of_ne_zero fun hsize => hne (size_eq_zero_iff.mp hsize)

theorem cutsOut_of_lt {start stop : Nat} (hlt : start < stop) (hstart : query.IsBoundary start)
    (hstop : query.IsBoundary stop) : Span.CutsOut ⟨start, stop⟩ query where
  fits := ⟨Nat.le_of_lt hlt, hstart, hstop⟩
  nonempty _ := hlt

/-- One character of the masked query. -/
theorem cutsOut_char (h : Blanked query (front ++ c :: rest)) (hc : c ≠ ' ')
    (hone : c.utf8Size = 1) : Span.CutsOut (.ofLength (size front) 1) query :=
  cutsOut_of_lt (Nat.lt_succ_self _) (h.isBoundary_before hc) (hone ▸ h.isBoundary_behind hc)

theorem blankQuery_cutsOut (h : blankQuery v query = some span) : span.CutsOut query := by
  unfold blankQuery at h
  split at h
  · obtain rfl := Option.some.inj h
    exact cutsOut_whole query
  · cases h

theorem metricPresence_cutsOut (h : metricPresence v query = some span) : span.CutsOut query := by
  unfold metricPresence at h
  split at h
  · cases h
  · obtain rfl := Option.some.inj h
    exact cutsOut_whole query

/-! ## Brackets -/

theorem closerOf?_ascii {closer : Char} (h : closerOf? c = some closer) :
    c ≠ ' ' ∧ c.utf8Size = 1 := by
  unfold closerOf? at h
  split at h
  · decide
  · decide
  · decide
  · cases h

theorem openerOf?_ascii {opener : Char} (h : openerOf? c = some opener) :
    c ≠ ' ' ∧ c.utf8Size = 1 := by
  unfold openerOf? at h
  split at h
  · decide
  · decide
  · decide
  · cases h

/-- The invariant is that every bracket on the stack could be reported. -/
theorem firstUnbalanced?_cutsOut (front : Text) {stack : List (Char × Nat)} (h : Blanked query (front ++ rest))
    (hstack : ∀ e ∈ stack, Span.CutsOut (.ofLength e.2 1) query)
    (hn : firstUnbalanced? (size front) stack rest = some n) :
    Span.CutsOut (.ofLength n 1) query := by
  induction rest generalizing front stack with
  | nil =>
    obtain ⟨e, he, rfl⟩ := Option.map_eq_some_iff.mp hn
    exact hstack e (List.mem_of_getLast? he)
  | cons c rest ih =>
    have hnext : Blanked query ((front ++ [c]) ++ rest) := by rwa [← List.append_cons]
    have hsize : size front + c.utf8Size = size (front ++ [c]) := by simp
    rw [firstUnbalanced?] at hn
    simp only [hsize] at hn
    split at hn
    · rename_i closer hcloser
      obtain ⟨hc, hone⟩ := closerOf?_ascii hcloser
      refine ih _ hnext (fun e he => ?_) hn
      rcases List.mem_cons.mp he with rfl | he
      · exact cutsOut_char h hc hone
      · exact hstack e he
    · exact ih _ hnext hstack hn
    · rename_i opener _ hopener
      obtain ⟨hc, hone⟩ := openerOf?_ascii hopener
      split at hn
      · split at hn
        · exact ih _ hnext (fun e he => hstack e (List.mem_cons_of_mem _ he)) hn
        · obtain rfl := Option.some.inj hn
          exact cutsOut_char h hc hone
      · obtain rfl := Option.some.inj hn
        exact cutsOut_char h hc hone

theorem balancedBrackets_cutsOut (h : balancedBrackets v query = some span) :
    span.CutsOut query := by
  obtain ⟨n, hn, rfl⟩ := Option.map_eq_some_iff.mp h
  exact firstUnbalanced?_cutsOut [] (.mask query) (by simp) hn

/-! ## String literals -/

/-- The invariant is that inside a literal the opening quote could be reported. -/
theorem literalDefectFrom?_cutsOut (front : Text) {state : LiteralState} {opened : Nat}
    (h : query = front ++ rest)
    (hopened : state ≠ .outside → Span.CutsOut (.ofLength opened 1) query)
    (hn : literalDefectFrom? (size front) state opened rest = some n) :
    Span.CutsOut (.ofLength n 1) query := by
  induction rest generalizing front state opened with
  | nil =>
    rw [literalDefectFrom?] at hn
    split at hn
    · cases hn
    · rename_i hstate
      obtain rfl := Option.some.inj hn
      exact hopened hstate
  | cons c rest ih =>
    have hself : Blanked query (front ++ c :: rest) := h ▸ .self query
    rw [literalDefectFrom?] at hn
    split at hn
    · rename_i hquote
      obtain rfl := Option.some.inj hn
      rcases hquote.2 with rfl | rfl
      · exact cutsOut_char hself (by decide) (by decide)
      · exact cutsOut_char hself (by decide) (by decide)
    · have hsize : size front + c.utf8Size = size (front ++ [c]) := by simp
      rw [hsize] at hn
      refine ih _ (by rw [h, List.append_cons]) (fun hnext => ?_) hn
      split
      · rename_i hquote
        obtain ⟨-, rfl⟩ := hquote
        exact cutsOut_char hself (by decide) (by decide)
      · rename_i hquote
        refine hopened ?_
        rintro rfl
        simp only [true_and] at hquote
        exact hnext (if_neg hquote)

theorem stringLiterals_cutsOut (h : stringLiterals v query = some span) : span.CutsOut query := by
  obtain ⟨n, hn, rfl⟩ := Option.map_eq_some_iff.mp h
  exact literalDefectFrom?_cutsOut [] rfl (by simp) hn

/-! ## Arithmetic -/

theorem isArithmetic_ascii (h : isArithmetic c) : c ≠ ' ' ∧ c.utf8Size = 1 := by
  simp only [isArithmetic, Bool.or_eq_true, decide_eq_true_eq] at h
  rcases h with ((((rfl | rfl) | rfl) | rfl) | rfl) | rfl <;> decide

theorem firstOperatorFrom?_cutsOut (front : Text) {last? : Option Char} (h : Blanked query (front ++ rest))
    (hn : firstOperatorFrom? (size front) last? rest = some n) :
    Span.CutsOut (.ofLength n 1) query := by
  induction rest generalizing front last? with
  | nil => cases hn
  | cons c rest ih =>
    rw [firstOperatorFrom?] at hn
    split at hn
    · rename_i hc
      obtain rfl := Option.some.inj hn
      obtain ⟨hblank, hone⟩ := isArithmetic_ascii (Bool.and_eq_true_iff.mp hc).1
      exact cutsOut_char h hblank hone
    · have hsize : size front + c.utf8Size = size (front ++ [c]) := by simp
      rw [hsize] at hn
      exact ih _ (by rwa [← List.append_cons]) hn

theorem binaryExpression_cutsOut (h : binaryExpression v query = some span) :
    span.CutsOut query := by
  obtain ⟨n, hn, h⟩ := Option.bind_eq_some_iff.mp h
  split at h
  · cases h
  · obtain rfl := Option.some.inj h
    exact firstOperatorFrom?_cutsOut [] (.mask query) hn

/-! ## Time ranges -/

theorem badRangeFrom?_cutsOut (front : Text) {resume : Nat} (h : Blanked query (front ++ rest))
    (hspan : badRangeFrom? (size front) resume rest = some span) : span.CutsOut query := by
  induction rest generalizing front resume with
  | nil => cases hspan
  | cons c rest ih =>
    have hnext : Blanked query ((front ++ [c]) ++ rest) := by rwa [← List.append_cons]
    have hsize : size front + c.utf8Size = size (front ++ [c]) := by simp
    rw [badRangeFrom?] at hspan
    simp only [hsize] at hspan
    split at hspan
    · exact ih _ hnext hspan
    · rename_i hopens
      obtain rfl : c = '[' := Decidable.of_not_not fun hc => hopens (.inr hc)
      split at hspan
      · cases hspan
      · rename_i length hclose
        split at hspan
        · exact ih _ hnext hspan
        · obtain rfl := Option.some.inj hspan
          obtain ⟨body, behind, rfl, rfl⟩ := closeDistance?_eq_some hclose
          have hclosed : Blanked query ((front ++ '[' :: body) ++ ']' :: behind) := by
            simpa using h
          have hstop := hclosed.isBoundary_behind (c := ']') (by decide)
          refine cutsOut_of_lt ?_ (h.isBoundary_before (by decide)) ?_
          · simp only [size_append]
            omega
          · simpa [Nat.add_assoc] using hstop

theorem timeRange_cutsOut (h : timeRange v query = some span) : span.CutsOut query :=
  badRangeFrom?_cutsOut [] (.mask query) h

/-! ## Label matchers -/

theorem isBoundary_of_badMatcher? {masked : Text} (h : Blanked t masked)
    (hn : badMatcher? t masked = some n) : t.IsBoundary n := by
  obtain ⟨⟨offset, entry⟩, hentry, hn⟩ := List.exists_of_findSome?_eq_some hn
  dsimp only at hn
  split at hn
  · cases hn
  · obtain rfl := Option.some.inj hn
    obtain ⟨front, behind, -, -, -, rfl, rfl, -⟩ := exists_of_mem_splitCommas h hentry
    have hblanks : entry = entry.takeWhile isBlank ++ trimStart entry :=
      List.takeWhile_append_dropWhile.symm
    have hsize : size entry - size (trimStart entry) = size (entry.takeWhile isBlank) := by
      conv => lhs; arg 1; rw [hblanks, size_append]
      exact Nat.add_sub_cancel _ _
    rw [hsize, ← size_append]
    conv => arg 1; rw [hblanks, List.append_assoc, ← List.append_assoc]
    exact isBoundary_size_append _ _

theorem labelMatchers_cutsOut (h : labelMatchers v query = some span) : span.CutsOut query := by
  rcases labelBlock_cases query with hnone | hnone | ⟨⟨b⟩⟩
  · rw [labelMatchers_of_not_mem v hnone] at h
    cases h
  · obtain ⟨front, rest, hmask, hfirst, hopen⟩ := hnone
    rw [labelMatchers_of_open v hmask hfirst hopen] at h
    cases h
  · rw [labelMatchers_eq v b] at h
    obtain ⟨n, hn, rfl⟩ := Option.map_eq_some_iff.mp h
    have hboundary := isBoundary_of_badMatcher? b.blanked_block hn
    obtain ⟨inner, outer, hblock, rfl⟩ := hboundary.exists_append
    have hle := hboundary.le_size
    rw [← b.blanked_front.size_eq, ← b.blanked_block.size_eq]
    refine cutsOut_of_lt (by omega) (isBoundary_iff.mpr ?_) (isBoundary_iff.mpr ?_)
    · refine ⟨b.front ++ '{' :: inner, outer ++ '}' :: b.behind, b.query_eq.trans ?_, ?_⟩
      · rw [hblock]
        simp
      · simp only [size_append, size_cons, utf8Size_bracket]
        omega
    · refine ⟨b.front ++ '{' :: (b.block ++ ['}']), b.behind, b.query_eq.trans (by simp), ?_⟩
      · simp only [size_append, size_cons, size_nil, utf8Size_bracket]
        omega

/-! ## Calls -/

theorem ne_blank_of_isIdent (h : isIdent c) : c ≠ ' ' := by
  rintro rfl
  exact absurd h (by decide)

/-- A rate call is a name and a parenthesis. -/
theorem rateCall?_eq_append {length : Nat} {inner : Text}
    (h : rateCall? t = some (length, inner)) :
    ∃ name, t = name ++ '(' :: inner ∧ length = size name + 1 ∧ (∀ c ∈ name, isIdent c) ∧
      name ≠ [] := by
  obtain ⟨opening, hopening, hcall⟩ := List.exists_of_findSome?_eq_some h
  obtain ⟨rest, hdrop, heq⟩ := Option.map_eq_some_iff.mp hcall
  obtain ⟨rfl, rfl⟩ := Prod.mk.inj heq
  rw [dropPart?_eq_some_iff.mp hdrop]
  rcases List.mem_cons.mp hopening with rfl | hopening
  · exact ⟨"irate".toList, rfl, by decide, by decide, by decide⟩
  · obtain rfl := List.mem_singleton.mp hopening
    exact ⟨"rate".toList, rfl, by decide, by decide, by decide⟩

theorem bareRateFrom?_cutsOut (front : Text) {last? : Option Char} (h : Blanked query (front ++ rest))
    (hspan : bareRateFrom? (size front) last? rest = some span) : span.CutsOut query := by
  induction rest generalizing front last? with
  | nil => cases hspan
  | cons c rest ih =>
    have later : bareRateFrom? (size front + c.utf8Size) (some c) rest = some span →
        span.CutsOut query := by
      have hsize : size front + c.utf8Size = size (front ++ [c]) := by simp
      rw [hsize]
      exact ih _ (by rwa [← List.append_cons])
    rw [bareRateFrom?] at hspan
    split at hspan
    · exact later hspan
    split at hspan
    · exact later hspan
    rename_i length inner hcall
    obtain ⟨name, hname, rfl, hident, hne⟩ := rateCall?_eq_append hcall
    have hc : c ≠ ' ' := by
      obtain ⟨d, name, rfl⟩ := List.exists_cons_of_ne_nil hne
      obtain ⟨rfl, -⟩ := List.cons.inj hname
      exact ne_blank_of_isIdent (hident c (by simp))
    have hstart := h.isBoundary_before hc
    rw [hname] at h
    split at hspan
    · rename_i bodySize hclose
      obtain ⟨body, behind, rfl, rfl⟩ := closeDistance?_eq_some hclose
      split at hspan
      · obtain rfl := Option.some.inj hspan
        have hclosed : Blanked query ((front ++ (name ++ '(' :: body)) ++ ')' :: behind) := by
          simpa using h
        refine cutsOut_of_lt (by omega) hstart ?_
        have hstop := hclosed.isBoundary_behind (by decide)
        simp only [size_append, size_cons, utf8Size_bracket] at hstop
        simpa [Nat.add_assoc] using hstop
      · exact later hspan
    · split at hspan
      · obtain rfl := Option.some.inj hspan
        refine cutsOut_of_lt (by omega) hstart ?_
        have hstop := h.isBoundary_size
        simp only [size_append, size_cons, utf8Size_bracket] at hstop
        simpa [Nat.add_assoc] using hstop
      · exact later hspan

theorem rateUsage_cutsOut (h : rateUsage v query = some span) : span.CutsOut query :=
  bareRateFrom?_cutsOut [] (.mask query) h

theorem aggregationExpression_cutsOut (h : aggregationExpression v query = some span) :
    span.CutsOut query := by
  obtain ⟨⟨start, word⟩, hword, h⟩ := List.exists_of_findSome?_eq_some h
  dsimp only at h
  split at h
  · obtain rfl := Option.some.inj h
    obtain ⟨front, behind, hmask, rfl, -, hident, hne, -⟩ := isWord_of_mem_words hword
    have hquery : Blanked query (front ++ (word ++ behind)) := hmask ▸ .mask query
    obtain ⟨front', behind', rfl, hfront, -⟩ := hquery.exists_of_append_word
      (fun c hc => ne_blank_of_isIdent (hident c hc)) hne
    rw [← hfront.size_eq]
    refine ⟨Span.fits_append front' word behind', fun _ => ?_⟩
    have hpos : 0 < size word := Nat.pos_of_ne_zero fun hsize => hne (size_eq_zero_iff.mp hsize)
    exact Nat.lt_add_of_pos_right hpos
  · cases h

/-! ## All rules -/

/-- A builtin rule names a part of the query, whether or not its gate lets the query through. -/
theorem cutsOut_of_check {r : Rule} (hr : r ∈ builtin) (h : r.check v query = some span) :
    span.CutsOut query := by
  simp only [builtin, List.mem_cons, List.not_mem_nil, or_false] at hr
  rcases hr with rfl | rfl | rfl | rfl | rfl | rfl | rfl | rfl | rfl
  · exact blankQuery_cutsOut (v := v) h
  · exact balancedBrackets_cutsOut (v := v) h
  · exact metricPresence_cutsOut h
  · exact timeRange_cutsOut (v := v) h
  · exact labelMatchers_cutsOut (v := v) h
  · exact binaryExpression_cutsOut (v := v) h
  · exact rateUsage_cutsOut (v := v) h
  · exact aggregationExpression_cutsOut (v := v) h
  · exact stringLiterals_cutsOut (v := v) h

end Rule

end PromqlAssist
