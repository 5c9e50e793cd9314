import PromqlAssist.Proofs.Grammar.Lexeme
import PromqlAssist.Proofs.Rule.LabelMatcher

/-!
# Label blocks are accepted

The mask of a string is two quotes with blanks between them. So the comparison of a matcher is the
first one in its mask, and a block is cut at the commas between its matchers.
-/

namespace PromqlAssist.Grammar

open Text

namespace StringPart

variable (p : StringPart)

theorem mask (rest : Text) :
    maskFrom .inside (p.text ++ rest) = p.blanks ++ maskFrom .inside rest := by
  cases p with
  | plain c notQuote notBackslash =>
    simp [text, blanks, maskFrom, LiteralState.next, notQuote, notBackslash]
  | escaped c =>
    have hbackslash : blankFor '\\' = [' '] := by decide
    simp [text, blanks, maskFrom, LiteralState.next, hbackslash]

theorem literals (n opened : Nat) (rest : Text) :
    Rule.literalDefectFrom? n .inside opened (p.text ++ rest) =
      Rule.literalDefectFrom? (n + size p.text) .inside opened rest := by
  cases p with
  | plain c notQuote notBackslash =>
    simp [text, Rule.literalDefectFrom?, LiteralState.next, notQuote, notBackslash]
  | escaped c =>
    simp [text, Rule.literalDefectFrom?, LiteralState.next, Nat.add_assoc]

theorem size_text : size p.text = size p.blanks := by
  cases p with
  | plain c notQuote notBackslash => simp [text, blanks]
  | escaped c =>
    have hbackslash : ('\\' : Char).utf8Size = (' ' : Char).utf8Size := by decide
    simp [text, blanks, hbackslash]

theorem eq_of_mem_blanks {c : Char} (h : c ∈ p.blanks) : c = ' ' := by
  cases p with
  | plain d notQuote notBackslash => exact eq_blank_of_mem_blankFor h
  | escaped d =>
    rcases List.mem_cons.mp h with h | h
    · exact h
    · exact eq_blank_of_mem_blankFor h

end StringPart

namespace StringLiteral

variable (s : StringLiteral)

theorem mask_contents (rest : Text) :
    maskFrom .inside (s.flatMap StringPart.text ++ rest) =
      s.flatMap StringPart.blanks ++ maskFrom .inside rest := by
  induction s with
  | nil => rfl
  | cons p s ih =>
    rw [List.flatMap_cons, List.append_assoc, p.mask, ih, List.flatMap_cons, List.append_assoc]

theorem literals_contents (n opened : Nat) (rest : Text) :
    Rule.literalDefectFrom? n .inside opened (s.flatMap StringPart.text ++ rest) =
      Rule.literalDefectFrom? (n + size (s.flatMap StringPart.text)) .inside opened rest := by
  induction s generalizing n with
  | nil => rfl
  | cons p s ih =>
    rw [List.flatMap_cons, List.append_assoc, p.literals, ih, size_append, Nat.add_assoc]

theorem size_contents : size (s.flatMap StringPart.text) = size (s.flatMap StringPart.blanks) := by
  induction s with
  | nil => rfl
  | cons p s ih =>
    rw [List.flatMap_cons, List.flatMap_cons, size_append, size_append, p.size_text, ih]

theorem masks : Masks s.text s.masked where
  mask rest := by
    simp [text, masked, maskFrom, LiteralState.next, mask_contents]
  literals n opened rest := by
    refine ⟨n, ?_⟩
    simp [text, Rule.literalDefectFrom?, LiteralState.next, literals_contents, Nat.add_assoc]
  size := by
    simp [text, masked, size_contents]

theorem mem_masked {c : Char} (h : c ∈ s.masked) : c = '"' ∨ c = ' ' := by
  rcases List.mem_cons.mp h with h | h
  · exact .inl h
  · rcases List.mem_append.mp h with h | h
    · obtain ⟨p, -, hc⟩ := List.mem_flatMap.mp h
      exact .inr (p.eq_of_mem_blanks hc)
    · exact .inl (List.mem_singleton.mp h)

theorem isBracket_of_mem {c : Char} (h : c ∈ s.masked) : isBracket c = false := by
  rcases s.mem_masked h with rfl | rfl
  · decide
  · decide

end StringLiteral

namespace Matcher

variable (m : Matcher)

theorem operator_cons : ∃ c t, m.op.token.toList = c :: t ∧ (c = '=' ∨ c = '!') := by
  have hknown := m.known
  simp only [Operator.matchers, List.mem_cons, List.not_mem_nil, or_false] at hknown
  rcases hknown with hop | hop | hop | hop
  all_goals exact ⟨_, _, by rw [hop]; rfl, by decide⟩

theorem mem_operator {c : Char} (h : c ∈ m.op.token.toList) : c = '=' ∨ c = '!' ∨ c = '~' := by
  have operators : ∀ op ∈ Operator.matchers, ∀ c ∈ op.token.toList, c = '=' ∨ c = '!' ∨ c = '~' :=
    by decide
  exact operators m.op m.known c h

theorem mem_comparisons : m.op.token ∈ Rule.comparisons := by
  have operators : ∀ op ∈ Operator.matchers, op.token ∈ Rule.comparisons := by decide
  exact operators m.op m.known

/-- Blanks may stand in front of a matcher. -/
theorem isMatcher_render (blanks : Text) (hblanks : ∀ c ∈ blanks, c = ' ') :
    Rule.isMatcher (blanks ++ m.render StringLiteral.text)
      (blanks ++ m.render StringLiteral.masked) := by
  have hname : ∀ c ∈ blanks ++ m.label.text, Rule.isComparisonChar c = false := by
    intro c hc
    rcases List.mem_append.mp hc with hc | hc
    · rw [hblanks c hc]
      decide
    · exact Rule.isComparisonChar_of_isIdent (m.label.isIdent_of_mem hc)
  have hvalue : ∀ c ∈ m.value.masked, Rule.isComparisonChar c = false := by
    intro c hc
    rcases m.value.mem_masked hc with rfl | rfl <;> decide
  have hleft : isAllBlank (blanks ++ m.label.text) = false := by
    obtain ⟨d, hd⟩ := List.exists_mem_of_ne_nil _ m.label.text_ne_nil
    rw [isAllBlank, List.all_eq_false]
    exact ⟨d, by simp [hd], by simp [isBlank_of_isIdent (m.label.isIdent_of_mem hd)]⟩
  have hright : isAllBlank m.value.text = false := by
    rw [isAllBlank, List.all_eq_false]
    exact ⟨'"', by simp [StringLiteral.text], by decide⟩
  have happend := Rule.isMatcher_append m.mem_comparisons rfl hname hvalue m.value.text
  rw [hleft, hright, List.append_assoc, List.append_assoc] at happend
  exact happend

theorem masks : Masks (m.render StringLiteral.text) (m.render StringLiteral.masked) := by
  refine Masks.append ?_ (Masks.append ?_ m.value.masks)
  · exact Masks.self fun c hc => isQuote_of_isIdent (m.label.isIdent_of_mem hc)
  · apply Masks.self
    intro c hc
    rcases m.mem_operator hc with rfl | rfl | rfl <;> decide

theorem mem_render {c : Char} (h : c ∈ m.render StringLiteral.masked) :
    isIdent c ∨ c ∈ ['=', '!', '~', '"', ' '] := by
  rcases List.mem_append.mp h with h | h
  · exact .inl (m.label.isIdent_of_mem h)
  · rcases List.mem_append.mp h with h | h
    · rcases m.mem_operator h with rfl | rfl | rfl <;> simp
    · rcases m.value.mem_masked h with rfl | rfl <;> simp

theorem isEntry : IsEntry (m.render StringLiteral.text) (m.render StringLiteral.masked) where
  size := m.masks.size
  noComma hc := by
    rcases m.mem_render hc with hc | hc
    · exact absurd hc (by decide)
    · exact absurd hc (by decide)

end Matcher

namespace Block

variable (b : Block)

/-- The characters between the braces, apart from names. -/
def symbols : List Char :=
  ['=', '!', '~', '"', ' ', ',']

theorem mem_render {c : Char} (h : c ∈ b.render StringLiteral.masked) :
    isIdent c ∨ c ∈ symbols := by
  have hmatcher : ∀ m : Matcher, c ∈ m.render StringLiteral.masked → isIdent c ∨ c ∈ symbols := by
    intro m hc
    exact (m.mem_render hc).imp id fun hc => List.mem_append_left [','] hc
  rcases List.mem_append.mp h with h | h
  · exact hmatcher b.first h
  · obtain ⟨t, ht, hc⟩ := List.mem_flatMap.mp h
    obtain ⟨m, -, rfl⟩ := List.mem_map.mp ht
    rcases List.mem_cons.mp hc with rfl | hc
    · exact .inr (by decide)
    · rcases List.mem_cons.mp hc with rfl | hc
      · exact .inr (by decide)
      · exact hmatcher m hc

theorem isBracket_of_mem {c : Char} (h : c ∈ b.render StringLiteral.masked) :
    isBracket c = false := by
  have hsymbols : ∀ c ∈ symbols, isBracket c = false := by decide
  rcases b.mem_render h with hc | hc
  · exact isBracket_of_isIdent hc
  · exact hsymbols c hc

theorem isArithmetic_of_mem {c : Char} (h : c ∈ b.render StringLiteral.masked) :
    Rule.isArithmetic c = false := by
  have hsymbols : ∀ c ∈ symbols, Rule.isArithmetic c = false := by decide
  rcases b.mem_render h with hc | hc
  · exact Rule.isArithmetic_of_isIdent hc
  · exact hsymbols c hc

theorem masks : Masks (b.render StringLiteral.text) (b.render StringLiteral.masked) := by
  refine b.first.masks.append ?_
  induction b.more with
  | nil => exact Masks.nil
  | cons m more ih =>
    refine Masks.cons (by decide) (Masks.cons (by decide) ?_)
    exact m.masks.append ih

/-- The matchers of a block, each with its mask and the blank in front of it. -/
theorem badMatcher?_render : Rule.badMatcher? (b.render StringLiteral.text)
    (b.render StringLiteral.masked) = none := by
  have hlist : ∀ spell, b.render spell = b.first.render spell ++
      b.more.flatMap fun m => ',' :: ' ' :: m.render spell := by
    intro spell
    simp [render, commaList, List.flatMap_map]
  let entry : Matcher → Text × Text :=
    fun m => (' ' :: m.render StringLiteral.text, ' ' :: m.render StringLiteral.masked)
  have hbad := badMatcher?_eq_none (b.more.map entry)
    (p := (b.first.render StringLiteral.text, b.first.render StringLiteral.masked)) ?_
  · simpa only [hlist, List.flatMap_map] using hbad
  · intro q hq
    rcases List.mem_cons.mp hq with rfl | hq
    · exact ⟨b.first.isEntry, b.first.isMatcher_render [] (by simp)⟩
    · obtain ⟨m, -, rfl⟩ := List.mem_map.mp hq
      exact ⟨m.isEntry.blank, m.isMatcher_render [' '] (by simp)⟩

end Block

end PromqlAssist.Grammar
