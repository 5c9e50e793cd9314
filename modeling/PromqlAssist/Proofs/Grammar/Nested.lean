import PromqlAssist.Proofs.Grammar.Block
import PromqlAssist.Proofs.Grammar.Query
import PromqlAssist.Proofs.Grammar.Range

/-!
# Queries are nested

What the rules on brackets, ranges, label blocks and strings ask of a query holds piece by piece. A
query is put together from pieces of a few kinds, each with its mask.
-/

namespace PromqlAssist.Grammar

open Text

/-- A piece of a query and its mask. -/
inductive Nested : Text → Text → Prop where
  | nil : Nested [] []
  | char {c : Char} (bracket : isBracket c = false) (quote : isQuote c = false) : Nested [c] [c]
  | group {raw masked : Text} (h : Nested raw masked) :
    Nested ('(' :: (raw ++ [')'])) ('(' :: (masked ++ [')']))
  | range (r : Range) : Nested ('[' :: (r.text ++ [']'])) ('[' :: (r.text ++ [']']))
  | block (b : Block) : Nested ('{' :: (b.render StringLiteral.text ++ ['}']))
    ('{' :: (b.render StringLiteral.masked ++ ['}']))
  | string (s : StringLiteral) : Nested s.text s.masked
  | append {raw raw' masked masked' : Text} (h : Nested raw masked) (h' : Nested raw' masked') :
    Nested (raw ++ raw') (masked ++ masked')

namespace Nested

variable {raw masked : Text}

theorem flat {t : Text} (h : ∀ c ∈ t, isBracket c = false ∧ isQuote c = false) : Nested t t := by
  induction t with
  | nil => exact nil
  | cons c t ih =>
    obtain ⟨bracket, quote⟩ := h c (by simp)
    exact append (char bracket quote) (ih fun d hd => h d (by simp [hd]))

theorem word {t : Text} (h : ∀ c ∈ t, isIdent c) : Nested t t :=
  flat fun c hc => ⟨isBracket_of_isIdent (h c hc), isQuote_of_isIdent (h c hc)⟩

theorem blank : Nested [' '] [' '] :=
  char rfl rfl

theorem masks (h : Nested raw masked) : Masks raw masked := by
  induction h with
  | nil => exact Masks.nil
  | char _ quote => exact Masks.singleton quote
  | group _ ih => exact ih.wrap (by decide) (by decide)
  | range r =>
    have hrange : Masks r.text r.text :=
      Masks.self fun c hc => isQuote_of_isIdent (r.isIdent_of_mem hc)
    exact hrange.wrap (by decide) (by decide)
  | block b => exact b.masks.wrap (by decide) (by decide)
  | string s => exact s.masks
  | append _ _ ih ih' => exact ih.append ih'

theorem balanced (h : Nested raw masked) : Balanced masked := by
  induction h with
  | nil => exact Balanced.nil
  | char bracket _ => exact Balanced.singleton bracket
  | group _ ih => exact ih.wrap rfl rfl rfl
  | range r =>
    have hrange := Balanced.flat fun c hc => isBracket_of_isIdent (r.isIdent_of_mem hc)
    exact hrange.wrap rfl rfl rfl
  | block b =>
    have hblock := Balanced.flat fun c hc => b.isBracket_of_mem hc
    exact hblock.wrap rfl rfl rfl
  | string s => exact Balanced.flat fun c hc => s.isBracket_of_mem hc
  | append _ _ ih ih' => exact ih.append ih'

theorem level (h : Nested raw masked) : Level masked := by
  have flat : ∀ t : Text, (∀ c ∈ t, isBracket c = false) → Level t := fun t ht =>
    Level.flat fun c hc => ⟨ne_of_isBracket (ht c hc) rfl, ne_of_isBracket (ht c hc) rfl⟩
  induction h with
  | nil => exact Level.nil
  | char bracket _ =>
    exact Level.singleton (ne_of_isBracket bracket rfl) (ne_of_isBracket bracket rfl)
  | group _ ih => exact ih.wrap
  | range r =>
    have hrange := flat r.text fun c hc => isBracket_of_isIdent (r.isIdent_of_mem hc)
    exact hrange.around (by decide) (by decide)
  | block b =>
    have hblock := flat _ fun c hc => b.isBracket_of_mem hc
    exact hblock.around (by decide) (by decide)
  | string s => exact flat _ fun c hc => s.isBracket_of_mem hc
  | append _ _ ih ih' => exact ih.append ih'

theorem ranged (h : Nested raw masked) : Ranged masked := by
  induction h with
  | nil => exact Ranged.nil
  | char bracket _ => exact Ranged.singleton (ne_of_isBracket bracket rfl)
  | group _ ih => exact ih.around (by decide) (by decide)
  | range r => exact r.ranged
  | block b =>
    have hblock := Ranged.flat fun c hc => ne_of_isBracket (b.isBracket_of_mem hc) rfl
    exact hblock.around (by decide) (by decide)
  | string s => exact Ranged.flat fun c hc => ne_of_isBracket (s.isBracket_of_mem hc) rfl
  | append _ _ ih ih' => exact ih.append ih'

/-- A piece either has no block or splits at its first one, and so does its mask. -/
theorem firstBlock (h : Nested raw masked) : '{' ∉ masked ∨
    ∃ (front frontMasked : Text) (b : Block) (rest restMasked : Text),
      '{' ∉ frontMasked ∧ size front = size frontMasked ∧
      raw = front ++ '{' :: (b.render StringLiteral.text ++ '}' :: rest) ∧
      masked = frontMasked ++ '{' :: (b.render StringLiteral.masked ++ '}' :: restMasked) := by
  induction h with
  | nil => exact .inl List.not_mem_nil
  | char bracket _ =>
    left
    simpa using (ne_of_isBracket bracket rfl).symm
  | group _ ih =>
    obtain hmem | ⟨front, frontMasked, b, rest, restMasked, hopen, hsize, rfl, rfl⟩ := ih
    · left
      simp [hmem]
    · right
      refine ⟨'(' :: front, '(' :: frontMasked, b, rest ++ [')'], restMasked ++ [')'], ?_⟩
      simp [hopen, hsize]
  | range r =>
    left
    intro hmem
    have hrange : '{' ∉ r.text := fun hc => absurd (r.isIdent_of_mem hc) (by decide)
    simp [hrange] at hmem
  | block b => exact .inr ⟨[], [], b, [], [], List.not_mem_nil, rfl, rfl, rfl⟩
  | string s =>
    left
    intro hmem
    exact absurd (s.isBracket_of_mem hmem) (by decide)
  | @append raw raw' masked masked' h _ ih ih' =>
    obtain hmem | ⟨front, frontMasked, b, rest, restMasked, hopen, hsize, hraw, hmasked⟩ := ih
    · obtain hmem' | ⟨front, frontMasked, b, rest, restMasked, hopen, hsize, hraw, hmasked⟩ := ih'
      · left
        simp [hmem, hmem']
      · right
        refine ⟨raw ++ front, masked ++ frontMasked, b, rest, restMasked, ?_⟩
        simp [hmem, hopen, hsize, hraw, hmasked, h.masks.size]
    · right
      refine ⟨front, frontMasked, b, rest ++ raw', restMasked ++ masked', hopen, hsize, ?_⟩
      simp [hraw, hmasked]

theorem labelMatchers_eq_none (h : Nested raw masked) (v : Vocabulary) :
    Rule.labelMatchers v raw = none := by
  have hmask := h.masks.mask_eq
  obtain hmem | ⟨front, frontMasked, b, rest, restMasked, hopen, hsize, hraw, hmasked⟩ :=
    h.firstBlock
  · apply labelMatchers_of_not_mem v
    rwa [hmask]
  · have hclose : '}' ∉ b.render StringLiteral.masked :=
      fun hc => absurd (b.isBracket_of_mem hc) (by decide)
    rw [hmasked] at hmask
    exact Text.labelMatchers_eq_none v hmask hraw hopen hclose hsize b.masks.size
      b.badMatcher?_render

end Nested

theorem Clause.nested (l : Clause) : Nested l.text l.text := by
  have hkeyword : ∀ op ∈ Operator.groupings, ∀ c ∈ op.token.toList, isIdent c := by decide
  have hlabels : Nested l.labels.text l.labels.text := by
    apply Nested.flat
    intro c hc
    rcases l.labels.mem_text hc with hc | rfl | rfl
    · exact ⟨isBracket_of_isIdent hc, isQuote_of_isIdent hc⟩
    · decide
    · decide
  exact (Nested.word (hkeyword l.keyword l.known)).append (Nested.blank.append hlabels.group)

theorem Binary.nested (op : Binary) : Nested op.op.token.toList op.op.token.toList := by
  have operators : ∀ op ∈ Operator.binaries, ∀ c ∈ op.token.toList,
      isBracket c = false ∧ isQuote c = false := by decide
  exact Nested.flat (operators op.op op.known)

namespace Selector

variable (s : Selector)

theorem nested : Nested (s.render StringLiteral.text) (s.render StringLiteral.masked) := by
  have hmetric := Nested.word fun c hc => s.metric.isIdent_of_mem hc
  obtain ⟨metric, block?⟩ := s
  cases block? with
  | none => exact hmetric.append Nested.nil
  | some b => exact hmetric.append (Nested.block b)

end Selector

namespace Part

variable {k : Kind}

/-- Every query is nested. -/
theorem nested (q : Part k) : Nested q.text q.masked := by
  induction q with
  | number value =>
    apply Nested.flat
    intro c hc
    rcases value.mem_text hc with hc | rfl
    · exact ⟨isBracket_of_isIdent hc, isQuote_of_isIdent hc⟩
    · decide
  | selector s => exact s.nested
  | rangeCall f s range =>
    have hname := Nested.word fun c hc => f.isIdent_of_mem hc
    simpa [text, masked, render] using hname.append (s.nested.append (.range range)).group
  | call f args ih =>
    have hname := Nested.word fun c hc => f.isIdent_of_mem hc
    exact hname.append ih.group
  | aggregate a args ih =>
    have hkeyword := Nested.word fun c hc => a.isIdent_of_mem hc
    exact hkeyword.append ih.group
  | aggregateBy a clause args ih =>
    have hkeyword := Nested.word fun c hc => a.isIdent_of_mem hc
    have hargs := clause.nested.append (Nested.blank.append ih.group)
    exact hkeyword.append (Nested.blank.append hargs)
  | aggregateOver a args clause ih =>
    have hkeyword := Nested.word fun c hc => a.isIdent_of_mem hc
    simpa [text, masked, render] using
      hkeyword.append (ih.group.append (Nested.blank.append clause.nested))
  | group e ih => exact ih.group
  | operand e ih => exact ih
  | signed sign e ih =>
    have hsign : Nested [sign.char] [sign.char] := by
      cases sign <;> exact Nested.char rfl rfl
    exact hsign.append ih
  | binary left op right admits ihl ihr =>
    exact ihl.append (Nested.blank.append (op.nested.append (Nested.blank.append ihr)))
  | argument e ih => exact ih
  | string s => exact Nested.string s
  | last arg ih => exact ih
  | more arg args iharg ih =>
    exact iharg.append ((Nested.char rfl rfl).append (Nested.blank.append ih))

end Part

end PromqlAssist.Grammar
