import PromqlAssist.Proofs.Rule.LabelMatcher
import PromqlAssist.Proofs.Text.Blanked

/-!
# The first brace block

Commas and braces are looked for in the masked query, and the entries between them are cut out of
the query itself, where they are the same parts.
-/

namespace PromqlAssist.Rule

open Text

variable {query front rest t : Text} {span : Span} {n : Nat}

/-- Entries are cut at commas of the masked list, which the list has as well. -/
theorem fits_of_mem_commaSpansFrom (front : Text) {start : Nat} (h : Blanked t (front ++ rest))
    (hstart : t.IsBoundary start) (hle : start ≤ size front)
    (hspan : span ∈ commaSpansFrom start (size front) rest) : span.Fits t := by
  induction rest generalizing front start with
  | nil =>
    obtain rfl := List.mem_singleton.mp hspan
    exact ⟨hle, hstart, by simpa using h.isBoundary_size⟩
  | cons c rest ih =>
    have hnext : Blanked t ((front ++ [c]) ++ rest) := by rwa [← List.append_cons]
    have hsize : size front + c.utf8Size = size (front ++ [c]) := by simp
    rw [commaSpansFrom] at hspan
    simp only [hsize] at hspan
    split at hspan
    · rename_i hc
      subst hc
      rcases List.mem_cons.mp hspan with rfl | hspan
      · exact ⟨hle, hstart, h.isBoundary_before (by decide)⟩
      · exact ih _ hnext (hsize ▸ h.isBoundary_behind (by decide)) (Nat.le_refl _) hspan
    · exact ih _ hnext hstart (by rw [← hsize]; omega) hspan

/-- An entry of a comma list and the same part of the masked list. -/
theorem exists_of_mem_splitCommas {masked entry : Text} (h : Blanked t masked)
    (hentry : (n, entry) ∈ splitCommas t masked) :
    ∃ front behind frontMasked entryMasked behindMasked,
      t = front ++ (entry ++ behind) ∧ n = size front ∧
        masked = frontMasked ++ (entryMasked ++ behindMasked) ∧
          Blanked front frontMasked ∧ Blanked entry entryMasked := by
  obtain ⟨span, hspan, heq⟩ := List.mem_map.mp hentry
  obtain ⟨rfl, rfl⟩ := Prod.mk.inj heq
  have hfits : span.Fits t :=
    fits_of_mem_commaSpansFrom [] h (isBoundary_zero t) (Nat.le_refl 0) hspan
  obtain ⟨a, b, c, rfl, rfl⟩ := hfits.exists_append
  obtain ⟨am, m, rfl, ha, hm⟩ := h.exists_of_append
  obtain ⟨bm, cm, rfl, hb, -⟩ := hm.exists_of_append
  have hslice : (⟨size a, size a + size b⟩ : Span).slice (a ++ (b ++ c)) = b := slice_append a b c
  exact ⟨a, c, am, bm, cm, by rw [hslice], rfl, rfl, ha, by rwa [hslice]⟩

/-- The first brace block of a query, which ends at the next brace outside string literals. -/
structure LabelBlock (query : Text) where
  front : Text
  block : Text
  behind : Text
  frontMasked : Text
  blockMasked : Text
  behindMasked : Text
  query_eq : query = front ++ '{' :: (block ++ '}' :: behind)
  mask_eq : query.mask = frontMasked ++ '{' :: (blockMasked ++ '}' :: behindMasked)
  first : '{' ∉ frontMasked
  next : '}' ∉ blockMasked
  blanked_front : Blanked front frontMasked
  blanked_block : Blanked block blockMasked

theorem labelMatchers_eq (v : Vocabulary) (b : LabelBlock query) :
    labelMatchers v query = (badMatcher? b.block b.blockMasked).map fun n =>
      ⟨size b.frontMasked + 1 + n, size b.frontMasked + 1 + size b.blockMasked + 1⟩ := by
  have hfront : query.mask.takeWhile (· ≠ '{') = b.frontMasked := by
    rw [b.mask_eq, takeWhile_ne_append b.first]
  have hrest : query.mask.dropWhile (· ≠ '{') =
      '{' :: (b.blockMasked ++ '}' :: b.behindMasked) := by
    rw [b.mask_eq, dropWhile_ne_append b.first]
  have hblock : query.slice (size b.frontMasked + 1)
      (size b.frontMasked + 1 + size b.blockMasked) = b.block := by
    have hopen : size (b.front ++ ['{']) = size b.frontMasked + 1 := by
      simp [b.blanked_front.size_eq]
    have hcut := slice_append (b.front ++ ['{']) b.block ('}' :: b.behind)
    rwa [← List.append_cons, ← b.query_eq, hopen, b.blanked_block.size_eq] at hcut
  unfold labelMatchers
  simp only [hfront, hrest]
  rw [if_pos (by simp), takeWhile_ne_append b.next, hblock]

/-- A block that is not closed is not looked at. -/
theorem labelMatchers_of_open (v : Vocabulary) (hmask : query.mask = front ++ '{' :: rest)
    (hfirst : '{' ∉ front) (hopen : '}' ∉ rest) : labelMatchers v query = none := by
  have hrest : query.mask.dropWhile (· ≠ '{') = '{' :: rest := by
    rw [hmask, dropWhile_ne_append hfirst]
  unfold labelMatchers
  simp only [hrest]
  exact if_neg (by simpa using hopen)

/-- A text has no brace block, or one that is not closed, or one that is. -/
theorem brace_cases (t : Text) : '{' ∉ t ∨
    (∃ front rest, t = front ++ '{' :: rest ∧ '{' ∉ front ∧ '}' ∉ rest) ∨
      ∃ front block behind, t = front ++ '{' :: (block ++ '}' :: behind) ∧ '{' ∉ front ∧
        '}' ∉ block := by
  by_cases hopens : '{' ∈ t
  · obtain ⟨front, rest, rfl, hfirst⟩ := List.eq_append_cons_of_mem hopens
    by_cases hcloses : '}' ∈ rest
    · obtain ⟨block, behind, rfl, hnext⟩ := List.eq_append_cons_of_mem hcloses
      exact .inr (.inr ⟨front, block, behind, rfl, hfirst, hnext⟩)
    · exact .inr (.inl ⟨front, rest, rfl, hfirst, hcloses⟩)
  · exact .inl hopens

/-- A block that is closed is a part of the query. -/
theorem labelBlock_cases (query : Text) : '{' ∉ query.mask ∨
    (∃ front rest, query.mask = front ++ '{' :: rest ∧ '{' ∉ front ∧ '}' ∉ rest) ∨
      Nonempty (LabelBlock query) := by
  refine (brace_cases query.mask).imp_right (Or.imp_right ?_)
  rintro ⟨front, block, behind, hmask, hfirst, hnext⟩
  have hquery : Blanked query (front ++ '{' :: (block ++ '}' :: behind)) := hmask ▸ .mask query
  obtain ⟨front', rest', hq, hfront, hrest⟩ := hquery.exists_of_append_cons (by decide)
  obtain ⟨block', behind', hr, hblock, -⟩ := hrest.exists_of_append_cons (by decide)
  exact ⟨front', block', behind', front, block, behind, by rw [hq, hr], hmask, hfirst, hnext,
    hfront, hblock⟩

end PromqlAssist.Rule
