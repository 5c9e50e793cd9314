import PromqlAssist.Proofs.Text.Literal
import PromqlAssist.Proofs.Text.Mask
import PromqlAssist.Rule.LabelMatcher

/-!
# Label matchers, entry by entry

A comma list is cut at the commas of its mask. Entries that are as long as their masks are cut out
whole, so a block is accepted if each of its entries is. An entry with one comparison in its mask is
accepted if neither side is blank.
-/

namespace PromqlAssist

namespace Rule
open Text

variable {op : String} {t name value nameMasked valueMasked : Text}

theorem isShown_of_isComparisonChar {c : Char} (h : isComparisonChar c) : IsShown c := by
  constructor
  · rintro rfl
    exact absurd h (by decide)
  · rintro rfl
    exact absurd h (by decide)

theorem comparison_spelling (hop : op ∈ comparisons) : op.utf8ByteSize = size op.toList ∧
    op.toList ≠ [] ∧ ∀ c ∈ op.toList, isComparisonChar c := by
  have hall : ∀ op ∈ comparisons, op.utf8ByteSize = size op.toList ∧ op.toList ≠ [] ∧
      ∀ c ∈ op.toList, isComparisonChar c := by decide
  exact hall op hop

theorem comparison?_eq_some (h : comparison? t = some (op, value)) :
    op ∈ comparisons ∧ t = op.toList ++ value := by
  obtain ⟨found, hmem, h⟩ := List.exists_of_findSome?_eq_some h
  obtain ⟨rest, hdrop, heq⟩ := Option.map_eq_some_iff.mp h
  obtain ⟨rfl, rfl⟩ := Prod.mk.inj heq
  exact ⟨hmem, dropPart?_eq_some_iff.mp hdrop⟩

/-- A comparison is read off in front of anything that does not go on with it. -/
theorem comparison?_append (hop : op ∈ comparisons)
    (hvalue : ∀ c ∈ value, isComparisonChar c = false) :
    comparison? (op.toList ++ value) = some (op, value) := by
  simp only [comparisons, List.mem_cons, List.not_mem_nil, or_false] at hop
  cases value with
  | nil =>
    rcases hop with rfl | rfl | rfl | rfl | rfl | rfl | rfl | rfl
    all_goals rfl
  | cons c value =>
    have hother : ∀ d, isComparisonChar d → d ≠ c := by
      rintro d hd rfl
      rw [hvalue d (by simp)] at hd
      cases hd
    have hequals := hother '=' (by decide)
    have htilde := hother '~' (by decide)
    rcases hop with rfl | rfl | rfl | rfl | rfl | rfl | rfl | rfl
    all_goals simp [comparison?, comparisons, dropPart?, hequals, htilde]

/-- With one comparison in the mask of an entry, only the sides have to be looked at. -/
theorem isMatcher_append (hop : op ∈ comparisons) (hsize : size name = size nameMasked)
    (hname : ∀ c ∈ nameMasked, isComparisonChar c = false)
    (hvalue : ∀ c ∈ valueMasked, isComparisonChar c = false) (value : Text) :
    isMatcher (name ++ (op.toList ++ value)) (nameMasked ++ (op.toList ++ valueMasked)) =
      (!isAllBlank name && !isAllBlank value) := by
  obtain ⟨hbytes, hne, hchars⟩ := comparison_spelling hop
  have hskip : ∀ c ∈ nameMasked, (!isComparisonChar c) = true := fun c hc => by simp [hname c hc]
  have hstop : (op.toList ++ valueMasked).takeWhile (fun c => !isComparisonChar c) = [] ∧
      (op.toList ++ valueMasked).dropWhile (fun c => !isComparisonChar c) =
        op.toList ++ valueMasked := by
    obtain ⟨c, rest, heq⟩ := List.exists_cons_of_ne_nil hne
    simp [heq, hchars c (by simp [heq])]
  have hafter : after (name ++ (op.toList ++ value)) (size nameMasked + op.utf8ByteSize) = value := by
    rw [hbytes, ← hsize, ← size_append, ← List.append_assoc, after_size_append]
  have hnone : valueMasked.any isComparisonChar = false := by
    simpa using hvalue
  unfold isMatcher
  rw [List.takeWhile_append_of_pos hskip, List.dropWhile_append_of_pos hskip, hstop.1, hstop.2,
    List.append_nil, comparison?_append hop hvalue]
  simp only [hafter, hnone, Bool.not_false, Bool.and_true]
  rw [← hsize, before_size_append]

end Rule

namespace Text

/-- An entry of a comma list and its mask, which has no comma and is as long as the entry. -/
structure IsEntry (entry masked : Text) : Prop where
  size : size entry = size masked
  noComma : ',' ∉ masked

theorem IsEntry.blank {entry masked : Text} (h : IsEntry entry masked) :
    IsEntry (' ' :: entry) (' ' :: masked) where
  size := by
    rw [size_cons, size_cons, h.size]
  noComma := by
    simp [h.noComma]

theorem commaSpansFrom_append {s : Text} (h : ',' ∉ s) (start n : Nat) (t : Text) :
    commaSpansFrom start n (s ++ t) = commaSpansFrom start (n + size s) t := by
  induction s generalizing n with
  | nil => rfl
  | cons c s ih =>
    rw [List.mem_cons, not_or] at h
    rw [List.cons_append, commaSpansFrom, if_neg (Ne.symm h.1), ih h.2, size_cons, Nat.add_assoc]

/-- The span of an entry cuts it out of its list, and its mask out of the list's mask. -/
theorem IsEntry.slice {entry masked front frontMasked : Text} (h : IsEntry entry masked)
    (hfront : Text.size front = Text.size frontMasked) (t u : Text) :
    (⟨Text.size frontMasked, Text.size frontMasked + Text.size masked⟩ : Span).slice
        (front ++ (entry ++ t)) = entry ∧
      (⟨Text.size frontMasked, Text.size frontMasked + Text.size masked⟩ : Span).slice
        (frontMasked ++ (masked ++ u)) = masked := by
  refine ⟨?_, slice_append frontMasked masked u⟩
  rw [← hfront, ← h.size]
  exact slice_append front entry t

/-- Every span between commas is that of an entry. -/
theorem mem_commaSpansFrom (entries : List (Text × Text)) {p : Text × Text}
    (hentries : ∀ q ∈ p :: entries, IsEntry q.1 q.2) (front frontMasked : Text)
    (hfront : size front = size frontMasked) {s : Span}
    (hs : s ∈ commaSpansFrom (size frontMasked) (size frontMasked)
      (p.2 ++ entries.flatMap fun q => ',' :: q.2)) :
    ∃ q ∈ p :: entries, s.slice (front ++ (p.1 ++ entries.flatMap fun q => ',' :: q.1)) = q.1 ∧
      s.slice (frontMasked ++ (p.2 ++ entries.flatMap fun q => ',' :: q.2)) = q.2 ∧
      s.stop = s.start + size q.1 := by
  induction entries generalizing p front frontMasked with
  | nil =>
    have hp := hentries p (by simp)
    rw [commaSpansFrom_append hp.noComma, List.flatMap_nil, commaSpansFrom,
      List.mem_singleton] at hs
    subst hs
    obtain ⟨hraw, hmasked⟩ := hp.slice hfront [] []
    exact ⟨p, by simp, hraw, hmasked, by rw [hp.size]⟩
  | cons q entries ih =>
    have hp := hentries p (by simp)
    rw [commaSpansFrom_append hp.noComma, List.flatMap_cons, List.cons_append, commaSpansFrom,
      if_pos rfl] at hs
    rcases List.mem_cons.mp hs with rfl | hs
    · obtain ⟨hraw, hmasked⟩ := hp.slice hfront
        (List.flatMap (fun q => ',' :: q.1) (q :: entries))
        (List.flatMap (fun q => ',' :: q.2) (q :: entries))
      exact ⟨p, by simp, hraw, hmasked, by rw [hp.size]⟩
    · have hbehind : size frontMasked + size p.2 + (',' : Char).utf8Size =
          size (frontMasked ++ (p.2 ++ [','])) := by
        simp [Nat.add_assoc]
      rw [hbehind] at hs
      obtain ⟨r, hr, hraw, hmasked, hstop⟩ := ih (fun r hr => hentries r (by simp [hr]))
        (front ++ (p.1 ++ [','])) _ (by simp [hfront, hp.size]) hs
      refine ⟨r, List.mem_cons_of_mem p hr, ?_, ?_, hstop⟩
      · simpa using hraw
      · simpa using hmasked

/-- A comma list is accepted if all its entries are. -/
theorem badMatcher?_eq_none (entries : List (Text × Text)) {p : Text × Text}
    (hentries : ∀ q ∈ p :: entries, IsEntry q.1 q.2 ∧ Rule.isMatcher q.1 q.2) :
    Rule.badMatcher? (p.1 ++ entries.flatMap fun q => ',' :: q.1)
      (p.2 ++ entries.flatMap fun q => ',' :: q.2) = none := by
  rw [Rule.badMatcher?, splitCommas, List.findSome?_eq_none_iff]
  intro r hr
  obtain ⟨s, hs, rfl⟩ := List.mem_map.mp hr
  obtain ⟨q, hq, hraw, hmasked, hstop⟩ := mem_commaSpansFrom entries
    (fun q hq => (hentries q hq).1) [] [] rfl hs
  rw [List.nil_append] at hraw hmasked
  rw [Span.slice, hstop] at hmasked
  simp only [hraw, hmasked, (hentries q hq).2, Bool.or_true, if_true]

/-- The first block is the one that counts. It is accepted if its comma list is. -/
theorem labelMatchers_eq_none (v : Vocabulary) {front frontMasked entries entriesMasked : Text}
    {query rest restMasked : Text}
    (hmask : mask query = frontMasked ++ '{' :: (entriesMasked ++ '}' :: restMasked))
    (hquery : query = front ++ '{' :: (entries ++ '}' :: rest))
    (hopen : '{' ∉ frontMasked) (hclose : '}' ∉ entriesMasked)
    (hfront : size front = size frontMasked) (hsize : size entries = size entriesMasked)
    (hentries : Rule.badMatcher? entries entriesMasked = none) :
    Rule.labelMatchers v query = none := by
  have hopener : size (front ++ ['{']) = size frontMasked + 1 := by simp [hfront]
  have hblock : slice query (size frontMasked + 1) (size frontMasked + 1 + size entriesMasked) =
      entries := by
    have hslice := slice_append (front ++ ['{']) entries ('}' :: rest)
    rw [hopener, List.append_assoc, hsize] at hslice
    rw [hquery]
    exact hslice
  simp only [Rule.labelMatchers, hmask, takeWhile_ne_append hopen, dropWhile_ne_append hopen]
  rw [if_pos (by simp), takeWhile_ne_append hclose, hblock, hentries]
  rfl

theorem labelMatchers_of_not_mem (v : Vocabulary) {query : Text} (h : '{' ∉ mask query) :
    Rule.labelMatchers v query = none := by
  simp only [Rule.labelMatchers, dropWhile_ne_eq_nil h]

end Text

end PromqlAssist
