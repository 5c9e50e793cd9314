import PromqlAssist.Proofs.Rule.LabelBlock

/-!
# The language of label matchers

A brace block is cut into entries at its commas, and an entry that is not blank has to be a name, a
comparison and a value. Braces, commas and comparisons count where they stand outside string
literals. The rule reports the first entry that cannot be written so.
-/

namespace PromqlAssist.Rule

open Text

variable {v : Vocabulary} {query front block behind entry name value t a : Text} {op : String}
variable {entries : List Text}

/-! ## One entry -/

/-- A way to write an entry as a name, a comparison and a value, neither side blank and without
further comparison characters outside its string literals. -/
structure Splits (entry name : Text) (op : String) (value : Text) : Prop where
  entry_eq : entry = name ++ (op.toList ++ value)
  known : op ∈ comparisons
  nameNotBlank : isAllBlank name = false
  valueNotBlank : isAllBlank value = false
  noneInName : ∀ c, isComparisonChar c → ¬ OccursOutside c name
  noneInValue : ∀ c, isComparisonChar c → ¬ OccursOutside c value

/-- Whether an entry can be written so with a comparison that stands outside string literals. -/
def IsLabelMatcher (entry : Text) : Prop :=
  ∃ name op value, Splits entry name op value ∧ Closed name

theorem forall_not_occursOutside_iff : (∀ c, isComparisonChar c → ¬ OccursOutside c t) ↔
    ∀ c ∈ t.mask, isComparisonChar c = false := by
  constructor
  · intro h c hc
    refine Bool.eq_false_iff.mpr fun hcompares => ?_
    exact h c hcompares ((mem_mask_iff (isShown_of_isComparisonChar hcompares)).mp hc)
  · intro h c hcompares hc
    rw [h c ((mem_mask_iff (isShown_of_isComparisonChar hcompares)).mpr hc)] at hcompares
    cases hcompares

/-- The comparison that the rule takes is the only one that leaves none to the sides. -/
theorem isMatcher_iff : isMatcher entry entry.mask ↔ IsLabelMatcher entry := by
  constructor
  · intro h
    have hsplit := List.takeWhile_append_dropWhile (p := fun c => !isComparisonChar c)
      (l := entry.mask)
    have hname := List.all_eq_true.mp
      (List.all_takeWhile (p := fun c => !isComparisonChar c) (l := entry.mask))
    have hread := h
    unfold isMatcher at hread
    generalize entry.mask.takeWhile (fun c => !isComparisonChar c) = nameMasked at *
    cases hop : comparison? (entry.mask.dropWhile fun c => !isComparisonChar c) with
    | none =>
      rw [hop] at hread
      cases hread
    | some found =>
      obtain ⟨op, valueMasked⟩ := found
      rw [hop] at hread
      obtain ⟨hmem, hrest⟩ := comparison?_eq_some hop
      obtain ⟨-, hne, hchars⟩ := comparison_spelling hmem
      rw [hrest] at hsplit
      obtain ⟨name, value, hentry, rfl, rfl, hclosed⟩ := exists_of_mask_append_word hsplit.symm
        (fun c hc => isShown_of_isComparisonChar (hchars c hc)) hne
      have hname' : ∀ c ∈ name.mask, isComparisonChar c = false := by simpa using hname
      have hvalue : ∀ c ∈ value.mask, isComparisonChar c = false := by
        simpa using (Bool.and_eq_true_iff.mp hread).2
      rw [← hsplit, hentry, isMatcher_append hmem (size_mask name).symm hname' hvalue,
        Bool.and_eq_true, Bool.not_eq_true', Bool.not_eq_true'] at h
      exact ⟨name, op, value, ⟨hentry, hmem, h.1, h.2, forall_not_occursOutside_iff.mpr hname',
        forall_not_occursOutside_iff.mpr hvalue⟩, hclosed⟩
  · rintro ⟨name, op, value, ⟨rfl, hmem, hname, hvalue, hnone, hnone'⟩, hclosed⟩
    obtain ⟨-, -, hchars⟩ := comparison_spelling hmem
    have hmask : mask (name ++ (op.toList ++ value)) =
        name.mask ++ (op.toList ++ value.mask) := by
      rw [hclosed.mask_append,
        mask_append_of_shown fun c hc => isShown_of_isComparisonChar (hchars c hc)]
    rw [hmask, isMatcher_append hmem (size_mask name).symm (forall_not_occursOutside_iff.mp hnone)
      (forall_not_occursOutside_iff.mp hnone'), hname, hvalue]
    rfl

/-! ## The entries of a list -/

/-- The entries of a comma list. The commas are those outside string literals. -/
inductive Entries : Text → List Text → Prop where
  | last {entry : Text} : ¬ OccursOutside ',' entry → Entries entry [entry]
  | more {entry t : Text} {entries : List Text} : ¬ OccursOutside ',' entry → Closed entry →
    Entries t entries → Entries (entry ++ ',' :: t) (entry :: entries)

theorem exists_entries (t : Text) : ∃ entries, Entries t entries := by
  induction hlength : t.length using Nat.strongRecOn generalizing t with
  | ind length ih =>
    subst hlength
    by_cases hcomma : ',' ∈ t.mask
    · obtain ⟨am, bm, hmask, hfirst⟩ := List.eq_append_cons_of_mem hcomma
      obtain ⟨a, b, rfl, rfl, -, hclosed⟩ := exists_of_mask_append_cons hmask (by decide)
      obtain ⟨entries, hentries⟩ := ih b.length (by simp; omega) b rfl
      exact ⟨a :: entries, .more ((not_occursOutside_iff (by decide)).mpr hfirst) hclosed hentries⟩
    · exact ⟨[t], .last ((not_occursOutside_iff (by decide)).mpr hcomma)⟩

/-- The offset at which an entry that the rule does not take is reported. -/
def entryDefect? (entry : Text) : Option Nat :=
  if isAllBlank entry || isMatcher entry entry.mask then none
  else some (size entry - size (trimStart entry))

/-- The same for the entry in a span of a list. -/
def spanDefect? (t masked : Text) (s : Span) : Option Nat :=
  if isAllBlank (s.slice t)
      || isMatcher (s.slice t) (slice masked s.start (s.start + size (s.slice t))) then none
  else some (s.start + (size (s.slice t) - size (trimStart (s.slice t))))

theorem badMatcher?_eq (t masked : Text) :
    badMatcher? t masked = (commaSpansFrom 0 0 masked).findSome? (spanDefect? t masked) := by
  rw [badMatcher?, splitCommas, List.findSome?_map]
  rfl

theorem slice_behind (a t : Text) (start stop : Nat) :
    slice (a ++ t) (size a + start) (size a + stop) = slice t start stop := by
  rw [slice, after_append, Nat.add_sub_add_left]
  rfl

theorem commaSpansFrom_behind (k start n : Nat) (t : Text) :
    commaSpansFrom (k + start) (k + n) t =
      (commaSpansFrom start n t).map fun s => ⟨k + s.start, k + s.stop⟩ := by
  induction t generalizing start n with
  | nil => rfl
  | cons c t ih =>
    simp only [commaSpansFrom, Nat.add_assoc]
    split
    · rw [ih, List.map_cons]
    · rw [ih]

/-- The first entry is read by itself. -/
theorem spanDefect?_first (a t masked : Text) :
    spanDefect? (a ++ t) (a.mask ++ masked) ⟨0, size a⟩ = entryDefect? a := by
  have hentry : (⟨0, size a⟩ : Span).slice (a ++ t) = a := by
    simpa [Span.slice] using slice_append [] a t
  have hmasked : slice (a.mask ++ masked) 0 (0 + size a) = a.mask := by
    simpa using slice_append [] a.mask masked
  rw [spanDefect?, entryDefect?, hentry, hmasked, Nat.zero_add]

/-- What is in front moves the offset. -/
theorem spanDefect?_behind {front frontMasked : Text} (h : size front = size frontMasked)
    (t masked : Text) (s : Span) :
    spanDefect? (front ++ t) (frontMasked ++ masked) ⟨size front + s.start, size front + s.stop⟩ =
      (spanDefect? t masked s).map (size front + ·) := by
  have hentry : (⟨size front + s.start, size front + s.stop⟩ : Span).slice (front ++ t) =
      s.slice t := slice_behind front t s.start s.stop
  rw [spanDefect?, spanDefect?, hentry]
  simp only [Nat.add_assoc]
  rw [h, slice_behind]
  split <;> rfl

theorem badMatcher?_last (h : ¬ OccursOutside ',' t) : badMatcher? t t.mask = entryDefect? t := by
  have hscan := commaSpansFrom_append ((not_occursOutside_iff (by decide)).mp h) 0 0 []
  have hfirst := spanDefect?_first t [] []
  rw [List.append_nil] at hscan
  rw [List.append_nil, List.append_nil] at hfirst
  rw [badMatcher?_eq, hscan, commaSpansFrom, Nat.zero_add, size_mask, List.findSome?_cons, hfirst]
  cases entryDefect? t <;> rfl

theorem badMatcher?_more (h : ¬ OccursOutside ',' a) (hclosed : Closed a) (t : Text) :
    badMatcher? (a ++ ',' :: t) (mask (a ++ ',' :: t)) =
      (entryDefect? a).or ((badMatcher? t t.mask).map (size (a ++ [',']) + ·)) := by
  have hcomma : (',' : Char).utf8Size = 1 := by decide
  have hsize : size (a ++ [',']) = size a + 1 := by simp [hcomma]
  have hfirst := spanDefect?_first a (',' :: t) (',' :: t.mask)
  have hbehind : spanDefect? (a ++ ',' :: t) (a.mask ++ ',' :: t.mask) ∘
      (fun s => ⟨size a + 1 + s.start, size a + 1 + s.stop⟩) =
        Option.map (size a + 1 + ·) ∘ spanDefect? t t.mask := by
    funext s
    rw [List.append_cons a, List.append_cons a.mask, ← hsize]
    exact spanDefect?_behind (by simp) t t.mask s
  have hspans : commaSpansFrom (size a + 1) (size a + 1) t.mask =
      (commaSpansFrom 0 0 t.mask).map fun s => ⟨size a + 1 + s.start, size a + 1 + s.stop⟩ :=
    commaSpansFrom_behind (size a + 1) 0 0 t.mask
  rw [hclosed.mask_append_cons (by decide), badMatcher?_eq,
    commaSpansFrom_append ((not_occursOutside_iff (by decide)).mp h), commaSpansFrom, if_pos rfl,
    size_mask, Nat.zero_add, hcomma, List.findSome?_cons, hfirst, hspans, List.findSome?_map,
    hbehind, ← List.map_findSome?, ← badMatcher?_eq, hsize]
  cases entryDefect? a <;> rfl

/-- An entry is taken if it is blank or a label matcher. -/
def Taken (entry : Text) : Prop :=
  isAllBlank entry = false → IsLabelMatcher entry

theorem entryDefect?_eq_none_iff : entryDefect? entry = none ↔ Taken entry := by
  rw [Taken, ← isMatcher_iff, entryDefect?]
  cases isAllBlank entry <;> simp

/-- An entry that is not taken is reported at its first character that is not blank. -/
theorem entryDefect?_eq_some {n : Nat} (h : entryDefect? entry = some n) : ¬ Taken entry ∧
    ∃ blanks c rest, entry = blanks ++ c :: rest ∧ isAllBlank blanks ∧ isBlank c = false ∧
      size blanks = n := by
  have htaken : ¬ Taken entry := by
    rw [← entryDefect?_eq_none_iff, h]
    exact Option.some_ne_none n
  unfold entryDefect? at h
  split at h
  · cases h
  · rename_i hno
    obtain rfl := Option.some.inj h
    have hcut := List.takeWhile_append_dropWhile (p := isBlank) (l := entry)
    have hblanks : isAllBlank (entry.takeWhile isBlank) := List.all_takeWhile
    cases hrest : entry.dropWhile isBlank with
    | nil =>
      rw [hrest, List.append_nil] at hcut
      rw [← hcut, hblanks] at hno
      exact absurd rfl hno
    | cons c rest =>
      have hc : isBlank c = false := by
        simpa [hrest] using List.head?_dropWhile_not isBlank entry
      refine ⟨htaken, entry.takeWhile isBlank, c, rest, by rw [← hrest, hcut], hblanks, hc, ?_⟩
      have hsize := congrArg size hcut
      rw [size_append] at hsize
      rw [trimStart]
      omega

theorem badMatcher?_eq_none_iff (h : Entries t entries) :
    badMatcher? t t.mask = none ↔ ∀ entry ∈ entries, Taken entry := by
  induction h with
  | last hcomma => rw [badMatcher?_last hcomma, entryDefect?_eq_none_iff, List.forall_mem_singleton]
  | more hcomma hclosed _ ih =>
    rw [badMatcher?_more hcomma hclosed, Option.or_eq_none_iff, entryDefect?_eq_none_iff,
      Option.map_eq_none_iff, ih, List.forall_mem_cons]

/-- Whether the first entry that is not taken stands behind `ahead` in a list. Its leading blanks are
counted to what is ahead. -/
def DefectBehind (entries : List Text) (ahead : Text) : Prop :=
  ∃ good blanks c rest more, entries = good ++ (blanks ++ c :: rest) :: more ∧
    (∀ entry ∈ good, Taken entry) ∧ ¬ Taken (blanks ++ c :: rest) ∧ isAllBlank blanks ∧
    isBlank c = false ∧ ahead = good.flatMap (· ++ [',']) ++ blanks

theorem DefectBehind.cons {ahead : Text} (h : DefectBehind entries ahead) (hentry : Taken entry) :
    DefectBehind (entry :: entries) (entry ++ [','] ++ ahead) := by
  obtain ⟨good, blanks, c, rest, more, rfl, hgood, hbad, hblanks, hc, rfl⟩ := h
  exact ⟨entry :: good, blanks, c, rest, more, rfl, List.forall_mem_cons.mpr ⟨hentry, hgood⟩, hbad,
    hblanks, hc, by simp⟩

theorem defectBehind_of_entryDefect? {n : Nat} (h : entryDefect? entry = some n)
    (more : List Text) : ∃ ahead, DefectBehind (entry :: more) ahead ∧ size ahead = n := by
  obtain ⟨hbad, blanks, c, rest, rfl, hblanks, hc, hn⟩ := entryDefect?_eq_some h
  exact ⟨blanks, ⟨[], blanks, c, rest, more, rfl, by simp, hbad, hblanks, hc, rfl⟩, hn⟩

theorem defectBehind_of_badMatcher? {n : Nat} (h : Entries t entries)
    (hn : badMatcher? t t.mask = some n) : ∃ ahead, DefectBehind entries ahead ∧ size ahead = n := by
  induction h generalizing n with
  | last hcomma =>
    rw [badMatcher?_last hcomma] at hn
    exact defectBehind_of_entryDefect? hn []
  | @more entry t entries hcomma hclosed _ ih =>
    rw [badMatcher?_more hcomma hclosed] at hn
    cases hdefect : entryDefect? entry with
    | some m =>
      rw [hdefect] at hn
      exact defectBehind_of_entryDefect? (hdefect.trans hn) entries
    | none =>
      rw [hdefect, Option.none_or] at hn
      obtain ⟨m, hm, rfl⟩ := Option.map_eq_some_iff.mp hn
      obtain ⟨ahead, hahead, rfl⟩ := ih hm
      exact ⟨_, hahead.cons (entryDefect?_eq_none_iff.mp hdefect), size_append _ _⟩

/-! ## The first block -/

/-- Whether a query is cut at its first closed brace block: at the first opening brace outside string
literals, and at the next closing one. -/
structure FirstBlock (query front block behind : Text) : Prop where
  cut : query = front ++ '{' :: (block ++ '}' :: behind)
  opens : Closed front
  closes : Closed block
  first : ¬ OccursOutside '{' front
  next : ¬ OccursOutside '}' block

theorem FirstBlock.labelMatchers_eq (h : FirstBlock query front block behind) (v : Vocabulary) :
    labelMatchers v query = (badMatcher? block block.mask).map fun n =>
      ⟨size front + 1 + n, size front + 1 + size block + 1⟩ := by
  have hmask : query.mask = front.mask ++ '{' :: (block.mask ++ '}' :: behind.mask) := by
    rw [h.cut, h.opens.mask_append_cons (by decide), h.closes.mask_append_cons (by decide)]
  let b : LabelBlock query :=
    { front, block, behind
      frontMasked := front.mask
      blockMasked := block.mask
      behindMasked := behind.mask
      query_eq := h.cut
      mask_eq := hmask
      first := (not_occursOutside_iff (by decide)).mp h.first
      next := (not_occursOutside_iff (by decide)).mp h.next
      blanked_front := .mask front
      blanked_block := .mask block }
  rw [Rule.labelMatchers_eq v b]
  simp only [b, size_mask]

theorem LabelBlock.exists_firstBlock (b : LabelBlock query) :
    ∃ front block behind, FirstBlock query front block behind := by
  obtain ⟨front, rest, hcut, hfront, hrest, hopens⟩ :=
    exists_of_mask_append_cons b.mask_eq (by decide)
  obtain ⟨block, behind, rfl, hblock, -, hcloses⟩ := exists_of_mask_append_cons hrest (by decide)
  refine ⟨front, block, behind, hcut, hopens, hcloses, ?_, ?_⟩
  · rw [not_occursOutside_iff (by decide), hfront]
    exact b.first
  · rw [not_occursOutside_iff (by decide), hblock]
    exact b.next

theorem labelMatchers_of_no_block (v : Vocabulary)
    (h : ¬ ∃ front block behind, FirstBlock query front block behind) :
    labelMatchers v query = none := by
  obtain hnone | ⟨front, rest, hmask, hfirst, hopen⟩ | ⟨⟨b⟩⟩ := labelBlock_cases query
  · exact labelMatchers_of_not_mem v hnone
  · exact labelMatchers_of_open v hmask hfirst hopen
  · exact absurd b.exists_firstBlock h

/-- Whether the rule passes a query with this block if all entries of the block are taken, and
otherwise reports the first that is not, up to the end of the block. -/
structure DecidesMatchers (v : Vocabulary) (query front block : Text) (entries : List Text) :
    Prop where
  passes_iff : labelMatchers v query = none ↔ ∀ entry ∈ entries, Taken entry
  defect : labelMatchers v query ≠ none → ∃ ahead, DefectBehind entries ahead ∧
    labelMatchers v query =
      some ⟨size (front ++ '{' :: ahead), size (front ++ '{' :: (block ++ ['}']))⟩

theorem FirstBlock.decidesMatchers (h : FirstBlock query front block behind)
    (hentries : Entries block entries) : DecidesMatchers v query front block entries where
  passes_iff := by
    rw [h.labelMatchers_eq, Option.map_eq_none_iff, badMatcher?_eq_none_iff hentries]
  defect := by
    intro hdefect
    obtain ⟨s, hs⟩ := Option.ne_none_iff_exists'.mp hdefect
    have heq := h.labelMatchers_eq v
    obtain ⟨n, hn, -⟩ := Option.map_eq_some_iff.mp (heq.symm.trans hs)
    obtain ⟨ahead, hahead, rfl⟩ := defectBehind_of_badMatcher? hentries hn
    refine ⟨ahead, hahead, ?_⟩
    rw [heq, hn]
    simp [Nat.add_assoc]

/-- The rule looks at the first closed block alone, and takes it if each of its entries is blank or
can be written as a name, a comparison outside string literals and a value. -/
theorem labelMatchers_accepts (v : Vocabulary) (query : Text) :
    ((¬ ∃ front block behind, FirstBlock query front block behind) →
      labelMatchers v query = none) ∧
    ∀ front block behind, FirstBlock query front block behind →
      (∃ entries, Entries block entries) ∧
      ∀ entries, Entries block entries → DecidesMatchers v query front block entries :=
  ⟨labelMatchers_of_no_block v, fun _ block _ hblock =>
    ⟨exists_entries block, fun _ hentries => hblock.decidesMatchers hentries⟩⟩

/-- A string that holds a brace, a comma and an equals sign, a blank entry, and an entry that lacks
its value. -/
theorem labelMatchers_accepts_noValue :
    let first : Text := ['a', '=', '"', '}', ',', '=', '"']
    let block : Text := first ++ ',' :: ([' '] ++ ',' :: [' ', 'é', '='])
    let query : Text := ['u', 'p'] ++ '{' :: (block ++ '}' :: [])
    FirstBlock query ['u', 'p'] block [] ∧ Entries block [first, [' '], [' ', 'é', '=']] ∧
      DecidesMatchers .empty query ['u', 'p'] block [first, [' '], [' ', 'é', '=']] ∧
      labelMatchers .empty query = some ⟨14, 18⟩ := by
  intro first block query
  have hblock : FirstBlock query ['u', 'p'] block [] :=
    ⟨rfl, by decide, by decide, (not_occursOutside_iff (by decide)).mpr (by decide),
      (not_occursOutside_iff (by decide)).mpr (by decide)⟩
  have hentries : Entries block [first, [' '], [' ', 'é', '=']] :=
    .more ((not_occursOutside_iff (by decide)).mpr (by decide)) (by decide)
      (.more ((not_occursOutside_iff (by decide)).mpr (by decide)) (by decide)
        (.last ((not_occursOutside_iff (by decide)).mpr (by decide))))
  obtain ⟨-, haccepts⟩ := labelMatchers_accepts .empty query
  exact ⟨hblock, hentries, (haccepts _ _ _ hblock).2 _ hentries, by decide⟩

/-- A comparison inside a string is none: the entry is refused, although what is left of it is a name
and a value. -/
theorem labelMatchers_quotedComparison :
    let block : Text := ['a', '"', '=', '"', 'b']
    let query : Text := ['u', 'p'] ++ '{' :: (block ++ '}' :: [])
    FirstBlock query ['u', 'p'] block [] ∧ Entries block [block] ∧
      Splits block ['a', '"'] "=" ['"', 'b'] ∧ labelMatchers .empty query = some ⟨3, 9⟩ := by
  intro block query
  have hblock : FirstBlock query ['u', 'p'] block [] :=
    ⟨rfl, by decide, by decide, (not_occursOutside_iff (by decide)).mpr (by decide),
      (not_occursOutside_iff (by decide)).mpr (by decide)⟩
  have hsplits : Splits block ['a', '"'] "=" ['"', 'b'] :=
    ⟨by decide, by decide, by decide, by decide, forall_not_occursOutside_iff.mpr (by decide),
      forall_not_occursOutside_iff.mpr (by decide)⟩
  exact ⟨hblock, .last ((not_occursOutside_iff (by decide)).mpr (by decide)), hsplits, by decide⟩

end PromqlAssist.Rule
