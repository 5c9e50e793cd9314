import PromqlAssist.Proofs.Context.Group
import PromqlAssist.Proofs.Grammar.Range
import PromqlAssist.Proofs.Rule.Bracket
import PromqlAssist.Proofs.Rule.Call

/-!
# The groups that the rules look into

On a query whose brackets are nested, what the rules on time ranges and on calls take for the inside
of brackets is the inside of a group. So these rules are settled by the groups of the query: each
ends with nothing just where no group is bad, and otherwise names a bad one.
-/

namespace PromqlAssist

namespace Rule

open Text Context

variable {t rest : Text} {n resume : Nat} {c : Char} {s : Span}

/-- One more character in front moves a span. -/
theorem ofLength_size_cons (c : Char) (front : Text) (length : Nat) :
    Span.ofLength (size (c :: front)) length =
      (Span.ofLength (size front) length).shift c.utf8Size := by
  simp only [Span.ofLength, Span.shift, size_cons, Span.mk.injEq]
  omega

/-- Whether a search in a text at offset `n` ends with nothing just where there is no defect, and
otherwise finds one. The defects are given by offsets of the text. -/
structure Finds (n : Nat) (outcome : Option Span) (Defect : Span → Prop) : Prop where
  none_iff : outcome = none ↔ ∀ d, ¬ Defect d
  found : ∀ s, outcome = some s → ∃ d, Defect d ∧ s = d.shift n

namespace Finds

variable {outcome : Option Span} {Defect Later : Span → Prop}

theorem nothing (h : ∀ d, ¬ Defect d) : Finds n none Defect :=
  ⟨⟨fun _ => h, fun _ => rfl⟩, by simp⟩

theorem here {length : Nat} (n : Nat) (h : Defect (.ofLength 0 length)) :
    Finds n (some (.ofLength n length)) Defect where
  none_iff := ⟨by simp, fun hno => absurd h (hno _)⟩
  found s hs := by
    refine ⟨_, h, ?_⟩
    rw [← Option.some.inj hs]
    simp only [Span.ofLength, Span.shift, Span.mk.injEq]
    omega

/-- Where nothing is found at the start, the search goes on behind. -/
theorem behind {size : Nat} (h : Finds (n + size) outcome Later)
    (hdefect : ∀ s, Defect s ↔ ∃ d, Later d ∧ s = d.shift size) : Finds n outcome Defect where
  none_iff := by
    rw [h.none_iff]
    constructor
    · intro hno s hs
      obtain ⟨d, hd, -⟩ := (hdefect s).mp hs
      exact hno d hd
    · intro hno d hd
      exact hno _ ((hdefect _).mpr ⟨d, hd, rfl⟩)
  found s hs := by
    obtain ⟨d, hd, rfl⟩ := h.found s hs
    refine ⟨d.shift size, (hdefect _).mpr ⟨d, hd, rfl⟩, ?_⟩
    simp only [Span.shift, Span.mk.injEq]
    omega

end Finds

/-- Whether the search also finds no other defect than the first, that is one that starts first. -/
structure FindsFirst (n : Nat) (outcome : Option Span) (Defect : Span → Prop) : Prop
    extends Finds n outcome Defect where
  first : ∀ s, outcome = some s → ∀ d, Defect d → s.start ≤ n + d.start

namespace FindsFirst

variable {outcome : Option Span} {Defect Later : Span → Prop}

theorem nothing (h : ∀ d, ¬ Defect d) : FindsFirst n none Defect where
  toFinds := .nothing h
  first := by simp

theorem here {length : Nat} (n : Nat) (h : Defect (.ofLength 0 length)) :
    FindsFirst n (some (.ofLength n length)) Defect where
  toFinds := .here n h
  first s hs d _ := by
    rw [← Option.some.inj hs]
    exact Nat.le_add_right n d.start

theorem behind {size : Nat} (h : FindsFirst (n + size) outcome Later)
    (hdefect : ∀ s, Defect s ↔ ∃ d, Later d ∧ s = d.shift size) : FindsFirst n outcome Defect where
  toFinds := h.toFinds.behind hdefect
  first s hs d hd := by
    obtain ⟨d, hlater, rfl⟩ := (hdefect d).mp hd
    have hle := h.first s hs d hlater
    simp only [Span.shift]
    omega

end FindsFirst

/-! ## Time ranges -/

/-- A group of square brackets that holds no time range. -/
def BadRange (t : Text) (s : Span) : Prop :=
  ∃ front rest body behind, t = front ++ '[' :: rest ∧ Encloses '[' rest body behind ∧
    isRangeSelector (trim body) = false ∧ s = .ofLength (size front) (size body + 2)

theorem not_badRange_nil (s : Span) : ¬ BadRange [] s := by
  rintro ⟨front, rest, body, behind, h, -⟩
  simp at h

theorem badRange_cons_iff : BadRange (c :: t) s ↔
    (c = '[' ∧ ∃ body behind, Encloses '[' t body behind ∧ isRangeSelector (trim body) = false ∧
      s = .ofLength 0 (size body + 2)) ∨ ∃ d, BadRange t d ∧ s = d.shift c.utf8Size := by
  constructor
  · rintro ⟨front, rest, body, behind, h, hencloses, hrange, rfl⟩
    cases front with
    | nil =>
      obtain ⟨rfl, rfl⟩ := List.cons.inj h
      exact .inl ⟨rfl, body, behind, hencloses, hrange, rfl⟩
    | cons e front =>
      obtain ⟨rfl, rfl⟩ := List.cons.inj h
      exact .inr ⟨_, ⟨front, rest, body, behind, rfl, hencloses, hrange, rfl⟩,
        ofLength_size_cons c front _⟩
  · rintro (⟨rfl, body, behind, hencloses, hrange, rfl⟩ |
      ⟨_, ⟨front, rest, body, behind, rfl, hencloses, hrange, rfl⟩, rfl⟩)
    · exact ⟨[], t, body, behind, rfl, hencloses, hrange, rfl⟩
    · exact ⟨c :: front, rest, body, behind, rfl, hencloses, hrange,
        (ofLength_size_cons c front _).symm⟩

/-- No bad range starts inside one that is good, as there are no brackets in it. -/
theorem BadRange.start_of_range {body behind : Text} (h : BadRange (body ++ ']' :: behind) s)
    (hrange : isRangeSelector (trim body)) : size body + 1 ≤ s.start := by
  obtain ⟨front, rest, _, _, hcut, -, -, rfl⟩ := h
  obtain ⟨inner, hbody, -⟩ | ⟨gap, rfl, hgap⟩ := cut_of_append hcut.symm
  · have hmem : '[' ∈ body := by simp [hbody]
    obtain ⟨r, hr⟩ := Grammar.Range.isRangeSelector_iff.mp hrange
    exact absurd (hr ▸ mem_trim hmem (by decide)) r.bracket_not_mem
  · cases gap with
    | nil =>
      obtain ⟨hne, -⟩ := List.cons.inj hgap
      exact absurd hne (by decide)
    | cons d gap =>
      obtain ⟨rfl, -⟩ := List.cons.inj hgap
      simp only [Span.ofLength, size_append, size_cons, utf8Size_bracket]
      omega

/-- The invariant is that all bad ranges start where the search resumes, or behind. -/
theorem findsFirst_badRangeFrom? (ht : Grouped t)
    (hresume : ∀ s, BadRange t s → resume ≤ n + s.start) :
    FindsFirst n (badRangeFrom? n resume t) (BadRange t) := by
  induction t generalizing n resume with
  | nil => exact .nothing not_badRange_nil
  | cons c t ih =>
    rw [badRangeFrom?]
    split
    · rename_i hskip
      have hlater : FindsFirst (n + c.utf8Size) (badRangeFrom? (n + c.utf8Size) resume t)
          (BadRange t) := by
        refine ih ht.of_cons fun s hs => ?_
        have hle := hresume _ (badRange_cons_iff.mpr (.inr ⟨s, hs, rfl⟩))
        simp only [Span.shift] at hle
        omega
      refine hlater.behind fun s => badRange_cons_iff.trans (or_iff_right ?_)
      rintro ⟨rfl, hbad⟩
      have hle := hresume s (badRange_cons_iff.mpr (.inl ⟨rfl, hbad⟩))
      obtain ⟨body, behind, -, -, rfl⟩ := hbad
      simp [Span.ofLength] at hle hskip
      omega
    · rename_i hopens
      obtain rfl : c = '[' := Decidable.of_not_not fun hc => hopens (.inr hc)
      obtain ⟨body, behind, hencloses, rfl, hclose⟩ :=
        ht.exists_encloses (rfl : closerOf? '[' = some ']')
      simp only [hclose, before_size_append]
      split
      · rename_i hrange
        have hresume' : ∀ s, BadRange (body ++ ']' :: behind) s →
            n + ('[' : Char).utf8Size + size body + 1 ≤ n + ('[' : Char).utf8Size + s.start := by
          intro s hs
          have hle := hs.start_of_range hrange
          omega
        refine (ih ht.of_cons hresume').behind fun s => badRange_cons_iff.trans (or_iff_right ?_)
        rintro ⟨-, body', behind', hencloses', hbad, -⟩
        rw [(hencloses'.unique hencloses).1, hrange] at hbad
        cases hbad
      · rename_i hrange
        have hbad : BadRange ('[' :: (body ++ ']' :: behind)) (.ofLength 0 (size body + 2)) :=
          badRange_cons_iff.mpr (.inl ⟨rfl, body, behind, hencloses, by simpa using hrange, rfl⟩)
        have hspan : Span.mk n (n + ('[' : Char).utf8Size + size body + 1) =
            .ofLength n (size body + 2) := by
          simp only [Span.ofLength, utf8Size_bracket, Span.mk.injEq, true_and]
          omega
        exact hspan ▸ FindsFirst.here n hbad

/-! ## Rates -/

/-- A rate call, the name of which starts a word, of a group that lacks a time range. The text
stands behind the character `last?`. -/
def BareRate (last? : Option Char) (t : Text) (s : Span) : Prop :=
  ∃ front name rest body behind, t = front ++ (name ++ '(' :: rest) ∧ name ∈ rateNames ∧
    ((front.getLast?.or last?).map isWordChar).getD false = false ∧
    Encloses '(' rest body behind ∧ lacksRange body ∧
    s = .ofLength (size front) (size name + 1 + size body + 1)

/-- The character in front of what is behind `c :: front`. -/
theorem getLast?_cons_or (c : Char) (front : Text) (last? : Option Char) :
    (c :: front).getLast?.or last? = front.getLast?.or (some c) := by
  cases hlast : front.getLast? <;> simp [List.getLast?_cons, hlast]

theorem not_bareRate_nil {last? : Option Char} (s : Span) : ¬ BareRate last? [] s := by
  rintro ⟨front, name, rest, body, behind, h, -⟩
  simp at h

theorem bareRate_cons_iff {last? : Option Char} : BareRate last? (c :: t) s ↔
    ((last?.map isWordChar).getD false = false ∧ ∃ length rest body behind,
      rateCall? (c :: t) = some (length, rest) ∧ Encloses '(' rest body behind ∧ lacksRange body ∧
        s = .ofLength 0 (length + size body + 1)) ∨
      ∃ d, BareRate (some c) t d ∧ s = d.shift c.utf8Size := by
  constructor
  · rintro ⟨front, name, rest, body, behind, h, hname, hword, hencloses, hlacks, rfl⟩
    cases front with
    | nil =>
      have hcall := rateCall?_eq_some_iff.mpr ⟨name, hname, h, rfl⟩
      exact .inl ⟨by simpa using hword, _, rest, body, behind, hcall, hencloses, hlacks, rfl⟩
    | cons e front =>
      obtain ⟨rfl, rfl⟩ := List.cons.inj h
      rw [getLast?_cons_or] at hword
      exact .inr ⟨_, ⟨front, name, rest, body, behind, rfl, hname, hword, hencloses, hlacks, rfl⟩,
        ofLength_size_cons c front _⟩
  · rintro (⟨hword, length, rest, body, behind, hcall, hencloses, hlacks, rfl⟩ |
      ⟨_, ⟨front, name, rest, body, behind, rfl, hname, hword, hencloses, hlacks, rfl⟩, rfl⟩)
    · obtain ⟨name, hname, heq, rfl⟩ := rateCall?_eq_some_iff.mp hcall
      exact ⟨[], name, rest, body, behind, heq, hname, by simpa using hword, hencloses, hlacks, rfl⟩
    · rw [← getLast?_cons_or c front last?] at hword
      exact ⟨c :: front, name, rest, body, behind, rfl, hname, hword, hencloses, hlacks,
        (ofLength_size_cons c front _).symm⟩

theorem finds_bareRateFrom? (ht : Grouped t) (n : Nat) (last? : Option Char) :
    Finds n (bareRateFrom? n last? t) (BareRate last? t) := by
  induction t generalizing n last? with
  | nil => exact .nothing not_bareRate_nil
  | cons c t ih =>
    have hlater := ih ht.of_cons (n + c.utf8Size) (some c)
    rw [bareRateFrom?]
    split
    · rename_i hword
      refine hlater.behind fun s => bareRate_cons_iff.trans (or_iff_right ?_)
      rintro ⟨hno, -⟩
      rw [hword] at hno
      cases hno
    · rename_i hword
      cases hcall : rateCall? (c :: t) with
      | none =>
        refine hlater.behind fun s => bareRate_cons_iff.trans (or_iff_right ?_)
        rintro ⟨-, length, rest, body, behind, hcalls, -⟩
        rw [hcall] at hcalls
        cases hcalls
      | some call =>
        obtain ⟨length, inner⟩ := call
        obtain ⟨name, -, hname, -⟩ := rateCall?_eq_some_iff.mp hcall
        obtain ⟨body, behind, hencloses, hinner, hclose⟩ :=
          (hname ▸ ht : Grouped (name ++ '(' :: inner)).of_append.exists_encloses
            (rfl : closerOf? '(' = some ')')
        have hbody : before inner (size body) = body := by rw [hinner, before_size_append]
        simp only [hclose, hbody]
        split
        · rename_i hlacks
          have hbare : BareRate last? (c :: t) (.ofLength 0 (length + size body + 1)) :=
            bareRate_cons_iff.mpr (.inl ⟨by simpa using hword, length, inner, body, behind, hcall,
              hencloses, hlacks, rfl⟩)
          have hspan : Span.mk n (n + length + size body + 1) =
              .ofLength n (length + size body + 1) := by
            simp only [Span.ofLength, Nat.add_assoc]
          exact hspan ▸ Finds.here n hbare
        · rename_i hlacks
          refine hlater.behind fun s => bareRate_cons_iff.trans (or_iff_right ?_)
          rintro ⟨-, length', rest, body', behind', hcalls, hencloses', hlacks', -⟩
          rw [hcall] at hcalls
          obtain ⟨-, rfl⟩ := Prod.mk.inj (Option.some.inj hcalls)
          rw [(hencloses'.unique hencloses).1] at hlacks'
          exact hlacks hlacks'

/-! ## Aggregations -/

/-- Whether a text starts with a group of parentheses that holds more than blanks. -/
def HasBody (t : Text) : Prop :=
  ∃ rest body behind, t = '(' :: rest ∧ Encloses '(' rest body behind ∧ isAllBlank body = false

/-- Whether a text starts with such a group, or has one behind a grouping clause, the labels of
which are a group as well. -/
def HasCallBody (t : Text) : Prop :=
  match dropGrouping? t with
  | none => HasBody t
  | some clause => ∃ rest labels behind, trimStart clause = '(' :: rest ∧
      Encloses '(' rest labels behind ∧ HasBody (trimStart behind)

/-- An aggregation keyword that lacks its body and is not read as a label. -/
def BareAggregation (t : Text) (s : Span) : Prop :=
  ∃ front word rest, t = front ++ (word ++ rest) ∧ (size front, word) ∈ words t ∧
    Operator.isAggregation word ∧
    (∀ b ∈ braceBlocks t, ¬ (b.start < size front ∧ size front < b.stop)) ∧
    ((trimStart rest).head?.map followsLabel).getD false = false ∧
    ¬ HasCallBody (trimStart rest) ∧ s = .ofLength (size front) (size word)

theorem hasBody_iff (ht : Grouped t) : hasBody t ↔ HasBody t := by
  constructor
  · intro h
    unfold hasBody at h
    split at h
    · rename_i inner
      obtain ⟨body, behind, hencloses, rfl, hclose⟩ :=
        ht.exists_encloses (rfl : closerOf? '(' = some ')')
      simp only [hclose, before_size_append] at h
      exact ⟨_, body, behind, rfl, hencloses, by simpa using h⟩
    · cases h
  · rintro ⟨rest, body, behind, rfl, hencloses, hblank⟩
    have hclose := hencloses.closeDistance?_eq (rfl : closerOf? '(' = some ')')
    obtain ⟨closer, -, rfl, -⟩ := hencloses
    simp only [hasBody, hclose, before_size_append, hblank]
    rfl

theorem hasCallBody_iff (ht : Grouped t) : hasCallBody t ↔ HasCallBody t := by
  unfold hasCallBody HasCallBody
  cases hclause : dropGrouping? t with
  | none => exact hasBody_iff ht
  | some clause =>
    obtain ⟨keyword, rfl⟩ := dropGrouping?_eq_some hclause
    have hgrouped := ht.of_append.trimStart
    simp only
    generalize trimStart clause = t at hgrouped
    split
    · rename_i inner
      obtain ⟨labels, behind, hencloses, hinner, hclose⟩ :=
        hgrouped.exists_encloses (rfl : closerOf? '(' = some ')')
      have hbehind : Grouped behind := by
        have happend : '(' :: inner = ('(' :: (labels ++ [')'])) ++ behind := by simp [hinner]
        exact (happend ▸ hgrouped).of_append
      have hafter : after inner (size labels + 1) = behind := by
        rw [hinner]
        exact after_append_cons labels ')' behind
      simp only [hclose, hafter]
      rw [hasBody_iff hbehind.trimStart]
      constructor
      · intro hbody
        exact ⟨inner, labels, behind, rfl, hencloses, hbody⟩
      · rintro ⟨rest, labels', behind', heq, hencloses', hbody⟩
        obtain rfl := (List.cons.inj heq).2
        obtain ⟨-, rfl⟩ := hencloses'.unique hencloses
        exact hbody
    · rename_i hno
      constructor
      · intro h
        cases h
      · rintro ⟨rest, labels, behind, rfl, -, -⟩
        exact absurd rfl (hno rest)

/-- What the rule checks of a word, by the text behind it. -/
theorem bareAggregation_iff {front word : Text} (ht : Grouped t)
    (hcut : t = front ++ (word ++ rest)) :
    (Operator.isAggregation word
      && !(braceBlocks t).any (fun b => b.start < size front && size front < b.stop)
      && !((Text.trimStart (after t (size front + size word))).head?.map followsLabel).getD false
      && !hasCallBody (Text.trimStart (after t (size front + size word)))) = true ↔
    Operator.isAggregation word ∧
      (∀ b ∈ braceBlocks t, ¬ (b.start < size front ∧ size front < b.stop)) ∧
      ((Text.trimStart rest).head?.map followsLabel).getD false = false ∧
      ¬ HasCallBody (Text.trimStart rest) := by
  have happend : t = (front ++ word) ++ rest := by rw [hcut, List.append_assoc]
  have hafter : after t (size front + size word) = rest := by
    rw [happend, ← size_append, after_size_append]
  have hgrouped : Grouped (Text.trimStart rest) := (happend ▸ ht).of_append.trimStart
  rw [hafter, ← hasCallBody_iff hgrouped]
  simp [and_assoc]

theorem finds_aggregationExpression (v : Vocabulary) {query : Text} (ht : Grouped query.mask) :
    Finds 0 (aggregationExpression v query) (BareAggregation query.mask) := by
  have hreports : ∀ s, aggregationExpression v query = some s → BareAggregation query.mask s := by
    intro s hs
    obtain ⟨⟨start, word⟩, hword, hs⟩ := List.exists_of_findSome?_eq_some hs
    obtain ⟨front, rest, hcut, rfl, -⟩ := isWord_of_mem_words hword
    dsimp only at hs
    split at hs
    · rename_i hbare
      obtain ⟨hkeyword, hblocks, hlabel, hbody⟩ := (bareAggregation_iff ht hcut).mp hbare
      obtain rfl := Option.some.inj hs
      exact ⟨front, word, rest, hcut, hword, hkeyword, hblocks, hlabel, hbody, rfl⟩
    · cases hs
  constructor
  · constructor
    · rintro hnone _ ⟨front, word, rest, hcut, hword, hkeyword, hblocks, hlabel, hbody, -⟩
      have hno := List.findSome?_eq_none_iff.mp hnone _ hword
      dsimp only at hno
      rw [if_pos ((bareAggregation_iff ht hcut).mpr ⟨hkeyword, hblocks, hlabel, hbody⟩)] at hno
      cases hno
    · intro hno
      exact Option.eq_none_iff_forall_ne_some.mpr fun s hs => hno s (hreports s hs)
  · intro s hs
    exact ⟨s, hreports s hs, rfl⟩

/-! ## The groups of a query -/

/-- On a query whose brackets are nested, who counts one kind of brackets and who keeps a stack of
all kinds find the same partners, and the rules on time ranges, rates and aggregations look into the
groups that these make. -/
structure MatchesGroups (v : Vocabulary) (query : Text) : Prop where
  partner : ∀ front opener rest, query.mask = front ++ opener :: rest → (closerOf? opener).isSome →
    ∃ body behind, Encloses opener rest body behind ∧
      matchingClose? query.mask (size front) = some (size front + 1 + size body) ∧
      ∀ j, ScanPairs query.mask (size front) j ↔ j = size front + 1 + size body
  timeRange : Finds 0 (timeRange v query) (BadRange query.mask)
  rateUsage : Finds 0 (rateUsage v query) (BareRate none query.mask)
  aggregation : Finds 0 (aggregationExpression v query) (BareAggregation query.mask)

theorem matchesGroups {v : Vocabulary} {query : Text} (h : balancedBrackets v query = none) :
    MatchesGroups v query := by
  have hdyck := balancedBrackets_eq_none_iff.mp h
  have ht := (nested_iff.mpr hdyck).grouped
  constructor
  · intro front opener rest hcut hopens
    obtain ⟨body, behind, hencloses⟩ := ht front opener rest hcut hopens
    refine ⟨body, behind, hencloses, hcut ▸ hencloses.matchingClose?_eq front, fun j => ?_⟩
    rw [hcut]
    constructor
    · intro hpairs
      obtain ⟨body', behind', hencloses', rfl⟩ := encloses_of_scanPairs hpairs
      rw [(hencloses.unique hencloses').1]
    · rintro rfl
      refine scanPairs_of_encloses (isSome_openers?_of_append (t := opener :: rest) ?_) hencloses
      rw [← hcut, openers?_eq_nil_iff.mpr hdyck]
      rfl
  · exact (findsFirst_badRangeFrom? ht fun s _ => Nat.zero_le _).toFinds
  · exact finds_bareRateFrom? ht 0 none
  · exact finds_aggregationExpression v ht

/-- A call in a call, brackets of all kinds, and a bracket in a string that is none. -/
theorem matchesGroups_nestedCalls :
    let query : Text := "sum by (job) (rate(up\x7bjob=\"]\"\x7d[5m]))".toList
    balancedBrackets ⟨["up"], []⟩ query = none ∧ MatchesGroups ⟨["up"], []⟩ query ∧
      matchingClose? query.mask 13 = some 35 := by
  dsimp only
  rw [String.toList_ofList]
  have hbalanced : balancedBrackets ⟨["up"], []⟩
      ['s', 'u', 'm', ' ', 'b', 'y', ' ', '(', 'j', 'o', 'b', ')', ' ', '(', 'r', 'a', 't', 'e',
        '(', 'u', 'p', '{', 'j', 'o', 'b', '=', '"', ']', '"', '}', '[', '5', 'm', ']', ')', ')'] =
        none := by
    decide
  exact ⟨hbalanced, matchesGroups hbalanced, by decide⟩

end Rule

end PromqlAssist
