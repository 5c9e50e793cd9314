import PromqlAssist.Proofs.Text.Bracket
import PromqlAssist.Proofs.Text.CharClass
import PromqlAssist.Proofs.Text.Word

/-!
# Calls word by word

The rules on calls look at each word and at what stands behind it. So a piece that is right in front
of some text may be wrong in front of another, and a text is taken apart from its end.
-/

namespace PromqlAssist.Rule

open Text

/-- The names of the functions that need a time range. -/
def rateNames : List Text :=
  ["irate".toList, "rate".toList]

/-- What the rules on calls ask of a word and the text behind it. The character in front of the word
is `last?`. -/
structure CallFits (last? : Option Char) (word behind : Text) : Prop where
  aggregation : (last?.map isIdent).getD false = false → Operator.isAggregation word →
    ((trimStart behind).head?.map followsLabel).getD false ∨ hasCallBody (trimStart behind)
  rate : (last?.map isWordChar).getD false = false → word ∈ rateNames →
    ∀ inner, behind = '(' :: inner →
      ∃ n, closeDistance? '(' ')' 1 inner = some n ∧ lacksRange (before inner n) = false

/-- Whether all that the rules on calls look at is as they ask. -/
def Calls (last? : Option Char) : Text → Prop
  | [] => True
  | c :: t =>
    CallFits last? ((c :: t).takeWhile isIdent) ((c :: t).dropWhile isIdent) ∧ Calls (some c) t

variable {last? : Option Char} {c : Char} {s t w : Text}

theorem CallFits.mono {word behind : Text} (h : CallFits none word behind) :
    CallFits last? word behind where
  aggregation := fun _ => h.aggregation rfl
  rate := fun _ => h.rate rfl

theorem rateCall?_eq_some {n : Nat} {inner : Text} (h : rateCall? t = some (n, inner)) :
    t.takeWhile isIdent ∈ rateNames ∧ t.dropWhile isIdent = '(' :: inner := by
  obtain ⟨name, hname, hcall⟩ := List.exists_of_findSome?_eq_some h
  obtain ⟨rest, hdrop, heq⟩ := Option.map_eq_some_iff.mp hcall
  obtain rfl : rest = inner := congrArg Prod.snd heq
  have hbehind : NoWord ('(' :: rest) := NoWord.cons (by decide) rest
  rcases List.mem_cons.mp hname with rfl | hname
  · have ht : t = "irate(".toList ++ rest := dropPart?_eq_some_iff.mp hdrop
    have hsplit : "irate(".toList = "irate".toList ++ ['('] := by decide
    have hident : ∀ c ∈ "irate".toList, isIdent c := by decide
    rw [ht, hsplit, List.append_assoc, List.singleton_append, takeWhile_word hident hbehind,
      dropWhile_word hident hbehind]
    exact ⟨by decide, rfl⟩
  · obtain rfl := List.mem_singleton.mp hname
    have ht : t = "rate(".toList ++ rest := dropPart?_eq_some_iff.mp hdrop
    have hsplit : "rate(".toList = "rate".toList ++ ['('] := by decide
    have hident : ∀ c ∈ "rate".toList, isIdent c := by decide
    rw [ht, hsplit, List.append_assoc, List.singleton_append, takeWhile_word hident hbehind,
      dropWhile_word hident hbehind]
    exact ⟨by decide, rfl⟩

theorem rateCall?_eq_some_iff {length : Nat} {inner : Text} :
    rateCall? t = some (length, inner) ↔
      ∃ name ∈ rateNames, t = name ++ '(' :: inner ∧ length = size name + 1 := by
  have happend : ∀ name ∈ rateNames, ∀ inner : Text,
      rateCall? (name ++ '(' :: inner) = some (size name + 1, inner) := by
    intro name hname inner
    simp only [rateNames, List.mem_cons, List.not_mem_nil, or_false] at hname
    rcases hname with rfl | rfl <;> rfl
  constructor
  · intro h
    obtain ⟨hname, hinner⟩ := rateCall?_eq_some h
    have ht := List.takeWhile_append_dropWhile (p := isIdent) (l := t)
    rw [hinner] at ht
    have hcall := happend _ hname inner
    rw [ht, h] at hcall
    exact ⟨_, hname, ht.symm, (Prod.mk.inj (Option.some.inj hcall)).1⟩
  · rintro ⟨name, hname, rfl, rfl⟩
    exact happend name hname inner

theorem dropGrouping?_eq_some {clause : Text} (h : dropGrouping? t = some clause) :
    ∃ keyword, t = keyword ++ clause := by
  obtain ⟨keyword, -, h⟩ := List.exists_of_findSome?_eq_some h
  obtain ⟨rest, hdrop, h⟩ := Option.bind_eq_some_iff.mp h
  split at h
  · cases h
  · obtain rfl := Option.some.inj h
    exact ⟨keyword.toList, dropPart?_eq_some_iff.mp hdrop⟩

section Body

variable {body : Text}

/-- A parenthesis around a body that starts with no blank. -/
theorem hasBody_append (hlevel : Level body) (hc : isBlank c = false) (hbody : c ∈ body.head?)
    (t : Text) : hasBody ('(' :: (body ++ ')' :: t)) := by
  have hblank : isAllBlank body = false := by
    rw [isAllBlank, List.all_eq_false]
    exact ⟨c, List.mem_of_mem_head? hbody, by simp [hc]⟩
  simp only [hasBody, hlevel.closeDistance?_eq, before_size_append, hblank]
  rfl

theorem hasCallBody_append (hlevel : Level body) (hc : isBlank c = false) (hbody : c ∈ body.head?)
    (t : Text) : hasCallBody ('(' :: (body ++ ')' :: t)) :=
  hasBody_append hlevel hc hbody t

/-- A grouping clause in front of the body of an aggregation. -/
theorem hasCallBody_clause {keyword : Operator} {labels : Text}
    (hkeyword : keyword ∈ Operator.groupings) (hlabels : Level labels) (hlevel : Level body)
    (hc : isBlank c = false) (hbody : c ∈ body.head?) (t : Text) :
    hasCallBody (keyword.token.toList ++ ' ' :: '(' :: (labels ++ ')' :: ' ' :: '(' ::
      (body ++ ')' :: t))) := by
  have hgrouping : ∀ u : Text,
      dropGrouping? (keyword.token.toList ++ ' ' :: u) = some (' ' :: u) := by
    intro u
    simp only [Operator.groupings, List.mem_cons, List.not_mem_nil, or_false] at hkeyword
    rcases hkeyword with rfl | rfl
    · rfl
    · rfl
  have hafter : ∀ u : Text, after (labels ++ ')' :: u) (size labels + 1) = u :=
    after_append_cons labels ')'
  simp only [hasCallBody, hgrouping]
  rw [trimStart_blank (c := ' ') (by decide), trimStart_of_head (c := '(') (by decide)]
  simp only [hlabels.closeDistance?_eq, hafter]
  rw [trimStart_blank (c := ' ') (by decide), trimStart_of_head (c := '(') (by decide)]
  exact hasBody_append hlevel hc hbody t

/-- A call of a function of rates, with a time range among its arguments. -/
theorem callFits_range (hlevel : Level body) (hbody : '[' ∈ body)
    (hkeyword : Operator.isAggregation w = false) (t : Text) :
    CallFits none w ('(' :: (body ++ ')' :: t)) := by
  refine ⟨fun _ hw => ?_, fun _ _ inner hinner => ?_⟩
  · rw [hkeyword] at hw
    cases hw
  · obtain rfl : body ++ ')' :: t = inner := (List.cons.inj hinner).2
    refine ⟨size body, hlevel.closeDistance?_eq t, ?_⟩
    rw [before_size_append, lacksRange]
    simp [hbody]

end Body

theorem isAggregation_of_isDigit (hc : c.isDigit) (t : Text) :
    Operator.isAggregation (c :: t) = false := by
  have keywords : ∀ name ∈ Operator.aggregationNames, ∀ d ∈ name.toList, d.isDigit = false := by
    decide
  rw [Operator.isAggregation, List.any_eq_false]
  intro name hname heq
  have hfirst := keywords name hname c (by simp [of_decide_eq_true heq])
  rw [hc] at hfirst
  cases hfirst

namespace Calls

theorem mono (h : Calls none t) : Calls last? t := by
  cases t with
  | nil => trivial
  | cons c t => exact ⟨h.1.mono, h.2⟩

/-- Nothing is asked of a character outside words. -/
theorem symbol (hc : isIdent c = false) (h : Calls none t) : Calls none (c :: t) := by
  refine ⟨?_, h.mono⟩
  rw [List.takeWhile_cons_of_neg (by simp [hc])]
  refine ⟨fun _ hword => ?_, fun _ hword => ?_⟩
  · exact absurd hword (by decide)
  · exact absurd hword (by decide)

theorem symbols (hs : ∀ c ∈ s, isIdent c = false) (h : Calls none t) : Calls none (s ++ t) := by
  induction s with
  | nil => exact h
  | cons c s ih => exact symbol (hs c (by simp)) (ih fun d hd => hs d (by simp [hd]))

/-- Inside a word only a call of a function may be found, and only behind a colon. -/
theorem inside (hc : isIdent c) (hw : ∀ d ∈ w, isIdent d) (ht : NoWord t)
    (hcall : '(' ∈ t.head? → ∀ d ∈ c :: w, isWordChar d) (h : Calls none t) :
    Calls (some c) (w ++ t) := by
  induction w generalizing c with
  | nil => exact h.mono
  | cons d w ih =>
    refine ⟨⟨fun hlast => ?_, fun hlast _ inner hinner => ?_⟩, ?_⟩
    · simp [hc] at hlast
    · change ((d :: w) ++ t).dropWhile isIdent = _ at hinner
      rw [dropWhile_word hw ht] at hinner
      have hlast' : isWordChar c := hcall (by rw [hinner]; rfl) c (by simp)
      simp [hlast'] at hlast
    · refine ih (hw d (by simp)) (fun e he => hw e (by simp [he])) ?_
      intro hopen e he
      exact hcall hopen e (List.mem_cons_of_mem c he)

/-- A word is right in front of a text that fits it. -/
theorem word (hw : ∀ d ∈ w, isIdent d) (ht : NoWord t) (hfits : CallFits none w t)
    (hcall : '(' ∈ t.head? → ∀ d ∈ w, isWordChar d) (h : Calls none t) : Calls none (w ++ t) := by
  cases w with
  | nil => exact h
  | cons c w =>
    refine ⟨?_, inside (hw c (by simp)) (fun d hd => hw d (by simp [hd])) ht hcall h⟩
    change CallFits none (((c :: w) ++ t).takeWhile isIdent) (((c :: w) ++ t).dropWhile isIdent)
    rwa [takeWhile_word hw ht, dropWhile_word hw ht]

/-- A word that a parenthesis follows. -/
theorem call (hw : ∀ d ∈ w, isIdent d) (hchars : ∀ d ∈ w, isWordChar d)
    (hfits : CallFits none w ('(' :: t)) (h : Calls none t) : Calls none (w ++ '(' :: t) := by
  refine word hw (NoWord.cons (by decide) t) hfits (fun _ => hchars) ?_
  exact symbol (by decide) h

theorem fits (h : Calls last? (s ++ t)) (ht : t ≠ []) :
    CallFits (s.getLast?.or last?) (t.takeWhile isIdent) (t.dropWhile isIdent) := by
  induction s generalizing last? with
  | nil =>
    obtain ⟨c, t, rfl⟩ := List.exists_cons_of_ne_nil ht
    exact h.1
  | cons c s ih =>
    have hlast : (c :: s).getLast?.or last? = s.getLast?.or (some c) := by
      rw [List.getLast?_cons]
      cases s.getLast? <;> rfl
    rw [hlast]
    exact ih h.2

theorem aggregationExpression_eq_none {query : Text} (h : Calls none (mask query))
    (v : Vocabulary) : aggregationExpression v query = none := by
  rw [aggregationExpression, List.findSome?_eq_none_iff]
  rintro ⟨start, word⟩ hmem
  obtain ⟨p, s, hmask, rfl, hp, hword, hne, hs⟩ := isWord_of_mem_words hmem
  have hafter : after (mask query) (size p + size word) = s := by
    rw [hmask, after_append, after_size_append]
  rw [hmask] at h
  have hfits := h.fits (by simp [hne])
  rw [takeWhile_word hword hs, dropWhile_word hword hs, Option.or_none] at hfits
  have hlast : (p.getLast?.map isIdent).getD false = false := by
    cases hp' : p.getLast? with
    | none => rfl
    | some c => exact hp c hp'
  apply if_neg
  intro hdefect
  simp only [hafter, Bool.and_eq_true, Bool.not_eq_true'] at hdefect
  rcases hfits.aggregation hlast hdefect.1.1.1 with hlabel | hbody
  · rw [hlabel] at hdefect
    exact absurd hdefect.1.2 (by decide)
  · rw [hbody] at hdefect
    exact absurd hdefect.2 (by decide)

theorem bareRateFrom?_eq_none (h : Calls last? t) (n : Nat) : bareRateFrom? n last? t = none := by
  induction t generalizing last? n with
  | nil => rfl
  | cons c t ih =>
    rw [bareRateFrom?, ih h.2]
    split
    · rfl
    · rename_i hlast
      split
      · rfl
      · rename_i length inner hcall
        obtain ⟨hname, hbehind⟩ := rateCall?_eq_some hcall
        obtain ⟨size, hclose, hbody⟩ := h.1.rate (by simpa using hlast) hname inner hbehind
        simp only [hclose, hbody]
        rfl

theorem rateUsage_eq_none {query : Text} (h : Calls none (mask query)) (v : Vocabulary) :
    rateUsage v query = none :=
  h.bareRateFrom?_eq_none 0

end Calls

/-- What may stand behind a word that calls nothing. -/
structure Delimited (t : Text) : Prop where
  noWord : NoWord t
  noCall : '(' ∉ t.head?
  calls : Calls none t

theorem Delimited.nil : Delimited [] where
  noWord := by
    simp [NoWord]
  noCall := by
    simp
  calls := trivial

theorem Delimited.symbol (hc : isIdent c = false) (hopen : c ≠ '(') (h : Calls none t) :
    Delimited (c :: t) where
  noWord := NoWord.cons hc t
  noCall := by
    simpa using hopen
  calls := Calls.symbol hc h

/-- A word that no parenthesis follows is only asked whether it is an aggregation keyword. -/
theorem Calls.name (hw : ∀ d ∈ w, isIdent d) (h : Delimited t)
    (hkeyword : Operator.isAggregation w →
      ((trimStart t).head?.map followsLabel).getD false ∨ hasCallBody (trimStart t)) :
    Calls none (w ++ t) := by
  refine Calls.word hw h.noWord ⟨fun _ => hkeyword, ?_⟩ (fun hopen => absurd hopen h.noCall) h.calls
  rintro - - inner rfl
  exact absurd rfl h.noCall

theorem Calls.plain (hw : ∀ d ∈ w, isIdent d) (hkeyword : Operator.isAggregation w = false)
    (h : Delimited t) : Calls none (w ++ t) := by
  apply Calls.name hw h
  intro hkeyword'
  rw [hkeyword] at hkeyword'
  cases hkeyword'

/-- A word that is read as a label may be an aggregation keyword. -/
theorem Calls.label (hw : ∀ d ∈ w, isIdent d) (hc : followsLabel c) (h : Calls none t) :
    Calls none (w ++ c :: t) := by
  have hclass : isIdent c = false ∧ c ≠ '(' ∧ isBlank c = false := by
    simp only [followsLabel, Bool.or_eq_true, decide_eq_true_eq] at hc
    rcases hc with (((rfl | rfl) | rfl) | rfl) | rfl <;> decide
  obtain ⟨hident, hopen, hblank⟩ := hclass
  refine Calls.name hw (.symbol hident hopen h) (fun _ => .inl ?_)
  rw [trimStart_of_head hblank]
  exact hc

end PromqlAssist.Rule
