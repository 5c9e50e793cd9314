import Mathlib.Data.List.Basic
import PromqlAssist.Proofs.Context.Opener

/-!
# Contexts and the nesting of brackets

The classifier keeps no stack: it looks for the last grouping clause, the last square bracket and
the last brace, in this order. Held against the stack of the brackets that a text leaves open, it
sees an open clause, range or label block only where the stack has one, and it sees the one that the
stack has if no bracket follows it.
-/

namespace PromqlAssist.Context

open Text

/-- A parenthesis that a grouping keyword opens. -/
structure Opener.GroupedBy (keyword : String) (o : Opener) : Prop where
  bracket_eq : o.bracket = '('
  keyword_mem : keyword ∈ ["by", "without"]
  front_eq : ∃ p blanks, o.front = p ++ (keyword.toList ++ blanks) ∧ startsWord p.getLast? ∧
    isAllBlank blanks

/-- A bracket that has a context of its own. -/
def Opener.IsSpecial (o : Opener) : Prop :=
  o.bracket = '[' ∨ o.bracket = '{' ∨ ∃ keyword, o.GroupedBy keyword

/-- The contexts inside a grouping clause, a time range or a label block. -/
def InBlock : Context → Prop
  | .groupingLabel _ | .timeRange | .comparator _ | .label _ => True
  | _ => False

/-- The contexts inside a label block. -/
def InLabelBlock : Context → Prop
  | .comparator _ | .label _ => True
  | _ => False

variable {t s front behind inner : Text} {stack : List Opener} {o : Opener}
variable {keyword : String} {c opener closer : Char} {last? : Option Char}

/-! ## Grouping keywords -/

theorem clauseOpening?_eq_some (h : clauseOpening? t = some (keyword, inner)) :
    keyword ∈ ["by", "without"] ∧
      ∃ blanks, isAllBlank blanks ∧ t = keyword.toList ++ (blanks ++ '(' :: inner) := by
  obtain ⟨found, hmem, hfound⟩ := List.exists_of_findSome?_eq_some h
  obtain ⟨rest, hrest, hbody⟩ := Option.bind_eq_some_iff.mp hfound
  obtain rfl := dropPart?_eq_some_iff.mp hrest
  split at hbody
  · rename_i body htrim
    obtain ⟨rfl, rfl⟩ := Prod.mk.inj (Option.some.inj hbody)
    have hsplit : rest.takeWhile isBlank ++ trimStart rest = rest :=
      List.takeWhile_append_dropWhile
    rw [htrim] at hsplit
    exact ⟨hmem, rest.takeWhile isBlank, List.all_takeWhile, by rw [hsplit]⟩
  · cases hbody

theorem clauseOpening?_append (hkeyword : keyword ∈ ["by", "without"]) {blanks : Text}
    (hblanks : isAllBlank blanks) (inner : Text) :
    clauseOpening? (keyword.toList ++ (blanks ++ '(' :: inner)) = some (keyword, inner) := by
  have htrim : trimStart (blanks ++ '(' :: inner) = '(' :: inner := by
    rw [trimStart, List.dropWhile_append_of_pos fun c hc => List.all_eq_true.mp hblanks c hc]
    exact trimStart_of_head (by decide) inner
  have hdrop : dropPart? keyword.toList (keyword.toList ++ (blanks ++ '(' :: inner)) =
      some (blanks ++ '(' :: inner) :=
    dropPart?_eq_some_iff.mpr rfl
  simp only [List.mem_cons, List.not_mem_nil, or_false] at hkeyword
  rcases hkeyword with rfl | rfl
  · simp only [clauseOpening?, List.findSome?_cons, hdrop, Option.bind_some, htrim]
  · have hother : dropPart? "by".toList ("without".toList ++ (blanks ++ '(' :: inner)) = none := rfl
    simp only [clauseOpening?, List.findSome?_cons, hother, hdrop, Option.bind_none,
      Option.bind_some, htrim]

theorem trimEnd_keyword (hkeyword : keyword ∈ ["by", "without"]) {blanks : Text} (p : Text)
    (hblanks : isAllBlank blanks) :
    trimEnd (p ++ (keyword.toList ++ blanks)) = p ++ keyword.toList := by
  have hreverse : ∀ c ∈ blanks.reverse, isBlank c := by
    intro c hc
    exact List.all_eq_true.mp hblanks c (List.mem_reverse.mp hc)
  rw [trimEnd, dropTrailing, ← List.append_assoc, List.reverse_append,
    List.dropWhile_append_of_pos hreverse, List.reverse_append]
  simp only [List.mem_cons, List.not_mem_nil, or_false] at hkeyword
  rcases hkeyword with rfl | rfl
  · rw [show "by".toList.reverse = ['y', 'b'] from rfl, List.cons_append,
      List.dropWhile_cons_of_neg (by decide)]
    simp
  · rw [show "without".toList.reverse = ['t', 'u', 'o', 'h', 't', 'i', 'w'] from rfl,
      List.cons_append, List.dropWhile_cons_of_neg (by decide)]
    simp

theorem endsWithWord_iff {word : Text} :
    endsWithWord t word ↔ ∃ front, t = front ++ word ∧ startsWord front.getLast? := by
  rw [endsWithWord]
  constructor
  · intro hends
    split at hends
    · rename_i rest hdrop
      refine ⟨rest.reverse, ?_, by simpa using hends⟩
      rw [← List.reverse_reverse t, dropPart?_eq_some_iff.mp hdrop]
      simp
    · cases hends
  · rintro ⟨front, rfl, hstart⟩
    have hdrop : dropPart? word.reverse (front ++ word).reverse = some front.reverse := by
      rw [dropPart?_eq_some_iff, List.reverse_append]
    rw [hdrop]
    simpa using hstart

theorem Opener.groupedBy_iff : o.GroupedBy keyword ↔
    o.bracket = '(' ∧ keyword ∈ ["by", "without"] ∧
      endsWithWord (trimEnd o.front) keyword.toList := by
  rw [endsWithWord_iff]
  constructor
  · rintro ⟨hbracket, hkeyword, p, blanks, hfront, hstart, hblanks⟩
    refine ⟨hbracket, hkeyword, p, ?_, hstart⟩
    rw [hfront, trimEnd_keyword hkeyword p hblanks]
  · rintro ⟨hbracket, hkeyword, p, htrim, hstart⟩
    have hblanks : isAllBlank (trailing isBlank o.front) := by
      rw [isAllBlank, trailing, List.all_reverse]
      exact List.all_takeWhile
    refine ⟨hbracket, hkeyword, p, trailing isBlank o.front, ?_, hstart, hblanks⟩
    rw [← List.append_assoc, ← htrim]
    exact (dropTrailing_append_trailing isBlank o.front).symm

instance (keyword : String) (o : Opener) : Decidable (o.GroupedBy keyword) :=
  decidable_of_iff _ Opener.groupedBy_iff.symm

instance (o : Opener) : Decidable o.IsSpecial :=
  decidable_of_iff
    (o.bracket = '[' ∨ o.bracket = '{' ∨ ∃ keyword ∈ ["by", "without"], o.GroupedBy keyword) <| by
    constructor
    · rintro (h | h | ⟨keyword, -, h⟩)
      · exact .inl h
      · exact .inr (.inl h)
      · exact .inr (.inr ⟨keyword, h⟩)
    · rintro (h | h | ⟨keyword, h⟩)
      · exact .inl h
      · exact .inr (.inl h)
      · exact .inr (.inr ⟨keyword, h.keyword_mem, h⟩)

/-- A clause has one keyword. -/
theorem Opener.GroupedBy.keyword_eq {keyword' : String} (h : o.GroupedBy keyword)
    (h' : o.GroupedBy keyword') : keyword = keyword' := by
  obtain ⟨-, hmem, p, blanks, hfront, -, hblanks⟩ := h
  obtain ⟨-, hmem', p', blanks', hfront', -, hblanks'⟩ := h'
  have heq : p ++ keyword.toList = p' ++ keyword'.toList := by
    rw [← trimEnd_keyword hmem p hblanks, ← hfront, hfront', trimEnd_keyword hmem' p' hblanks']
  have hlast := congrArg List.getLast? heq
  simp only [List.mem_cons, List.not_mem_nil, or_false] at hmem hmem'
  rcases hmem with rfl | rfl <;> rcases hmem' with rfl | rfl
  · rfl
  · simp at hlast
  · simp at hlast
  · rfl

/-! ## What the classifier looks for -/

/-- The clause that the classifier takes is one, with its keyword and its parenthesis. -/
theorem lastClause?_eq_some (h : lastClause? last? t = some (keyword, inner)) :
    keyword ∈ ["by", "without"] ∧ ∃ p blanks : Text, isAllBlank blanks ∧
      t = p ++ (keyword.toList ++ (blanks ++ '(' :: inner)) ∧
      startsWord (p.getLast?.or last?) := by
  induction t generalizing last? with
  | nil => cases h
  | cons c t ih =>
    rw [lastClause?] at h
    cases hlater : lastClause? (some c) t with
    | some later =>
      rw [hlater] at h
      obtain rfl := Option.some.inj h
      obtain ⟨hkeyword, p, blanks, hblanks, rfl, hstart⟩ := ih hlater
      refine ⟨hkeyword, c :: p, blanks, hblanks, rfl, ?_⟩
      cases p with
      | nil => exact hstart
      | cons d p => exact hstart
    | none =>
      rw [hlater, Option.orElse_none] at h
      split at h
      · rename_i hstart
        obtain ⟨hkeyword, blanks, hblanks, ht⟩ := clauseOpening?_eq_some h
        exact ⟨hkeyword, [], blanks, hblanks, ht, hstart⟩
      · cases h

/-- Where a clause starts, the classifier takes it or one that starts later. -/
theorem exists_lastClause? {p : Text} (hclause : (clauseOpening? s).isSome)
    (hstart : startsWord (p.getLast?.or last?)) :
    ∃ keyword inner front, lastClause? last? (p ++ s) = some (keyword, inner) ∧
      s = front ++ '(' :: inner := by
  induction p generalizing last? with
  | nil =>
    cases s with
    | nil => cases hclause
    | cons c s =>
      rw [List.nil_append, lastClause?]
      cases hlater : lastClause? (some c) s with
      | some later =>
        obtain ⟨keyword, inner⟩ := later
        obtain ⟨-, p, blanks, -, rfl, -⟩ := lastClause?_eq_some hlater
        exact ⟨keyword, inner, c :: (p ++ (keyword.toList ++ blanks)), rfl, by simp⟩
      | none =>
        have hword : startsWord last? := hstart
        obtain ⟨⟨keyword, inner⟩, hfound⟩ := Option.isSome_iff_exists.mp hclause
        obtain ⟨-, blanks, -, hsplit⟩ := clauseOpening?_eq_some hfound
        refine ⟨keyword, inner, keyword.toList ++ blanks, ?_, by rw [hsplit, List.append_assoc]⟩
        rw [Option.orElse_none, if_pos hword, hfound]
  | cons d p ih =>
    have hlast : startsWord (p.getLast?.or (some d)) := by
      cases p with
      | nil => exact hstart
      | cons e p => exact hstart
    obtain ⟨keyword, inner, front, hfound, hs⟩ := ih hlast
    refine ⟨keyword, inner, front, ?_, hs⟩
    rw [List.cons_append, lastClause?, hfound]
    rfl

theorem groupedBy_of_lastClause? (h : lastClause? none t = some (keyword, inner)) :
    ∃ front, t = front ++ '(' :: inner ∧ (⟨'(', front⟩ : Opener).GroupedBy keyword := by
  obtain ⟨hkeyword, p, blanks, hblanks, ht, hstart⟩ := lastClause?_eq_some h
  rw [Option.or_none] at hstart
  refine ⟨p ++ (keyword.toList ++ blanks), ?_, rfl, hkeyword, p, blanks, rfl, hstart, hblanks⟩
  rw [ht]
  simp

/-- The classifier sees an open clause only if the stack has one. -/
theorem openClause?_eq_none (h : openers? t = some stack)
    (hnone : ∀ o ∈ stack, ∀ keyword, ¬ o.GroupedBy keyword) : openClause? t = none := by
  rw [openClause?]
  cases hclause : lastClause? none t with
  | none => rfl
  | some found =>
    obtain ⟨keyword, inner⟩ := found
    obtain ⟨front, rfl, hgroup⟩ := groupedBy_of_lastClause? hclause
    have hcloser : closerOf? '(' = some ')' := rfl
    obtain hmem | ⟨-, hcloses⟩ := mem_openers_or_closes hcloser h
    · exact absurd hgroup (hnone _ hmem keyword)
    · simp [hcloses rfl]

theorem staysInside_of_flat (h : ∀ c ∈ t, isBracket c = false) (depth : Nat) :
    staysInside depth t := by
  induction t with
  | nil => cases depth <;> rfl
  | cons c t ih =>
    rw [staysInside_of_not_bracket (h c List.mem_cons_self)]
    exact ih fun d hd => h d (List.mem_cons_of_mem c hd)

/-- The classifier sees the clause that no bracket follows. -/
theorem openClause?_eq_some (h : (⟨'(', front⟩ : Opener).GroupedBy keyword)
    (hflat : ∀ c ∈ behind, isBracket c = false) :
    openClause? (front ++ '(' :: behind) = some keyword := by
  have hbehind : '(' ∉ behind := fun hmem => by cases hflat _ hmem
  obtain ⟨-, hkeyword, p, blanks, hfront, hstart, hblanks⟩ := id h
  have hlead : '(' ∉ keyword.toList ++ blanks := by
    rw [List.mem_append, not_or]
    constructor
    · simp only [List.mem_cons, List.not_mem_nil, or_false] at hkeyword
      rcases hkeyword with rfl | rfl <;> decide
    · intro hmem
      cases List.all_eq_true.mp hblanks _ hmem
  have hopens : (clauseOpening? (keyword.toList ++ (blanks ++ '(' :: behind))).isSome := by
    rw [clauseOpening?_append hkeyword hblanks]
    rfl
  rw [← p.getLast?.or_none] at hstart
  obtain ⟨keyword', inner, lead, hlast, hcut⟩ := exists_lastClause? hopens hstart
  -- The clause that is taken may start later, but its parenthesis is the only one there is.
  rw [← List.append_assoc] at hcut
  obtain ⟨-, -, rfl⟩ := (List.append_cons_inj_of_notMem hlead hbehind).mp hcut
  have ht : front ++ '(' :: behind = p ++ (keyword.toList ++ (blanks ++ '(' :: behind)) := by
    simp [show front = p ++ (keyword.toList ++ blanks) from hfront]
  rw [← ht] at hlast
  obtain ⟨front', hfront', hgroup⟩ := groupedBy_of_lastClause? hlast
  obtain rfl := List.append_cancel_right hfront'
  rw [openClause?, hlast, h.keyword_eq hgroup]
  simp [staysInside_of_flat hflat]

/-- The classifier sees an open bracket of a kind only if the stack has one. -/
theorem openBlock?_eq_none (hcloser : closerOf? opener = some closer) (h : openers? t = some stack)
    (hnone : ∀ o ∈ stack, o.bracket ≠ opener) : openBlock? opener closer t = none := by
  rw [openBlock?]
  cases hlast : afterLast? opener t with
  | none => rfl
  | some block =>
    obtain ⟨front, rfl⟩ := afterLast?_eq_some hlast
    obtain hmem | ⟨hmem, -⟩ := mem_openers_or_closes hcloser h
    · exact absurd rfl (hnone _ hmem)
    · simp [hmem]

/-- The classifier sees the bracket that no bracket follows. -/
theorem openBlock?_eq_some (hopener : isBracket opener) (hcloser : isBracket closer)
    (hflat : ∀ c ∈ behind, isBracket c = false) (front : Text) :
    openBlock? opener closer (front ++ opener :: behind) = some behind := by
  have hnot : ∀ {c : Char}, isBracket c → c ∉ behind := by
    intro c hc hmem
    rw [hflat c hmem] at hc
    cases hc
  rw [openBlock?, afterLast?_append (hnot hopener)]
  simp [hnot hcloser]

/-! ## The context -/

theorem InLabelBlock.inBlock {context : Context} (h : InLabelBlock context) : InBlock context := by
  cases context <;> trivial

/-- What the context inside an open bracket is. -/
structure Opener.Gives (o : Opener) (context : Context) : Prop where
  range : o.bracket = '[' → context = .timeRange
  block : o.bracket = '{' → (∃ name, context = .comparator name) ∨
    ∃ metric?, context = .label metric?
  clause : ∀ keyword, o.GroupedBy keyword → context = .groupingLabel keyword

theorem classify_size (v : Vocabulary) (t : Text) : classify v t t.size = ofPrefix v t := by
  have hbefore := before_size_append t []
  rw [List.append_nil] at hbefore
  rw [classify, hbefore]

theorem ofLabelBlock_cases (v : Vocabulary) (t block : Text) :
    (∃ name, ofLabelBlock v t block = .comparator name) ∨
      ∃ metric?, ofLabelBlock v t block = .label metric? := by
  unfold ofLabelBlock
  split
  · exact .inl ⟨_, rfl⟩
  · exact .inr ⟨_, rfl⟩

theorem not_inBlock_ofPrefix (v : Vocabulary) (hclause : openClause? t = none)
    (hrange : openBlock? '[' ']' t = none) (hblock : openBlock? '{' '}' t = none) :
    ¬ InBlock (ofPrefix v t) := by
  unfold ofPrefix
  simp only [hclause, hrange, hblock, Option.isSome_none, Bool.false_eq_true, if_false]
  split
  · exact id
  split
  · exact id
  split
  · exact id
  split
  · exact id
  · exact id

/-- Clauses are looked for first, then ranges, then label blocks, and the rules behind them give none
of these contexts. -/
theorem ofPrefix_cases (v : Vocabulary) (t : Text) :
    (∃ keyword, openClause? t = some keyword ∧ ofPrefix v t = .groupingLabel keyword) ∨
    (openClause? t = none ∧ (openBlock? '[' ']' t).isSome ∧ ofPrefix v t = .timeRange) ∨
    (openClause? t = none ∧ openBlock? '[' ']' t = none ∧ (openBlock? '{' '}' t).isSome ∧
      InLabelBlock (ofPrefix v t)) ∨
    (openClause? t = none ∧ openBlock? '[' ']' t = none ∧ openBlock? '{' '}' t = none ∧
      ¬ InBlock (ofPrefix v t)) := by
  cases hclause : openClause? t with
  | some keyword => exact .inl ⟨keyword, rfl, by simp only [ofPrefix, hclause]⟩
  | none =>
    right
    cases hrange : openBlock? '[' ']' t with
    | some inner =>
      exact .inl ⟨rfl, rfl, by simp only [ofPrefix, hclause, hrange, Option.isSome_some, if_true]⟩
    | none =>
      right
      cases hblock : openBlock? '{' '}' t with
      | none => exact .inr ⟨rfl, rfl, rfl, not_inBlock_ofPrefix v hclause hrange hblock⟩
      | some block =>
        have hcontext : ofPrefix v t = ofLabelBlock v t block := by
          simp only [ofPrefix, hclause, hrange, hblock, Option.isSome_none, Bool.false_eq_true,
            if_false]
        refine .inl ⟨rfl, rfl, rfl, ?_⟩
        rw [hcontext]
        obtain ⟨name, hname⟩ | ⟨metric?, hmetric⟩ := ofLabelBlock_cases v t block
        · rw [hname]
          trivial
        · rw [hmetric]
          trivial

/-- Outside clauses, ranges and label blocks the other rules decide. -/
theorem ofPrefix_of_not_inBlock {v : Vocabulary} (h : ¬ InBlock (ofPrefix v t)) : ofPrefix v t =
    if endsWithAggregation t then .groupingAndBinary
    else if let some aggregation := trailingAggregation? t then .groupingOperator aggregation
    else if (trimEnd t).getLast? = some '}' || (trimEnd t).getLast? = some ')' then .binaryOperator
    else if let some scope := expressionScope? t then .functionOrMetric scope
    else .any := by
  obtain ⟨keyword, -, hcontext⟩ | ⟨-, -, hcontext⟩ | ⟨-, -, -, hcontext⟩ |
    ⟨hclause, hrange, hblock, -⟩ := ofPrefix_cases v t
  · exact absurd (hcontext ▸ trivial) h
  · exact absurd (hcontext ▸ trivial) h
  · exact absurd hcontext.inBlock h
  · rw [ofPrefix, hclause, hrange, hblock]
    rfl

/-- The classifier agrees with the stack of open brackets. Where none of them has a context of its
own, the cursor is in no clause, range or block. Where one alone has and no bracket follows it, the
cursor has the context of this one. -/
theorem classify_of_nesting (v : Vocabulary) (h : openers? t = some stack) :
    ((∀ o ∈ stack, ¬ o.IsSpecial) → ¬ InBlock (classify v t t.size)) ∧
      ∀ o behind, (∀ o' ∈ stack, o'.IsSpecial ↔ o' = o) → o ∈ stack →
        t = o.front ++ o.bracket :: behind → (∀ c ∈ behind, isBracket c = false) →
        o.Gives (classify v t t.size) := by
  rw [classify_size]
  constructor
  · intro hnone
    apply not_inBlock_ofPrefix
    · exact openClause?_eq_none h fun o ho keyword hgroup => hnone o ho (.inr (.inr ⟨_, hgroup⟩))
    · exact openBlock?_eq_none rfl h fun o ho heq => hnone o ho (.inl heq)
    · exact openBlock?_eq_none rfl h fun o ho heq => hnone o ho (.inr (.inl heq))
  · intro o behind honly ho ht hflat
    have hclause : o.bracket ≠ '(' → openClause? t = none := by
      intro hne
      apply openClause?_eq_none h
      intro o' ho' keyword hgroup
      obtain rfl := (honly o' ho').mp (.inr (.inr ⟨keyword, hgroup⟩))
      exact hne hgroup.bracket_eq
    constructor
    · intro hbracket
      rw [hbracket] at ht
      rw [ofPrefix, hclause (by rw [hbracket]; decide), ht, openBlock?_eq_some rfl rfl hflat]
      rfl
    · intro hbracket
      have hrange : openBlock? '[' ']' t = none := by
        apply openBlock?_eq_none rfl h
        intro o' ho' heq
        obtain rfl := (honly o' ho').mp (.inl heq)
        rw [hbracket] at heq
        cases heq
      have hblock : openBlock? '{' '}' t = some behind := by
        rw [ht, hbracket]
        exact openBlock?_eq_some rfl rfl hflat o.front
      have heq : ofPrefix v t = ofLabelBlock v t behind := by
        rw [ofPrefix, hclause (by rw [hbracket]; decide), hrange, hblock]
        rfl
      rw [heq]
      exact ofLabelBlock_cases v t behind
    · intro keyword hgroup
      obtain ⟨bracket, front⟩ := o
      obtain rfl : bracket = '(' := hgroup.bracket_eq
      rw [ofPrefix, ht, openClause?_eq_some hgroup hflat]

/-- An open clause inside a call, behind a closed clause and a closed range. -/
theorem classify_of_nesting_clause :
    openers? "by (a) (m[5m]) / f(sum without (é".toList =
        some [⟨'(', "by (a) (m[5m]) / f(sum without ".toList⟩, ⟨'(', "by (a) (m[5m]) / f".toList⟩] ∧
      classify .empty "by (a) (m[5m]) / f(sum without (é".toList
        (size "by (a) (m[5m]) / f(sum without (é".toList) = .groupingLabel "without" ∧
      openers? "by (a) (m[5m]) / f(x".toList = some [⟨'(', "by (a) (m[5m]) / f".toList⟩] ∧
      ¬ InBlock (classify .empty "by (a) (m[5m]) / f(x".toList
        (size "by (a) (m[5m]) / f(x".toList)) := by
  have hclause : openers? "by (a) (m[5m]) / f(sum without (é".toList =
      some [⟨'(', "by (a) (m[5m]) / f(sum without ".toList⟩,
        ⟨'(', "by (a) (m[5m]) / f".toList⟩] := by decide +kernel
  have hcall : openers? "by (a) (m[5m]) / f(x".toList =
      some [⟨'(', "by (a) (m[5m]) / f".toList⟩] := by decide +kernel
  obtain ⟨-, hgives⟩ := classify_of_nesting .empty hclause
  obtain ⟨hnone, -⟩ := classify_of_nesting .empty hcall
  have hinner := hgives ⟨'(', "by (a) (m[5m]) / f(sum without ".toList⟩ ['é'] (by decide +kernel)
    (by decide) (by decide) (by decide)
  exact ⟨hclause, hinner.clause "without" (by decide +kernel), hcall, hnone (by decide +kernel)⟩

end PromqlAssist.Context
