import PromqlAssist.Proofs.Context.Scope

/-!
# Contexts that stay open

The last clause and the last bracket decide the context, and what is written at the end of a text
moves them only where it brings an opener of its own. So a context lasts until its closer is
written, if nothing is opened meanwhile that the classifier looks for earlier.
-/

namespace PromqlAssist.Context

open Text

/-- How the context at the end of a text lasts while the text grows. -/
structure PersistenceLaw (vocabulary : Vocabulary) (t : Text) : Prop where
  /-- A grouping clause lasts until a parenthesis is written. -/
  clause : ∀ keyword s, classify vocabulary t t.size = .groupingLabel keyword →
    '(' ∉ s → ')' ∉ s → classify vocabulary (t ++ s) (t ++ s).size = .groupingLabel keyword
  /-- A time range lasts until it is closed or a parenthesis is opened, which may be a clause's. -/
  range : ∀ s, classify vocabulary t t.size = .timeRange →
    ']' ∉ s → '(' ∉ s → classify vocabulary (t ++ s) (t ++ s).size = .timeRange
  /-- A label block lasts until it is closed, or a range or a parenthesis is opened. -/
  block : ∀ s, InLabelBlock (classify vocabulary t t.size) →
    '}' ∉ s → '[' ∉ s → '(' ∉ s → InLabelBlock (classify vocabulary (t ++ s) (t ++ s).size)
  /-- The closer of a time range ends it. -/
  range_closed : classify vocabulary t t.size = .timeRange →
    classify vocabulary (t ++ [']']) (t ++ [']']).size ≠ .timeRange

variable {vocabulary : Vocabulary} {s t front behind : Text} {c opener closer : Char}
variable {last? : Option Char} {keyword : String}

/-! ## Clauses -/

/-- A clause opens with its parenthesis, so a text without one behind it opens none. -/
theorem clauseOpening?_append_of_not_mem (hs : '(' ∉ s) (t : Text) :
    clauseOpening? (t ++ s) = (clauseOpening? t).map fun found => (found.1, found.2 ++ s) := by
  cases hlonger : clauseOpening? (t ++ s) with
  | some found =>
    obtain ⟨keyword, inner⟩ := found
    obtain ⟨hkeyword, blanks, hblanks, hsplit⟩ := clauseOpening?_eq_some hlonger
    rw [← List.append_assoc] at hsplit
    obtain ⟨rest, rfl, rfl⟩ := exists_append_of_not_mem hs hsplit
    rw [List.append_assoc, clauseOpening?_append hkeyword hblanks]
    rfl
  | none =>
    cases hfound : clauseOpening? t with
    | none => rfl
    | some found =>
      obtain ⟨keyword, inner⟩ := found
      obtain ⟨hkeyword, blanks, hblanks, rfl⟩ := clauseOpening?_eq_some hfound
      have hopens := clauseOpening?_append hkeyword hblanks (inner ++ s)
      simp only [List.append_assoc, List.cons_append] at hlonger
      rw [hlonger] at hopens
      cases hopens

theorem lastClause?_eq_none (hs : '(' ∉ s) : lastClause? last? s = none := by
  cases hlast : lastClause? last? s with
  | none => rfl
  | some found =>
    obtain ⟨-, p, blanks, -, rfl, -⟩ := lastClause?_eq_some hlast
    simp at hs

theorem lastClause?_append (hs : '(' ∉ s) (t : Text) :
    lastClause? last? (t ++ s) =
      (lastClause? last? t).map fun found => (found.1, found.2 ++ s) := by
  induction t generalizing last? with
  | nil => exact lastClause?_eq_none hs
  | cons c t ih =>
    rw [List.cons_append, lastClause?, lastClause?, ih, ← List.cons_append,
      clauseOpening?_append_of_not_mem hs]
    cases lastClause? (some c) t with
    | some found => rfl
    | none =>
      split
      · rfl
      · rfl

theorem strayClosers_eq_zero (hs : ')' ∉ s) : strayClosers s = 0 := by
  induction s with
  | nil => rfl
  | cons d s ih =>
    rw [List.mem_cons, not_or] at hs
    have hstray := ih hs.2
    rw [strayClosers, if_neg (Ne.symm hs.1)]
    split
    · omega
    · exact hstray

/-- A closer that is stray in a text has nothing to do with what stands behind the text. -/
theorem strayClosers_append (hs : strayClosers s = 0) (t : Text) :
    strayClosers (t ++ s) = strayClosers t := by
  induction t with
  | nil => exact hs
  | cons d t ih => rw [List.cons_append, strayClosers, strayClosers, ih]

theorem staysInside_append (hs : ')' ∉ s) (depth : Nat) (t : Text) :
    staysInside depth (t ++ s) = staysInside depth t := by
  rw [Bool.eq_iff_iff, staysInside_iff, staysInside_iff,
    strayClosers_append (strayClosers_eq_zero hs)]

/-- What is closed stays closed. -/
theorem staysInside_of_append {depth : Nat} (h : staysInside depth (t ++ s)) :
    staysInside depth t := by
  rw [staysInside_iff, strayClosers_le_iff] at h ⊢
  intro p hp
  exact h p (hp.trans (List.prefix_append t s))

theorem openClause?_append (hopen : '(' ∉ s) (hclose : ')' ∉ s) (t : Text) :
    openClause? (t ++ s) = openClause? t := by
  rw [openClause?, openClause?, lastClause?_append hopen]
  cases lastClause? none t with
  | none => rfl
  | some found => simp only [Option.map_some, Option.bind_some, staysInside_append hclose]

theorem openClause?_append_eq_none (hopen : '(' ∉ s) (h : openClause? t = none) :
    openClause? (t ++ s) = none := by
  rw [openClause?, lastClause?_append hopen]
  rw [openClause?] at h
  cases hlast : lastClause? none t with
  | none => rfl
  | some found =>
    rw [hlast] at h
    have hclosed : ¬ staysInside 0 found.2 := by
      intro hinside
      simp [hinside] at h
    have hstill : ¬ staysInside 0 (found.2 ++ s) := fun hinside =>
      hclosed (staysInside_of_append hinside)
    simp [hstill]

/-! ## Brackets -/

/-- A block is open if some opener has no closer behind it: the last one has none then either. -/
theorem isSome_openBlock?_iff : (openBlock? opener closer t).isSome ↔
    ∃ front behind, t = front ++ opener :: behind ∧ closer ∉ behind := by
  constructor
  · intro hopen
    obtain ⟨block, hblock⟩ := Option.isSome_iff_exists.mp hopen
    obtain ⟨block, hlast, hclosed⟩ := Option.bind_eq_some_iff.mp hblock
    obtain ⟨front, rfl⟩ := afterLast?_eq_some hlast
    refine ⟨front, block, rfl, fun hmem => ?_⟩
    simp [hmem] at hclosed
  · rintro ⟨front, behind, rfl, hclosed⟩
    have hblock : closer ∉ (afterLast? opener behind).getD behind := by
      cases hlast : afterLast? opener behind with
      | none => exact hclosed
      | some block =>
        obtain ⟨lead, rfl⟩ := afterLast?_eq_some hlast
        exact fun hmem => hclosed (by simp [show closer ∈ block from hmem])
    simp [openBlock?, afterLast?_append_cons, hblock]

theorem isSome_openBlock?_append (hs : closer ∉ s) (h : (openBlock? opener closer t).isSome) :
    (openBlock? opener closer (t ++ s)).isSome := by
  obtain ⟨front, behind, rfl, hclosed⟩ := isSome_openBlock?_iff.mp h
  refine isSome_openBlock?_iff.mpr ⟨front, behind ++ s, by simp, ?_⟩
  rw [List.mem_append, not_or]
  exact ⟨hclosed, hs⟩

theorem openBlock?_append_eq_none (hs : opener ∉ s) (h : openBlock? opener closer t = none) :
    openBlock? opener closer (t ++ s) = none := by
  rw [← Option.not_isSome_iff_eq_none, isSome_openBlock?_iff] at h ⊢
  rintro ⟨front, behind, hsplit, hclosed⟩
  obtain ⟨rest, rfl, rfl⟩ := exists_append_of_not_mem hs hsplit
  exact h ⟨front, rest, rfl, fun hmem => hclosed (List.mem_append_left s hmem)⟩

theorem openBlock?_append_closer (hne : opener ≠ closer) (t : Text) :
    openBlock? opener closer (t ++ [closer]) = none := by
  rw [← Option.not_isSome_iff_eq_none, isSome_openBlock?_iff]
  rintro ⟨front, behind, hsplit, hclosed⟩
  have hopener : opener ∉ [closer] := by simpa using hne
  obtain ⟨rest, -, rfl⟩ := exists_append_of_not_mem hopener hsplit
  simp at hclosed

/-! ## What gives a context -/

theorem ofPrefix_eq_groupingLabel_iff :
    ofPrefix vocabulary t = .groupingLabel keyword ↔ openClause? t = some keyword := by
  obtain ⟨keyword, hclause, hcontext⟩ | ⟨hclause, -, hcontext⟩ | ⟨hclause, -, -, hcontext⟩ |
    ⟨hclause, -, -, hcontext⟩ := ofPrefix_cases vocabulary t
  · simp [hclause, hcontext]
  · simp [hclause, hcontext]
  · refine iff_of_false (fun heq => ?_) (by simp [hclause])
    rw [heq] at hcontext
    exact hcontext
  · refine iff_of_false (fun heq => ?_) (by simp [hclause])
    rw [heq] at hcontext
    exact hcontext trivial

theorem ofPrefix_eq_timeRange_iff : ofPrefix vocabulary t = .timeRange ↔
    openClause? t = none ∧ (openBlock? '[' ']' t).isSome := by
  obtain ⟨keyword, hclause, hcontext⟩ | ⟨hclause, hrange, hcontext⟩ |
    ⟨hclause, hrange, -, hcontext⟩ | ⟨hclause, hrange, -, hcontext⟩ := ofPrefix_cases vocabulary t
  · simp [hclause, hcontext]
  · simp [hclause, hrange, hcontext]
  · refine iff_of_false (fun heq => ?_) (by simp [hrange])
    rw [heq] at hcontext
    exact hcontext
  · refine iff_of_false (fun heq => ?_) (by simp [hrange])
    rw [heq] at hcontext
    exact hcontext trivial

theorem inLabelBlock_ofPrefix_iff : InLabelBlock (ofPrefix vocabulary t) ↔
    openClause? t = none ∧ openBlock? '[' ']' t = none ∧ (openBlock? '{' '}' t).isSome := by
  obtain ⟨keyword, hclause, hcontext⟩ | ⟨hclause, hrange, hcontext⟩ |
    ⟨hclause, hrange, hblock, hcontext⟩ | ⟨hclause, hrange, hblock, hcontext⟩ :=
    ofPrefix_cases vocabulary t
  · simp [hclause, hcontext, InLabelBlock]
  · rw [hcontext]
    refine iff_of_false id ?_
    rintro ⟨-, hnone, -⟩
    simp [hnone] at hrange
  · exact iff_of_true hcontext ⟨hclause, hrange, hblock⟩
  · exact iff_of_false (fun hin => hcontext hin.inBlock) (by simp [hblock])

/-! ## Growing texts -/

theorem persistenceLaw_classify (vocabulary : Vocabulary) (t : Text) :
    PersistenceLaw vocabulary t := by
  constructor
  case clause =>
    intro keyword s hcontext hopen hclose
    rw [classify_size, ofPrefix_eq_groupingLabel_iff] at hcontext ⊢
    rw [openClause?_append hopen hclose, hcontext]
  case range =>
    intro s hcontext hcloser hopen
    rw [classify_size, ofPrefix_eq_timeRange_iff] at hcontext ⊢
    obtain ⟨hclause, hrange⟩ := hcontext
    exact ⟨openClause?_append_eq_none hopen hclause, isSome_openBlock?_append hcloser hrange⟩
  case block =>
    intro s hcontext hcloser hrangeOpen hopen
    rw [classify_size, inLabelBlock_ofPrefix_iff] at hcontext ⊢
    obtain ⟨hclause, hrange, hblock⟩ := hcontext
    refine ⟨openClause?_append_eq_none hopen hclause, ?_, isSome_openBlock?_append hcloser hblock⟩
    exact openBlock?_append_eq_none hrangeOpen hrange
  case range_closed =>
    intro _ hstill
    rw [classify_size, ofPrefix_eq_timeRange_iff, openBlock?_append_closer (by decide)] at hstill
    simp at hstill

/-- A clause, a time range and a label block that go on with brackets of other kinds. The block goes
on from a label to the operator of another one. -/
theorem persistenceLaw_classify_openContexts :
    let clause : Text := "sum by(".toList
    let names : Text := ['j', '[', '{', ',']
    let range : Text := "rate(up[".toList
    let duration : Text := ['5', 'm', ')', '{']
    let block : Text := "up\x7b".toList
    let matchers : Text := ['j', '=', '"', ')', '"', ',', 'k', ' ']
    (classify .builtin clause clause.size = .groupingLabel "by" ∧
      classify .builtin (clause ++ names) (clause ++ names).size = .groupingLabel "by") ∧
    (classify .builtin range range.size = .timeRange ∧
      classify .builtin (range ++ duration) (range ++ duration).size = .timeRange ∧
      classify .builtin (range ++ [']']) (range ++ [']']).size ≠ .timeRange) ∧
    (InLabelBlock (classify .builtin block block.size) ∧
      InLabelBlock (classify .builtin (block ++ matchers) (block ++ matchers).size)) := by
  intro clause names range duration block matchers
  have hclause : classify .builtin clause clause.size = .groupingLabel "by" := by decide +kernel
  have hrange : classify .builtin range range.size = .timeRange := by decide +kernel
  have hlabel : classify .builtin block block.size = .label (some "up") := by decide +kernel
  have hblock : InLabelBlock (classify .builtin block block.size) := by
    rw [hlabel]
    trivial
  -- The law needs the three contexts only, and not the texts that they are read from.
  clear_value clause range block
  have hclauseLaw := persistenceLaw_classify .builtin clause
  have hrangeLaw := persistenceLaw_classify .builtin range
  have hblockLaw := persistenceLaw_classify .builtin block
  exact ⟨⟨hclause, hclauseLaw.clause "by" names hclause (by decide) (by decide)⟩,
    ⟨hrange, hrangeLaw.range duration hrange (by decide) (by decide),
      hrangeLaw.range_closed hrange⟩,
    hblock, hblockLaw.block matchers hblock (by decide) (by decide) (by decide)⟩

end PromqlAssist.Context
