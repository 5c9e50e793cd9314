import PromqlAssist.Proofs.Offset.Scan
import PromqlAssist.Proofs.Rule.Span

/-!
# Calls by offsets

The body of a call is cut out between its parentheses, and what follows a word at the offset where
the word ends.
-/

namespace PromqlAssist.Offset

open Text Checked

variable {front rest inner : Text}

/-! ## Rate calls -/

/-- The openings of the rate calls of a text at offset `n` behind the character `last?`. -/
def rateCallsFrom (n : Nat) (last? : Option Char) : Text → List Span
  | [] => []
  | c :: t =>
    let later := rateCallsFrom (n + c.utf8Size) (some c) t
    if (last?.map isWordChar).getD false then later
    else
      match Rule.rateCall? (c :: t) with
      | none => later
      | some (length, _) => ⟨n, n + length⟩ :: later

/-- The first of some rate calls that lacks a time range. -/
def bareRate (masked : Text) : List Span → Checked (Option Span)
  | [] => return none
  | call :: calls => do
    let start ← sub call.stop 1
    match ← matchingClose masked start with
    | some close =>
      if Rule.lacksRange (← masked.cut (start + 1) close) then return some ⟨call.start, close + 1⟩
      else bareRate masked calls
    | none =>
      if Rule.lacksRange (← masked.cut (start + 1) masked.size) then
        return some ⟨call.start, masked.size⟩
      else bareRate masked calls

/-- A rate of a plain selector needs a time range. -/
def rateUsage (query : Text) : Checked (Option Span) :=
  bareRate query.mask (rateCallsFrom 0 none query.mask)

/-- A call that is closed, or runs to the end of the text. -/
theorem bareRate_cons (front name inner : Text) (calls : List Span) :
    bareRate (front ++ (name ++ '(' :: inner))
        (⟨size front, size front + (size name + 1)⟩ :: calls) =
      match closeDistance? '(' ')' 1 inner with
      | some bodySize =>
        if Rule.lacksRange (before inner bodySize) then
          .ok (some ⟨size front, size front + (size name + 1) + bodySize + 1⟩)
        else bareRate (front ++ (name ++ '(' :: inner)) calls
      | none =>
        if Rule.lacksRange inner then
          .ok (some ⟨size front, size front + (size name + 1) + size inner⟩)
        else bareRate (front ++ (name ++ '(' :: inner)) calls := by
  rw [bareRate, ← Nat.add_assoc, sub_add, ok_bind, ← List.append_assoc, ← size_append]
  cases hclose : closeDistance? '(' ')' 1 inner with
  | some bodySize =>
    obtain ⟨body, behind, rfl, rfl⟩ := closeDistance?_eq_some hclose
    obtain ⟨hmatch, hcut⟩ := matchingClose_closed (front ++ name) hclose
    rw [hmatch, ok_bind]
    dsimp only
    rw [hcut, ok_bind, before_size_append]
    rfl
  | none =>
    obtain ⟨hmatch, hcut⟩ := matchingClose_open (front ++ name) hclose
    have hsize : size ((front ++ name) ++ '(' :: inner) = size (front ++ name) + 1 + size inner := by
      simp only [size_append, size_cons, utf8Size_bracket]
      omega
    rw [cutFrom] at hcut
    rw [hmatch, ok_bind]
    dsimp only
    rw [hcut, ok_bind, hsize]
    rfl

theorem bareRate_append (front rest : Text) (last? : Option Char) :
    bareRate (front ++ rest) (rateCallsFrom (size front) last? rest) =
      .ok (Rule.bareRateFrom? (size front) last? rest) := by
  induction rest generalizing front last? with
  | nil => rfl
  | cons c rest ih =>
    have hlater := ih (front ++ [c]) (some c)
    rw [← List.append_cons, size_append, size_cons, size_nil, Nat.add_zero] at hlater
    rw [rateCallsFrom, Rule.bareRateFrom?]
    split
    · exact hlater
    · cases hcall : Rule.rateCall? (c :: rest) with
      | none => exact hlater
      | some call =>
        obtain ⟨length, inner⟩ := call
        obtain ⟨name, hname, rfl, -, -⟩ := Rule.rateCall?_eq_append hcall
        dsimp only
        rw [hname] at hlater ⊢
        rw [bareRate_cons, hlater]
        cases closeDistance? '(' ')' 1 inner with
        | some bodySize =>
          dsimp only
          split <;> rfl
        | none =>
          dsimp only
          split <;> rfl

theorem rateUsage_eq (v : Vocabulary) (query : Text) :
    rateUsage query = .ok (Rule.rateUsage v query) :=
  bareRate_append [] query.mask none

/-! ## Aggregations -/

/-- Whether a parenthesis stands at an offset and holds more than blanks. -/
def hasBody (masked : Text) (start : Nat) : Checked Bool := do
  if (← masked.cutFrom start).head? = some '(' then
    match ← matchingClose masked start with
    | some close => return !isAllBlank (← masked.cut (start + 1) close)
    | none => return !isAllBlank (← masked.cutFrom (start + 1))
  else return false

/-- Where the first of some keywords ends that stands at an offset, with no label character
behind. -/
def clauseStop (masked : Text) (start : Nat) : List String → Checked (Option Nat)
  | [] => return none
  | keyword :: keywords => do
    match dropPart? keyword.toList (← masked.cutFrom start) with
    | none => clauseStop masked start keywords
    | some _ =>
      let stop := start + size keyword.toList
      if ((← masked.cutFrom stop).head?.map isLabelChar).getD false then
        clauseStop masked start keywords
      else return some stop

/-- Whether the body of an aggregation stands at an offset, perhaps behind a grouping clause. -/
def hasCallBody (masked : Text) (start : Nat) : Checked Bool := do
  match ← clauseStop masked start ["by", "without"] with
  | none => hasBody masked start
  | some stop =>
    let opening ← skipBlank masked stop
    if (← masked.cutFrom opening).head? = some '(' then
      match ← matchingClose masked opening with
      | some close => hasBody masked (← skipBlank masked (close + 1))
      | none => return false
    else return false

/-- The first of some words that is an aggregation keyword without a body. -/
def bareAggregation (masked : Text) (blocks : List Span) :
    List (Nat × Text) → Checked (Option Span)
  | [] => return none
  | (start, word) :: words => do
    if !Operator.isAggregation word then bareAggregation masked blocks words
    else if blocks.any fun b => b.start < start && start < b.stop then
      bareAggregation masked blocks words
    else
      let stop := start + size word
      let next ← skipBlank masked stop
      if ((← masked.cutFrom next).head?.map Rule.followsLabel).getD false then
        bareAggregation masked blocks words
      else if ← hasCallBody masked next then bareAggregation masked blocks words
      else return some ⟨start, stop⟩

/-- An aggregation keyword outside brace blocks needs a body, unless it is read as a label. -/
def aggregationExpression (query : Text) : Checked (Option Span) := do
  let masked := query.mask
  let blocks ← braceBlocks masked
  bareAggregation masked blocks (← words masked)

theorem hasBody_of_head (h : rest.head? ≠ some '(') : Rule.hasBody rest = false := by
  unfold Rule.hasBody
  split
  · exact absurd rfl h
  · rfl

theorem hasBody_append (front rest : Text) :
    hasBody (front ++ rest) (size front) = .ok (Rule.hasBody rest) := by
  rw [hasBody, cutFrom_append, ok_bind]
  by_cases hopen : rest.head? = some '('
  · obtain ⟨inner, rfl⟩ := List.head?_eq_some_iff.mp hopen
    rw [if_pos hopen, Rule.hasBody]
    cases hclose : closeDistance? '(' ')' 1 inner with
    | some length =>
      obtain ⟨body, behind, rfl, rfl⟩ := closeDistance?_eq_some hclose
      obtain ⟨hmatch, hcut⟩ := matchingClose_closed front hclose
      simp only [hmatch, hcut, ok_bind, before_size_append, pure_eq]
    | none =>
      obtain ⟨hmatch, hcut⟩ := matchingClose_open front hclose
      simp only [hmatch, hcut, ok_bind, pure_eq]
  · rw [if_neg hopen, hasBody_of_head hopen]
    rfl

/-- Either no keyword stands there, or one that ends where the text without it starts. -/
theorem clauseStop_cases (front rest : Text) (keywords : List String) :
    let clause? := keywords.findSome? fun keyword =>
      (dropPart? keyword.toList rest).bind fun clause =>
        if (clause.head?.map isLabelChar).getD false then none else some clause
    clause? = none ∧ clauseStop (front ++ rest) (size front) keywords = .ok none ∨
      ∃ keyword clause, rest = keyword ++ clause ∧ clause? = some clause ∧
        clauseStop (front ++ rest) (size front) keywords = .ok (some (size (front ++ keyword))) := by
  induction keywords with
  | nil => exact .inl ⟨rfl, rfl⟩
  | cons keyword keywords ih =>
    dsimp only at ih ⊢
    rw [clauseStop, cutFrom_append, ok_bind, List.findSome?_cons]
    cases hdrop : dropPart? keyword.toList rest with
    | none => exact ih
    | some clause =>
      obtain rfl := dropPart?_eq_some_iff.mp hdrop
      have hcut := cutFrom_append (front ++ keyword.toList) clause
      rw [size_append, List.append_assoc] at hcut
      rw [Option.bind_some]
      dsimp only
      rw [hcut, ok_bind]
      cases hlabel : (clause.head?.map isLabelChar).getD false with
      | true => exact ih
      | false => exact .inr ⟨keyword.toList, clause, rfl, rfl, by rw [size_append]; rfl⟩

/-- What follows the parenthesis that closes a grouping clause. -/
theorem hasBody_skipBlank (front body behind : Text) :
    (skipBlank (front ++ '(' :: (body ++ ')' :: behind)) (size front + 1 + size body + 1) >>=
        hasBody (front ++ '(' :: (body ++ ')' :: behind))) =
      .ok (Rule.hasBody (trimStart (after (body ++ ')' :: behind) (size body + 1)))) := by
  have hread : front ++ '(' :: (body ++ ')' :: behind) =
      (front ++ '(' :: (body ++ [')'])) ++ behind := by simp
  have hsize : size front + 1 + size body + 1 = size (front ++ '(' :: (body ++ [')'])) := by
    simp only [size_append, size_cons, size_nil, utf8Size_bracket]
    omega
  have hafter : after (body ++ ')' :: behind) (size body + 1) = behind :=
    after_append_cons body ')' behind
  obtain ⟨blanks, hblanks, hskip⟩ := skipBlank_append (front ++ '(' :: (body ++ [')'])) behind
  have hbody := hasBody_append ((front ++ '(' :: (body ++ [')'])) ++ blanks) (trimStart behind)
  rw [List.append_assoc, ← hblanks] at hbody
  rw [hafter, hread, hsize, hskip, ok_bind]
  exact hbody

theorem hasCallBody_append (front rest : Text) :
    hasCallBody (front ++ rest) (size front) = .ok (Rule.hasCallBody rest) := by
  unfold hasCallBody Rule.hasCallBody Rule.dropGrouping?
  rcases clauseStop_cases front rest ["by", "without"] with ⟨hclause, hstop⟩ |
    ⟨keyword, clause, rfl, hclause, hstop⟩
  · rw [hstop, ok_bind, hclause]
    exact hasBody_append front rest
  · rw [hstop, ok_bind, hclause]
    dsimp only
    obtain ⟨blanks, hblanks, hskip⟩ := skipBlank_append (front ++ keyword) clause
    have hcut := cutFrom_append ((front ++ keyword) ++ blanks) (trimStart clause)
    have hread : front ++ (keyword ++ clause) = ((front ++ keyword) ++ blanks) ++ trimStart clause := by
      rw [List.append_assoc, List.append_assoc, ← hblanks]
    rw [← List.append_assoc, hskip, ok_bind, List.append_assoc, hread, hcut, ok_bind]
    by_cases hopen : (trimStart clause).head? = some '('
    · obtain ⟨inner, hinner⟩ := List.head?_eq_some_iff.mp hopen
      rw [if_pos hopen, hinner]
      cases hclose : closeDistance? '(' ')' 1 inner with
      | none =>
        rw [(matchingClose_open _ hclose).1, ok_bind]
        simp only [hclose, pure_eq]
      | some length =>
        obtain ⟨body, behind, rfl, rfl⟩ := closeDistance?_eq_some hclose
        rw [(matchingClose_closed _ hclose).1, ok_bind]
        simp only [hclose]
        exact hasBody_skipBlank _ body behind
    · rw [if_neg hopen]
      split
      · rename_i inner hinner
        rw [hinner] at hopen
        exact absurd rfl hopen
      · rfl

theorem bareAggregation_eq (masked : Text) (blocks : List Span) {ws : List (Nat × Text)}
    (hwords : ∀ w ∈ ws, w ∈ Text.words masked) :
    bareAggregation masked blocks ws = .ok (ws.findSome? fun (start, word) =>
      let stop := start + word.size
      let following := trimStart (after masked stop)
      if Operator.isAggregation word
          && !blocks.any (fun b => b.start < start && start < b.stop)
          && !(following.head?.map Rule.followsLabel).getD false
          && !Rule.hasCallBody following then
        some ⟨start, stop⟩
      else none) := by
  induction ws with
  | nil => rfl
  | cons w ws ih =>
    obtain ⟨start, word⟩ := w
    have hlater := ih fun w hw => hwords w (List.mem_cons_of_mem _ hw)
    obtain ⟨p, s, rfl, rfl, -⟩ := isWord_of_mem_words (hwords (start, word) (by simp))
    obtain ⟨blanks, hblanks, hskip⟩ := skipBlank_append (p ++ word) s
    have hafter := after_size_append (p ++ word) s
    have hcut := cutFrom_append ((p ++ word) ++ blanks) (trimStart s)
    have hbody := hasCallBody_append ((p ++ word) ++ blanks) (trimStart s)
    rw [List.append_assoc, ← hblanks, List.append_assoc] at hcut hbody
    rw [size_append, List.append_assoc] at hafter hskip
    rw [bareAggregation, List.findSome?_cons]
    dsimp only
    rw [hafter, hskip, ok_bind, hcut, ok_bind, hbody, ok_bind]
    cases Operator.isAggregation word with
    | false => exact hlater
    | true =>
      cases blocks.any (fun b => b.start < size p && size p < b.stop) with
      | true => exact hlater
      | false =>
        cases ((trimStart s).head?.map Rule.followsLabel).getD false with
        | true => exact hlater
        | false =>
          cases Rule.hasCallBody (trimStart s) with
          | true => exact hlater
          | false => rfl

theorem aggregationExpression_eq (v : Vocabulary) (query : Text) :
    aggregationExpression query = .ok (Rule.aggregationExpression v query) := by
  rw [aggregationExpression, braceBlocks_eq, ok_bind, words_eq, ok_bind]
  exact bareAggregation_eq query.mask (Text.braceBlocks query.mask) fun w hw => hw

end PromqlAssist.Offset
