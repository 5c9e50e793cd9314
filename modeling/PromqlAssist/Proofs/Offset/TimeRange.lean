import PromqlAssist.Proofs.Offset.Scan
import PromqlAssist.Proofs.Rule.TimeRange

/-!
# Time ranges by offsets

A duration is read amount by amount, and the query from one range to the next.
-/

namespace PromqlAssist.Offset

open Text Checked

variable {t front rest outer inner body behind : Text}

/-! ## Durations -/

/-- What follows an amount and its unit at the start of a text. -/
def dropAmount (t : Text) : Checked (Option Text) := do
  let digits := size (t.takeWhile Char.isDigit)
  if digits = 0 then return none
  else
    let rest ← t.cutFrom digits
    match TimeUnit.ofStart? rest with
    | none => return none
    | some (unit, _) => return some (← rest.cutFrom (size unit.symbol.toList))

theorem dropAmount_eq (c : Char) (t : Text) : dropAmount (c :: t) =
    .ok (if c.isDigit then (TimeUnit.ofStart? (t.dropWhile Char.isDigit)).map (·.2) else none) := by
  rw [dropAmount]
  by_cases hc : c.isDigit
  · have hpos : ¬ size ((c :: t).takeWhile Char.isDigit) = 0 := by
      have hsize := c.utf8Size_pos
      rw [List.takeWhile_cons_of_pos hc, size_cons]
      omega
    have hcut : cutFrom (c :: t) (size ((c :: t).takeWhile Char.isDigit)) =
        .ok (t.dropWhile Char.isDigit) := by
      have happend := cutFrom_append ((c :: t).takeWhile Char.isDigit)
        ((c :: t).dropWhile Char.isDigit)
      rwa [List.takeWhile_append_dropWhile, List.dropWhile_cons_of_pos hc] at happend
    simp only [if_neg hpos, if_pos hc]
    rw [hcut, ok_bind]
    cases hunit : TimeUnit.ofStart? (t.dropWhile Char.isDigit) with
    | none => rfl
    | some found =>
      obtain ⟨unit, rest⟩ := found
      simp only [(TimeUnit.ofStart?_eq_some hunit).2, cutFrom_append]
      rfl
  · simp [List.takeWhile_cons_of_neg hc, hc]

/-- One turn of the check of a duration. -/
def amountStep : Text → Checked (Bool ⊕ Text)
  | [] => return .inl true
  | c :: t => do
    match ← dropAmount (c :: t) with
    | none => return .inl false
    | some rest => return .inr rest

theorem amountStep_cons (c : Char) (t : Text) : amountStep (c :: t) =
    .ok (match (if c.isDigit then (TimeUnit.ofStart? (t.dropWhile Char.isDigit)).map (·.2)
        else none) with
      | none => .inl false
      | some rest => .inr rest) := by
  rw [amountStep, dropAmount_eq, ok_bind]
  split <;> rfl

theorem amountStep_lt (t t' : Text) (h : amountStep t = .ok (.inr t')) : t'.length < t.length := by
  cases t with
  | nil => cases h
  | cons c t =>
    rw [amountStep_cons] at h
    split at h
    · cases h
    · rename_i rest hrest
      cases h
      split at hrest
      · obtain ⟨⟨unit, rest⟩, hunit, rfl⟩ := Option.map_eq_some_iff.mp hrest
        exact Nat.lt_succ_of_le (Nat.le_trans (TimeUnit.ofStart?_length_le hunit)
          (List.dropWhile_sublist _).length_le)
      · cases hrest

/-- Any number of amounts, each with its unit. -/
def isDurationList (t : Text) : Checked Bool :=
  loop List.length amountStep amountStep_lt t

theorem isDurationList_eq (t : Text) : isDurationList t = .ok (Rule.isDurationList t) := by
  unfold isDurationList
  induction hlength : t.length using Nat.strongRecOn generalizing t with
  | ind length ih =>
    subst hlength
    cases t with
    | nil =>
      rw [loop_done rfl, Rule.isDurationList]
    | cons c t =>
      have hstep := amountStep_cons c t
      by_cases hc : c.isDigit
      · rw [if_pos hc] at hstep
        cases hunit : TimeUnit.ofStart? (t.dropWhile Char.isDigit) with
        | none =>
          rw [hunit] at hstep
          rw [loop_done hstep, Rule.isDurationList_of_no_unit hc hunit]
        | some found =>
          obtain ⟨unit, rest⟩ := found
          rw [hunit] at hstep
          rw [loop_next hstep, Rule.isDurationList_of_unit hc hunit]
          exact ih _ (amountStep_lt _ _ hstep) rest rfl
      · rw [if_neg hc] at hstep
        rw [loop_done hstep, Rule.isDurationList_of_not_digit hc]

/-- A duration such as `5m` or `1h30m`. -/
def isDuration (t : Text) : Checked Bool :=
  if t.isEmpty then return false else isDurationList t

theorem isDuration_eq (t : Text) : isDuration t = .ok (Rule.isDuration t) := by
  unfold isDuration Rule.isDuration
  cases t.isEmpty with
  | true => rfl
  | false => exact isDurationList_eq t

/-- A time range such as `5m`, `1h:` or `1h:5m`. -/
def isRangeSelector (t : Text) : Checked Bool :=
  match splitAt? [':'] t with
  | some (range, resolution) => do
    if ← isDuration range then
      if resolution.isEmpty then return true else isDuration resolution
    else return false
  | none => isDuration t

theorem isRangeSelector_eq (t : Text) : isRangeSelector t = .ok (Rule.isRangeSelector t) := by
  unfold isRangeSelector Rule.isRangeSelector
  cases splitAt? [':'] t with
  | none => exact isDuration_eq t
  | some parts =>
    obtain ⟨range, resolution⟩ := parts
    dsimp only
    rw [isDuration_eq, ok_bind]
    cases Rule.isDuration range with
    | false => rfl
    | true =>
      cases resolution.isEmpty with
      | true => rfl
      | false => exact isDuration_eq resolution

/-! ## The search for ranges -/

/-- The first pair of square brackets from an offset on, and what it holds. -/
def nextRange (t : Text) (cursor : Nat) : Checked (Option (Span × Text)) := do
  match first? (· = '[') (← t.cutFrom cursor) with
  | none => return none
  | some found =>
    let start := cursor + found
    match ← matchingClose t start with
    | none => return none
    | some close => return some (⟨start, close + 1⟩, ← t.cut (start + 1) close)

theorem nextRange_none (front : Text) (h : '[' ∉ rest) :
    nextRange (front ++ rest) (size front) = .ok none := by
  rw [nextRange, cutFrom_append, ok_bind, first?_not_mem h]
  rfl

theorem nextRange_open (houter : '[' ∉ outer) (hinner : closeDistance? '[' ']' 1 inner = none) :
    nextRange (front ++ (outer ++ '[' :: inner)) (size front) = .ok none := by
  have hclose : matchingClose (front ++ (outer ++ '[' :: inner)) (size front + size outer) =
      .ok none := by
    have hmatch := matchingClose_append (front ++ outer) (rfl : closerOf? '[' = some ']') inner
    rwa [hinner, size_append, List.append_assoc] at hmatch
  rw [nextRange, cutFrom_append, ok_bind, first?_char houter]
  dsimp only
  rw [hclose]
  rfl

theorem nextRange_closed (front : Text) (houter : '[' ∉ outer)
    (hbody : closeDistance? '[' ']' 1 (body ++ ']' :: behind) = some (size body)) :
    nextRange (front ++ (outer ++ '[' :: (body ++ ']' :: behind))) (size front) =
      .ok (some (⟨size front + size outer, size front + size outer + 1 + size body + 1⟩,
        body)) := by
  have hclose : matchingClose (front ++ (outer ++ '[' :: (body ++ ']' :: behind)))
      (size front + size outer) = .ok (some (size front + size outer + 1 + size body)) := by
    have hmatch := matchingClose_append (front ++ outer) (rfl : closerOf? '[' = some ']')
      (body ++ ']' :: behind)
    rwa [hbody, size_append, List.append_assoc] at hmatch
  have hcut : (front ++ (outer ++ '[' :: (body ++ ']' :: behind))).cut
      (size front + size outer + 1) (size front + size outer + 1 + size body) = .ok body := by
    have happend := cut_append (front ++ (outer ++ ['['])) body (']' :: behind)
    simpa [Nat.add_assoc] using happend
  rw [nextRange, cutFrom_append, ok_bind, first?_char houter]
  dsimp only
  rw [hclose, ok_bind]
  dsimp only
  rw [hcut]
  rfl

/-- A text has no square bracket, or its first one is not closed, or it is. -/
theorem range_cases (t : Text) : '[' ∉ t ∨
    (∃ outer inner, t = outer ++ '[' :: inner ∧ '[' ∉ outer ∧
      closeDistance? '[' ']' 1 inner = none) ∨
    ∃ outer body behind, t = outer ++ '[' :: (body ++ ']' :: behind) ∧ '[' ∉ outer ∧
      closeDistance? '[' ']' 1 (body ++ ']' :: behind) = some (size body) := by
  by_cases hopens : '[' ∈ t
  · obtain ⟨outer, inner, rfl, houter⟩ := List.eq_append_cons_of_mem hopens
    cases hclose : closeDistance? '[' ']' 1 inner with
    | none => exact .inr (.inl ⟨outer, inner, rfl, houter, hclose⟩)
    | some n =>
      obtain ⟨body, behind, rfl, rfl⟩ := closeDistance?_eq_some hclose
      exact .inr (.inr ⟨outer, body, behind, rfl, houter, hclose⟩)
  · exact .inl hopens

theorem nextRange_lt {cursor : Nat} {span : Span} (h : nextRange t cursor = .ok (some (span, body))) :
    cursor < span.stop ∧ cursor < size t := by
  obtain ⟨rest, hcut, -⟩ := exists_of_bind h
  obtain ⟨front, rest, rfl, rfl⟩ := (isBoundary_of_cutFrom hcut).exists_append
  rcases range_cases rest with hnone | ⟨outer, inner, rfl, houter, hinner⟩ |
    ⟨outer, body, behind, rfl, houter, hbody⟩
  · rw [nextRange_none front hnone] at h
    cases h
  · rw [nextRange_open houter hinner] at h
    cases h
  · rw [nextRange_closed front houter hbody] at h
    cases h
    simp only [size_append, size_cons, utf8Size_bracket]
    omega

/-- One turn of the search for a bad range. -/
def rangeStep (t : Text) (cursor : Nat) : Checked (Option Span ⊕ Nat) := do
  match ← nextRange t cursor with
  | none => return .inl none
  | some (span, body) =>
    if ← isRangeSelector (trim body) then return .inr span.stop else return .inl (some span)

theorem rangeStep_none {cursor : Nat} (h : nextRange t cursor = .ok none) :
    rangeStep t cursor = .ok (.inl none) := by
  rw [rangeStep, h]
  rfl

theorem rangeStep_some {cursor : Nat} {span : Span}
    (h : nextRange t cursor = .ok (some (span, body))) :
    rangeStep t cursor =
      .ok (if Rule.isRangeSelector (trim body) then .inr span.stop else .inl (some span)) := by
  rw [rangeStep, h, ok_bind]
  dsimp only
  rw [isRangeSelector_eq, ok_bind]
  split <;> rfl

theorem rangeStep_lt (t : Text) (cursor cursor' : Nat) (h : rangeStep t cursor = .ok (.inr cursor')) :
    size t - cursor' < size t - cursor := by
  obtain ⟨found?, hnext, hstep⟩ := exists_of_bind h
  cases found? with
  | none => cases hstep
  | some found =>
    rw [rangeStep_some hnext] at h
    split at h
    · cases h
      have hlt := nextRange_lt hnext
      omega
    · cases h

/-- Square brackets outside string literals have to hold a time range. -/
def timeRange (query : Text) : Checked (Option Span) :=
  loop (size query.mask - ·) (rangeStep query.mask) (rangeStep_lt query.mask) 0

theorem badRangeFrom?_outside (h : '[' ∉ outer) (n resume : Nat) (rest : Text) :
    Rule.badRangeFrom? n resume (outer ++ rest) =
      Rule.badRangeFrom? (n + size outer) resume rest := by
  induction outer generalizing n with
  | nil => rfl
  | cons c outer ih =>
    rw [List.mem_cons, not_or] at h
    rw [List.cons_append, Rule.badRangeFrom?, if_pos (.inr (Ne.symm h.1)), ih h.2, size_cons,
      Nat.add_assoc]

theorem loop_rangeStep (front rest : Text) :
    loop (size (front ++ rest) - ·) (rangeStep (front ++ rest)) (rangeStep_lt (front ++ rest))
        (size front) =
      .ok (Rule.badRangeFrom? (size front) (size front) rest) := by
  induction hlength : rest.length using Nat.strongRecOn generalizing front rest with
  | ind length ih =>
    subst hlength
    rcases range_cases rest with hnone | ⟨outer, inner, rfl, houter, hinner⟩ |
      ⟨outer, body, behind, rfl, houter, hbody⟩
    · have hranges := badRangeFrom?_outside hnone (size front) (size front) []
      rw [List.append_nil] at hranges
      rw [loop_done (rangeStep_none (nextRange_none front hnone)), hranges]
      rfl
    · rw [loop_done (rangeStep_none (nextRange_open houter hinner)),
        badRangeFrom?_outside houter, Rule.badRangeFrom?, if_neg (by simp)]
      simp only [hinner]
    · have hstep := rangeStep_some (nextRange_closed front houter hbody)
      rw [badRangeFrom?_outside houter, Rule.badRangeFrom?, if_neg (by simp)]
      simp only [hbody, before_size_append, utf8Size_bracket]
      cases hrange : Rule.isRangeSelector (trim body) with
      | false =>
        rw [hrange] at hstep
        exact loop_done hstep
      | true =>
        rw [hrange] at hstep
        have hread : front ++ (outer ++ '[' :: (body ++ ']' :: behind)) =
            (front ++ (outer ++ '[' :: (body ++ [']']))) ++ behind := by simp
        have hsize : size front + size outer + 1 + size body + 1 =
            size (front ++ (outer ++ '[' :: (body ++ [']']))) := by
          simp only [size_append, size_cons, size_nil, utf8Size_bracket]
          omega
        have hread' : body ++ ']' :: behind = (body ++ [']']) ++ behind := by simp
        have hsize' : size (body ++ [']']) = size body + 1 := by
          simp only [size_append, size_cons, size_nil, utf8Size_bracket]
        have hskip := Ranged.skip (size front + size outer + 1)
          (size front + size outer + 1 + size body + 1) (by omega) behind (t := body ++ [']'])
        have hlater := ih behind.length (by simp; omega)
          (front ++ (outer ++ '[' :: (body ++ [']']))) behind rfl
        rw [← hread, ← hsize] at hlater
        rw [hsize', ← Nat.add_assoc, ← hread'] at hskip
        rw [loop_next hstep, if_pos rfl, hskip]
        exact hlater

theorem timeRange_eq (v : Vocabulary) (query : Text) :
    timeRange query = .ok (Rule.timeRange v query) :=
  loop_rangeStep [] query.mask

end PromqlAssist.Offset
