import PromqlAssist.Proofs.Text.CharClass

/-!
# Signs and operations

A query is accepted for either of two reasons: it holds a complete operation, which no text around
it can undo, or each of its pluses and minuses is a sign.
-/

namespace PromqlAssist.Rule

open Text

variable {s t : Text} {c : Char} {last? : Option Char} {n : Nat}

section Complete

theorem isBlank_of_startsOperand (h : startsOperand c) : isBlank c = false := by
  simp only [startsOperand, isOperandChar, Bool.or_eq_true, decide_eq_true_eq] at h
  rcases h with ((((h | rfl) | rfl) | rfl) | rfl) | rfl
  · exact isBlank_of_isIdent (by simp [isIdent, h])
  all_goals decide

theorem isBlank_of_isArithmetic (h : isArithmetic c) : isBlank c = false := by
  simp only [isArithmetic, Bool.or_eq_true, decide_eq_true_eq] at h
  rcases h with ((((rfl | rfl) | rfl) | rfl) | rfl) | rfl <;> decide

theorem isArithmetic_of_isSign (h : isSign c) : isArithmetic c := by
  simp only [isSign, Bool.or_eq_true, decide_eq_true_eq] at h
  rcases h with rfl | rfl <;> decide

theorem isOperandChar_of_isIdent (h : isIdent c) : isOperandChar c := by
  simp only [isIdent, Bool.or_eq_true, decide_eq_true_eq] at h
  rcases h with (rfl | rfl) | h
  · decide
  · decide
  · simp [isOperandChar, h]

/-- A text that starts with a number of signs and an operand behind them. -/
inductive SignedOperand : Nat → Text → Prop where
  | operand {c : Char} {t : Text} (hc : startsOperand c) : SignedOperand 0 (c :: t)
  | sign {n : Nat} {c : Char} {t : Text} (hc : isSign c) (h : SignedOperand n t) :
    SignedOperand (n + 1) (c :: t)

namespace SignedOperand

theorem append (h : SignedOperand n s) (t : Text) : SignedOperand n (s ++ t) := by
  induction h with
  | operand hc => exact .operand hc
  | sign hc _ ih => exact .sign hc ih

theorem word (ht : t ≠ []) (h : ∀ c ∈ t, isIdent c) : SignedOperand 0 t := by
  obtain ⟨c, u, rfl⟩ := List.exists_cons_of_ne_nil ht
  refine .operand ?_
  simp [startsOperand, isOperandChar_of_isIdent (h c (by simp))]

/-- A signed operand starts with no blank. -/
theorem head (h : SignedOperand n t) : ∃ c ∈ t.head?, isBlank c = false := by
  cases h with
  | operand hc => exact ⟨_, rfl, isBlank_of_startsOperand hc⟩
  | sign hc _ => exact ⟨_, rfl, isBlank_of_isArithmetic (isArithmetic_of_isSign hc)⟩

theorem trimStart_eq (h : SignedOperand n t) : trimStart t = t := by
  obtain ⟨c, hmem, hc⟩ := h.head
  obtain ⟨u, rfl⟩ := List.head?_eq_some_iff.mp hmem
  exact trimStart_of_head hc u

/-- An operator with a signed operand behind it is an operation, unless signs pile up. -/
theorem hasOperation (h : SignedOperand n t) (hn : n ≤ 1) (hc : isArithmetic c)
    (hs : trimStart s = t) : hasOperation (c :: s) := by
  have hoperand : ∀ {d : Char} {u v : Text}, startsOperand d → trimStart v = d :: u →
      hasOperand v := by
    intro d u v hd hv
    rw [hasOperand, hv]
    exact hd
  rw [Rule.hasOperation, trimStart_of_head (isBlank_of_isArithmetic hc)]
  simp only [hc, Bool.true_and, Bool.or_eq_true]
  cases h with
  | operand hd => exact .inl (hoperand hd hs)
  | @sign n d u hd h =>
    obtain rfl : n = 0 := by omega
    refine .inr ?_
    cases h with
    | operand he =>
      rw [hs]
      simp only [hd, Bool.true_and]
      exact hoperand he (trimStart_of_head (isBlank_of_startsOperand he) _)

/-- One or two signs in front of an operand read as an operation. -/
theorem hasOperation_self (h : SignedOperand (n + 1) t) (hn : n ≤ 1) : Rule.hasOperation t := by
  cases h with
  | sign hc h => exact h.hasOperation hn (isArithmetic_of_isSign hc) h.trimStart_eq

end SignedOperand

theorem hasOperation_blank (hc : isBlank c) (t : Text) :
    hasOperation (c :: t) = hasOperation t := by
  rw [hasOperation, hasOperation, trimStart_blank hc]

theorem trimStart_append (h : trimStart s = c :: t) (u : Text) :
    trimStart (s ++ u) = c :: (t ++ u) := by
  have hdrop : s.dropWhile isBlank = c :: t := h
  rw [trimStart, List.dropWhile_append, hdrop]
  rfl

theorem hasOperand_append (h : hasOperand s) (t : Text) : hasOperand (s ++ t) := by
  rw [hasOperand] at h ⊢
  cases hs : trimStart s with
  | nil =>
    rw [hs] at h
    cases h
  | cons c u =>
    rw [hs] at h
    rw [trimStart_append hs]
    exact h

theorem hasOperation_append (h : hasOperation s) (t : Text) : hasOperation (s ++ t) := by
  rw [hasOperation] at h ⊢
  cases hs : trimStart s with
  | nil =>
    rw [hs] at h
    cases h
  | cons c u =>
    rw [hs] at h
    rw [trimStart_append hs]
    simp only [Bool.and_eq_true, Bool.or_eq_true] at h ⊢
    refine ⟨h.1, h.2.imp (fun h => hasOperand_append h t) fun h => ?_⟩
    cases hu : trimStart u with
    | nil =>
      rw [hu] at h
      cases h
    | cons d v =>
      rw [hu] at h
      rw [trimStart_append hu]
      simp only [Bool.and_eq_true] at h ⊢
      exact ⟨h.1, hasOperand_append h.2 t⟩

theorem hasCompleteOperation_append_left (h : hasCompleteOperation t) (s : Text) :
    hasCompleteOperation (s ++ t) := by
  induction s with
  | nil => exact h
  | cons c s ih =>
    rw [List.cons_append, hasCompleteOperation, Bool.or_eq_true]
    exact .inr ih

theorem hasCompleteOperation_append_right (h : hasCompleteOperation s) (t : Text) :
    hasCompleteOperation (s ++ t) := by
  induction s with
  | nil => cases h
  | cons c s ih =>
    rw [hasCompleteOperation, Bool.or_eq_true, Bool.and_eq_true] at h
    rw [List.cons_append, hasCompleteOperation, Bool.or_eq_true, Bool.and_eq_true]
    exact h.imp (fun h => ⟨h.1, hasOperation_append h.2 t⟩) ih

/-- A text whose last character ends an operand. -/
def EndsOperand (t : Text) : Prop :=
  ∃ s c, t = s ++ [c] ∧ endsOperand c

theorem EndsOperand.singleton (hc : endsOperand c) : EndsOperand [c] :=
  ⟨[], c, rfl, hc⟩

theorem EndsOperand.word (ht : t ≠ []) (h : ∀ c ∈ t, isIdent c) : EndsOperand t := by
  refine ⟨t.dropLast, t.getLast ht, (List.dropLast_concat_getLast ht).symm, ?_⟩
  simp [endsOperand, isOperandChar_of_isIdent (h _ (List.getLast_mem ht))]

theorem EndsOperand.append_left (h : EndsOperand t) (s : Text) : EndsOperand (s ++ t) := by
  obtain ⟨u, c, rfl, hc⟩ := h
  exact ⟨s ++ u, c, by rw [List.append_assoc], hc⟩

theorem EndsOperand.hasCompleteOperation (h : EndsOperand s) (ht : hasOperation t) :
    hasCompleteOperation (s ++ t) := by
  obtain ⟨u, c, rfl, hc⟩ := h
  rw [List.append_assoc]
  refine hasCompleteOperation_append_left ?_ u
  rw [List.singleton_append, Rule.hasCompleteOperation, hc, ht]
  rfl

end Complete

section Signs

/-- Whether a plus or a minus behind the character is a sign. -/
def AwaitsOperand (last? : Option Char) : Prop :=
  (last?.map precedesSign).getD true

/-- Whether every operator of a piece behind the character `last?` is a sign. -/
def OnlySigns (last? : Option Char) : Text → Prop
  | [] => True
  | c :: t =>
    (isArithmetic c → isSign c ∧ AwaitsOperand last?) ∧
      OnlySigns (if isBlank c then last? else some c) t

namespace OnlySigns

theorem cons (hc : isArithmetic c = false) (h : OnlySigns (if isBlank c then last? else some c) t) :
    OnlySigns last? (c :: t) := by
  refine ⟨fun harith => ?_, h⟩
  rw [hc] at harith
  cases harith

theorem sign (hc : isSign c) (hlast : AwaitsOperand last?) (h : OnlySigns (some c) t) :
    OnlySigns last? (c :: t) := by
  refine ⟨fun _ => ⟨hc, hlast⟩, ?_⟩
  rw [isBlank_of_isArithmetic (isArithmetic_of_isSign hc)]
  exact h

/-- What follows a piece may not depend on how the piece ends. -/
theorem append (hs : OnlySigns last? s) (ht : ∀ l?, OnlySigns l? t) : OnlySigns last? (s ++ t) := by
  induction s generalizing last? with
  | nil => exact ht last?
  | cons c s ih => exact ⟨hs.1, ih hs.2⟩

theorem flat (h : ∀ c ∈ t, isArithmetic c = false) : OnlySigns last? t := by
  induction t generalizing last? with
  | nil => trivial
  | cons c t ih => exact cons (h c (by simp)) (ih fun d hd => h d (by simp [hd]))

theorem firstOperatorFrom?_eq_none (h : OnlySigns last? t) (n : Nat) :
    firstOperatorFrom? n last? t = none := by
  induction t generalizing last? n with
  | nil => rfl
  | cons c t ih =>
    rw [firstOperatorFrom?, if_neg, ih h.2]
    intro hop
    rw [Bool.and_eq_true, Bool.not_eq_true', Bool.and_eq_false_iff] at hop
    obtain ⟨hsign, hlast⟩ := h.1 hop.1
    rcases hop.2 with hn | hn
    · rw [hsign] at hn
      cases hn
    · rw [AwaitsOperand, hn] at hlast
      cases hlast

end OnlySigns

/-- Whether a piece is accepted behind any character that `admits` allows. -/
def Settled (admits : Option Char → Prop) (t : Text) : Prop :=
  hasCompleteOperation t ∨ ∀ last?, admits last? → OnlySigns last? t

/-- Any character. -/
abbrev anywhere : Option Char → Prop :=
  fun _ => True

namespace Settled

variable {admits admits' : Option Char → Prop}

theorem mono (h : Settled admits t) (hadmits : ∀ l?, admits' l? → admits l?) :
    Settled admits' t :=
  h.imp_right fun h l? hl => h l? (hadmits l? hl)

theorem append (hs : Settled admits s) (ht : Settled anywhere t) : Settled admits (s ++ t) := by
  rcases hs with hs | hs
  · exact .inl (hasCompleteOperation_append_right hs t)
  · rcases ht with ht | ht
    · exact .inl (hasCompleteOperation_append_left ht s)
    · exact .inr fun l? hl => (hs l? hl).append fun l? => ht l? trivial

theorem flat (h : ∀ c ∈ t, isArithmetic c = false) : Settled admits t :=
  .inr fun _ _ => OnlySigns.flat h

theorem blank (h : Settled admits t) : Settled admits (' ' :: t) := by
  rcases h with h | h
  · exact .inl (hasCompleteOperation_append_left h [' '])
  · exact .inr fun l? hl => OnlySigns.cons (by decide) (h l? hl)

theorem word (h : ∀ c ∈ t, isIdent c) : Settled admits t :=
  flat fun c hc => isArithmetic_of_isIdent (h c hc)

/-- A piece between two characters that are no operators. -/
theorem wrap {opener closer : Char} (hopener : isArithmetic opener = false)
    (hcloser : isArithmetic closer = false) (h : Settled anywhere t) :
    Settled anywhere (opener :: (t ++ [closer])) := by
  have hfirst : Settled anywhere [opener] := flat (by simpa using hopener)
  have hlast : Settled anywhere [closer] := flat (by simpa using hcloser)
  exact hfirst.append (h.append hlast)

/-- A piece that needs an opening character finds one in front of it. -/
theorem cons (hc : isArithmetic c = false) (hblank : isBlank c = false) (hsign : precedesSign c)
    (h : Settled AwaitsOperand t) : Settled anywhere (c :: t) := by
  rcases h with h | h
  · exact .inl (hasCompleteOperation_append_left h [c])
  · refine .inr fun l? _ => OnlySigns.cons hc ?_
    rw [hblank]
    exact h (some c) hsign

theorem group (h : Settled AwaitsOperand t) : Settled anywhere ('(' :: (t ++ [')'])) := by
  have hclose : Settled anywhere [')'] := flat (by decide)
  exact cons (by decide) (by decide) (by decide) (h.append hclose)

theorem sign (hc : isSign c) (h : Settled AwaitsOperand t) : Settled AwaitsOperand (c :: t) := by
  rcases h with h | h
  · exact .inl (hasCompleteOperation_append_left h [c])
  · refine .inr fun l? hl => OnlySigns.sign hc hl (h (some c) ?_)
    simp [AwaitsOperand, precedesSign, isArithmetic_of_isSign hc]

theorem binaryExpression_eq_none {query : Text} (h : Settled AwaitsOperand (mask query))
    (v : Vocabulary) : binaryExpression v query = none := by
  rcases h with h | h
  · simp only [binaryExpression, h, if_true, Option.bind_fun_none]
  · simp only [binaryExpression, (h none rfl).firstOperatorFrom?_eq_none, Option.bind_none]

end Settled

end Signs

end PromqlAssist.Rule
