import PromqlAssist.Context.Classify
import PromqlAssist.Proofs.Text.Bracket

/-!
# The brackets that a text leaves open

The scan of the rule about brackets, kept as a stack of the brackets that are open. A bracket that
does not stay on the stack is closed behind, and between a parenthesis and its closer everything is
properly nested, so that who counts parentheses alone finds the same closer.
-/

namespace PromqlAssist.Context

open Text

/-- A bracket that opens, with all the text in front of it. -/
structure Opener where
  bracket : Char
  front : Text
deriving DecidableEq

/-- The brackets that are open at the end of a text, the innermost first, if the text closes only
what is innermost. The text stands behind `front`, where the brackets of `stack` are open. -/
def openersFrom? (front : Text) (stack : List Opener) : Text → Option (List Opener)
  | [] => some stack
  | c :: t =>
    match closerOf? c, openerOf? c with
    | some _, _ => openersFrom? (front ++ [c]) (⟨c, front⟩ :: stack) t
    | none, none => openersFrom? (front ++ [c]) stack t
    | none, some opener =>
      match stack with
      | innermost :: rest =>
        if innermost.bracket = opener then openersFrom? (front ++ [c]) rest t else none
      | [] => none

/-- The brackets that a text leaves open. -/
def openers? (t : Text) : Option (List Opener) :=
  openersFrom? [] [] t

variable {t front : Text} {stack stack' lower : List Opener} {o : Opener}
variable {c opener closer : Char}

/-! ## The stack -/

theorem openersFrom?_append (s t : Text) : openersFrom? front stack (s ++ t) =
    (openersFrom? front stack s).bind fun stack' => openersFrom? (front ++ s) stack' t := by
  induction s generalizing front stack with
  | nil => simp [openersFrom?]
  | cons c s ih =>
    have happend : front ++ c :: s = front ++ [c] ++ s := List.append_cons ..
    rw [happend, List.cons_append, openersFrom?, openersFrom?]
    cases closerOf? c with
    | some closer => exact ih
    | none =>
      cases openerOf? c with
      | none => exact ih
      | some opener =>
        cases stack with
        | nil => rfl
        | cons innermost rest =>
          simp only
          split
          · exact ih
          · rfl

/-- The rule about brackets finds no defect just where the scan ends with nothing open. -/
theorem firstUnbalanced?_eq_none_iff :
    Rule.firstUnbalanced? (size front) (stack.map fun o => (o.bracket, size o.front)) t = none ↔
      openersFrom? front stack t = some [] := by
  induction t generalizing front stack with
  | nil => cases stack <;> simp [Rule.firstUnbalanced?, openersFrom?, List.getLast?_cons]
  | cons c t ih =>
    have hsize : size front + c.utf8Size = size (front ++ [c]) := by simp
    rw [Rule.firstUnbalanced?, openersFrom?, hsize]
    cases closerOf? c with
    | some closer => exact @ih (front ++ [c]) (⟨c, front⟩ :: stack)
    | none =>
      cases openerOf? c with
      | none => exact ih
      | some opener =>
        cases stack with
        | nil => simp
        | cons innermost rest =>
          simp only [List.map_cons]
          split
          · exact ih
          · simp

theorem closerOf?_eq_some_of_openerOf? (h : openerOf? closer = some opener) :
    closerOf? opener = some closer := by
  unfold openerOf? at h
  split at h
  all_goals cases h
  all_goals rfl

/-- Parentheses are closed by parentheses alone. -/
theorem ne_of_closerOf? (h : closerOf? opener = some closer) (hne : opener ≠ '(') :
    closer ≠ '(' ∧ closer ≠ ')' := by
  unfold closerOf? at h
  split at h
  · exact absurd rfl hne
  all_goals cases h
  all_goals decide

/-- A character opens a bracket, is none, or closes the innermost one. -/
theorem openersFrom?_cons_eq_some (h : openersFrom? front stack (c :: t) = some stack') :
    ((closerOf? c).isSome ∧ openersFrom? (front ++ [c]) (⟨c, front⟩ :: stack) t = some stack') ∨
      (isBracket c = false ∧ openersFrom? (front ++ [c]) stack t = some stack') ∨
      ∃ innermost rest, stack = innermost :: rest ∧ closerOf? innermost.bracket = some c ∧
        openersFrom? (front ++ [c]) rest t = some stack' := by
  rw [openersFrom?] at h
  cases hopens : closerOf? c with
  | some closer =>
    rw [hopens] at h
    exact .inl ⟨rfl, h⟩
  | none =>
    right
    rw [hopens] at h
    cases hcloses : openerOf? c with
    | none =>
      rw [hcloses] at h
      exact .inl ⟨by rw [isBracket, hopens, hcloses]; rfl, h⟩
    | some opener =>
      right
      rw [hcloses] at h
      cases stack with
      | nil => cases h
      | cons innermost rest =>
        simp only at h
        split at h
        · rename_i heq
          exact ⟨innermost, rest, rfl, heq ▸ closerOf?_eq_some_of_openerOf? hcloses, h⟩
        · cases h

/-- How many parentheses are on a stack. -/
def parens (stack : List Opener) : Nat :=
  stack.countP fun o => o.bracket = '('

theorem staysInside_open (depth : Nat) (t : Text) :
    staysInside depth ('(' :: t) = staysInside (depth + 1) t := by
  cases depth <;> simp [staysInside]

theorem staysInside_close (depth : Nat) (t : Text) :
    staysInside (depth + 1) (')' :: t) = staysInside depth t := by
  simp [staysInside]

theorem staysInside_other (hopen : c ≠ '(') (hclose : c ≠ ')') (depth : Nat) (t : Text) :
    staysInside depth (c :: t) = staysInside depth t := by
  cases depth <;> simp [staysInside, hopen, hclose]

theorem staysInside_of_opens (h : (closerOf? c).isSome) (front : Text) (stack : List Opener)
    (t : Text) :
    staysInside (parens stack) (c :: t) = staysInside (parens (⟨c, front⟩ :: stack)) t := by
  by_cases hc : c = '('
  · subst hc
    rw [staysInside_open, parens, parens, List.countP_cons_of_pos (by simp)]
  · have hclose : c ≠ ')' := by
      rintro rfl
      cases h
    rw [staysInside_other hc hclose, parens, parens, List.countP_cons_of_neg (by simpa using hc)]

theorem staysInside_of_closes (h : closerOf? o.bracket = some c) (stack : List Opener) (t : Text) :
    staysInside (parens (o :: stack)) (c :: t) = staysInside (parens stack) t := by
  by_cases ho : o.bracket = '('
  · rw [ho] at h
    obtain rfl := Option.some.inj h
    rw [parens, parens, List.countP_cons_of_pos (by simpa using ho), staysInside_close]
  · obtain ⟨hopen, hclose⟩ := ne_of_closerOf? h ho
    rw [staysInside_other hopen hclose, parens, parens,
      List.countP_cons_of_neg (by simpa using ho)]

theorem staysInside_of_not_bracket (h : isBracket c = false) (depth : Nat) (t : Text) :
    staysInside depth (c :: t) = staysInside depth t :=
  staysInside_other (ne_of_isBracket h rfl) (ne_of_isBracket h rfl) depth t

/-- A bracket stays on the stack, or its closer comes; a parenthesis is then also closed for who
counts parentheses alone. -/
theorem mem_or_closes (hcloser : closerOf? o.bracket = some closer) (upper : List Opener)
    (h : openersFrom? front (upper ++ o :: lower) t = some stack) :
    o ∈ stack ∨ closer ∈ t ∧ (o.bracket = '(' → staysInside (parens upper) t = false) := by
  induction t generalizing front upper with
  | nil =>
    left
    obtain rfl := Option.some.inj h
    simp
  | cons c t ih =>
    obtain ⟨hopens, h⟩ | ⟨hc, h⟩ | ⟨innermost, rest, heq, hcloses, h⟩ :=
      openersFrom?_cons_eq_some h
    · obtain hmem | ⟨hmem, hstays⟩ := ih (⟨c, front⟩ :: upper) h
      · exact .inl hmem
      · refine .inr ⟨List.mem_cons_of_mem c hmem, ?_⟩
        rwa [staysInside_of_opens hopens front]
    · obtain hmem | ⟨hmem, hstays⟩ := ih upper h
      · exact .inl hmem
      · refine .inr ⟨List.mem_cons_of_mem c hmem, ?_⟩
        rwa [staysInside_of_not_bracket hc]
    · cases upper with
      | nil =>
        obtain ⟨rfl, rfl⟩ := List.cons.inj heq
        obtain rfl : closer = c := Option.some.inj (hcloser.symm.trans hcloses)
        refine .inr ⟨List.mem_cons_self, ?_⟩
        intro hparen
        rw [hparen] at hcloser
        obtain rfl := Option.some.inj hcloser
        rfl
      | cons u upper =>
        obtain ⟨rfl, rfl⟩ := List.cons.inj heq
        obtain hmem | ⟨hmem, hstays⟩ := ih upper h
        · exact .inl hmem
        · refine .inr ⟨List.mem_cons_of_mem c hmem, ?_⟩
          rwa [staysInside_of_closes hcloses]

/-- A bracket of a text is left open, or its closer comes. -/
theorem mem_openers_or_closes (hcloser : closerOf? c = some closer)
    (h : openers? (front ++ c :: t) = some stack) :
    ⟨c, front⟩ ∈ stack ∨ closer ∈ t ∧ (c = '(' → staysInside 0 t = false) := by
  rw [openers?, openersFrom?_append] at h
  obtain ⟨lower, -, h⟩ := Option.bind_eq_some_iff.mp h
  rw [openersFrom?, hcloser] at h
  exact mem_or_closes (o := ⟨c, front⟩) hcloser [] h

end PromqlAssist.Context
