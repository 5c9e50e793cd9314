import PromqlAssist.Proofs.Offset.Cut
import PromqlAssist.Rule.Arithmetic

/-!
# Arithmetic by offsets

Whether an operator is a sign is read off the text in front of it, which is cut out anew for every
operator.
-/

namespace PromqlAssist.Offset

open Text Checked

/-- Whether the operator at an offset is a sign. -/
def isUnarySign (masked : Text) (n : Nat) (c : Char) : Checked Bool := do
  if Rule.isSign c then
    let front ← masked.cutTo n
    return ((trimEnd front).getLast?.map Rule.precedesSign).getD true
  else return false

/-- The offset of the first operator from `n` on that is not a sign. -/
def firstOperator (masked : Text) (n : Nat) : Text → Checked (Option Nat)
  | [] => return none
  | c :: t => do
    if Rule.isArithmetic c then
      if ← isUnarySign masked n c then firstOperator masked (n + c.utf8Size) t
      else return some n
    else firstOperator masked (n + c.utf8Size) t

/-- A query with an arithmetic operator has to hold a complete operation. -/
def binaryExpression (query : Text) : Checked (Option Span) := do
  let masked := query.mask
  match ← firstOperator masked 0 masked with
  | none => return none
  | some n => if Rule.hasCompleteOperation masked then return none else return some (.ofLength n 1)

theorem isUnarySign_append (front rest : Text) (c : Char) :
    isUnarySign (front ++ rest) (size front) c =
      .ok (Rule.isSign c && ((trimEnd front).getLast?.map Rule.precedesSign).getD true) := by
  unfold isUnarySign
  cases Rule.isSign c with
  | true => rw [if_pos rfl, cutTo_append, ok_bind, Bool.true_and, pure_eq]
  | false => rfl

theorem getLast?_trimEnd_append (front : Text) (c : Char) :
    (trimEnd (front ++ [c])).getLast? = if isBlank c then (trimEnd front).getLast? else some c := by
  unfold trimEnd dropTrailing
  rw [List.reverse_append, List.reverse_singleton, List.singleton_append, List.dropWhile_cons]
  split
  · rfl
  · simp

/-- The last character that is not blank need not be carried along. -/
theorem firstOperator_append (front rest : Text) :
    firstOperator (front ++ rest) (size front) rest =
      .ok (Rule.firstOperatorFrom? (size front) (trimEnd front).getLast? rest) := by
  induction rest generalizing front with
  | nil => rfl
  | cons c rest ih =>
    have hlater := ih (front ++ [c])
    rw [← List.append_cons, getLast?_trimEnd_append, size_append, size_cons, size_nil,
      Nat.add_zero] at hlater
    rw [firstOperator, Rule.firstOperatorFrom?, isUnarySign_append, ok_bind]
    cases Rule.isArithmetic c with
    | false => exact hlater
    | true =>
      cases Rule.isSign c && ((trimEnd front).getLast?.map Rule.precedesSign).getD true with
      | true => exact hlater
      | false => rfl

theorem binaryExpression_eq (v : Vocabulary) (query : Text) :
    binaryExpression query = .ok (Rule.binaryExpression v query) := by
  have hfirst : firstOperator query.mask 0 query.mask =
      .ok (Rule.firstOperatorFrom? 0 none query.mask) := firstOperator_append [] query.mask
  rw [binaryExpression, hfirst, ok_bind, Rule.binaryExpression]
  cases Rule.firstOperatorFrom? 0 none query.mask with
  | none => rfl
  | some n =>
    rw [Option.bind_some]
    dsimp only
    split <;> rfl

end PromqlAssist.Offset
