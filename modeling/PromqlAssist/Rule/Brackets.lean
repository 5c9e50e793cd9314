import PromqlAssist.Rule.Basic
import PromqlAssist.Text.Bracket
import PromqlAssist.Text.Literal

/-!
# Blank queries, brackets and string literals

The rules about the lexical shape of a query.
-/

namespace PromqlAssist.Rule

/-- A blank query is a defect as a whole. -/
def blankQuery (_ : Vocabulary) (query : Text) : Option Span :=
  if query.isAllBlank then some ⟨0, query.size⟩ else none

/-- The offset of the first bracket that breaks the nesting of a text at offset `n`, inside the
brackets of `stack`: a closer that does not close the innermost bracket, or else the outermost
bracket that is left open. -/
def firstUnbalanced? (n : Nat) (stack : List (Char × Nat)) : Text → Option Nat
  | [] => stack.getLast?.map (·.2)
  | c :: t =>
    let next := n + c.utf8Size
    match Text.closerOf? c, Text.openerOf? c with
    | some _, _ => firstUnbalanced? next ((c, n) :: stack) t
    | none, none => firstUnbalanced? next stack t
    | none, some opener =>
      match stack with
      | (innermost, _) :: rest =>
        if innermost = opener then firstUnbalanced? next rest t else some n
      | [] => some n

/-- The brackets outside string literals have to be nested properly. -/
def balancedBrackets (_ : Vocabulary) (query : Text) : Option Span :=
  (firstUnbalanced? 0 [] query.mask).map fun n => Span.ofLength n 1

/-- The offset of the first quote of a wrong kind outside string literals, or else of the quote that
opened a literal which is never closed. `opened` is the offset of the last opening quote. -/
def literalDefectFrom? (n : Nat) (state : Text.LiteralState) (opened : Nat) : Text → Option Nat
  | [] => if state = .outside then none else some opened
  | c :: t =>
    if state = .outside ∧ (c = '\x27' ∨ c = '\x60') then some n
    else
      literalDefectFrom? (n + c.utf8Size) (state.next c)
        (if state = .outside ∧ c = '"' then n else opened) t

/-- Strings have to be in double quotes and closed. -/
def stringLiterals (_ : Vocabulary) (query : Text) : Option Span :=
  (literalDefectFrom? 0 .outside 0 query).map fun n => Span.ofLength n 1

end PromqlAssist.Rule
