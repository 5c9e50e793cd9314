import PromqlAssist.Completion.Placeholder
import PromqlAssist.Context.Classify
import PromqlAssist.Text.LowerCase

/-!
# Completion

The proposals for a cursor. A touched placeholder comes first; otherwise the context of the cursor
decides, and what has been typed of a name filters the list.
-/

namespace PromqlAssist

namespace Completion

/-- The most proposals that are returned if nothing else is said. -/
def defaultLimit : Nat :=
  200

/-- What a proposal replaces in a context, and the typed text that filters the proposals. Durations
replace all that follows the bracket and are not filtered. -/
def target (context : Context) (t : Text) (cursor : Nat) : Span × Text :=
  match context with
  | .groupingLabel _ | .label _ | .functionOrMetric _ => t.wordBefore cursor
  | .timeRange =>
    let typed := (Text.afterLast? '[' (t.before cursor)).getD []
    (⟨t.clamp cursor - Text.size typed, t.clamp cursor⟩, [])
  | _ => (Span.point (t.clamp cursor), [])

/-- Puts a space in front of what a proposal inserts. -/
def spaced (p : Proposal) : Proposal :=
  { p with insertText := ' ' :: p.insertText }

/-- The proposals that the context gives, all of them. A proposal that would only be inserted, right
behind an identifier, is kept apart from it by a space. -/
def ofContext (vocabulary : Vocabulary) (t : Text) (cursor : Nat) : List Proposal :=
  let context := Context.classify vocabulary t cursor
  let (span, typed) := target context t cursor
  let suggested := (suggest vocabulary context span).filter fun p =>
    Text.hasInfixIgnoringCase typed p.label.toList
  if span.isEmpty && (((t.before cursor).getLast?.map Text.isIdent).getD false) then
    suggested.map spaced
  else suggested

end Completion

/-- The proposals for a cursor, at most `limit`. Any cursor is good. -/
def complete (vocabulary : Vocabulary) (limit : Nat) (t : Text) (cursor : Nat) : List Proposal :=
  ((Placeholder.complete? vocabulary t (t.clamp cursor)).getD
    (Completion.ofContext vocabulary t cursor)).take limit

end PromqlAssist
