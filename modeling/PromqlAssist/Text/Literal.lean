import PromqlAssist.Text.Basic

/-!
# String literals

A string literal runs from a double quote to the next double quote that no backslash escapes. A
literal that is never closed runs to the end of the text. `Text.mask` blanks the contents of the
literals, and keeps the offset of all else.
-/

namespace PromqlAssist.Text

/-- Where a reader stands with respect to string literals. -/
inductive LiteralState where
  | outside
  | inside
  /-- Inside, right after a backslash. -/
  | escaped
deriving DecidableEq, Repr

/-- The state after one more character. -/
def LiteralState.next : LiteralState → Char → LiteralState
  | .outside, c => if c = '"' then .inside else .outside
  | .inside, c => if c = '"' then .outside else if c = '\\' then .escaped else .inside
  | .escaped, _ => .inside

/-- As many blanks as the character has bytes. -/
def blankFor (c : Char) : Text :=
  List.replicate c.utf8Size ' '

def maskFrom : LiteralState → Text → Text
  | _, [] => []
  | .outside, c :: t => c :: maskFrom (LiteralState.outside.next c) t
  | .inside, c :: t =>
    (if c = '"' then [c] else blankFor c) ++ maskFrom (LiteralState.inside.next c) t
  | .escaped, c :: t => blankFor c ++ maskFrom .inside t

/-- A text of the same size in which every byte inside a string literal is a space. The quotes
stay. -/
def mask (t : Text) : Text :=
  maskFrom .outside t

end PromqlAssist.Text
