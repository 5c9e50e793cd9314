import PromqlAssist.Text.Span

/-!
# Brackets and comma lists

Brackets are matched by their own kind alone: a parenthesis takes no notice of a brace. All offsets
are those of the text that is searched.
-/

namespace PromqlAssist.Text

/-- The closing bracket of an opening one. -/
def closerOf? : Char → Option Char
  | '(' => some ')'
  | '[' => some ']'
  | '{' => some '}'
  | _ => none

/-- The opening bracket of a closing one. -/
def openerOf? : Char → Option Char
  | ')' => some '('
  | ']' => some '['
  | '}' => some '{'
  | _ => none

/-- How many bytes lie in front of the closer that ends `depth` open brackets. -/
def closeDistance? (opener closer : Char) : Nat → Text → Option Nat
  | _, [] => none
  | depth, c :: t =>
    if c = closer ∧ depth ≤ 1 then some 0
    else
      let depth := if c = opener then depth + 1 else if c = closer then depth - 1 else depth
      (closeDistance? opener closer depth t).map (c.utf8Size + ·)

/-- The offset of the bracket that closes the one at `start`. -/
def matchingClose? (t : Text) (start : Nat) : Option Nat :=
  match after t start with
  | [] => none
  | opener :: rest =>
    (closerOf? opener).bind fun closer =>
      (closeDistance? opener closer 1 rest).map (start + opener.utf8Size + ·)

/-- The brace blocks of a text that starts at offset `n`, with the start of the open one. -/
def braceBlocksFrom (n : Nat) (start? : Option Nat) : Text → List Span
  | [] => (start?.map fun start => ⟨start, n⟩).toList
  | c :: t =>
    let next := n + c.utf8Size
    match start? with
    | none => braceBlocksFrom next (if c = '{' then some n else none) t
    | some start =>
      if c = '}' then ⟨start, next⟩ :: braceBlocksFrom next none t
      else braceBlocksFrom next (some start) t

/-- The spans from a `{` to the next `}`, both included. A block that is not closed runs to the end
of the text. -/
def braceBlocks (t : Text) : List Span :=
  braceBlocksFrom 0 none t

/-- The spans between the commas of a text, where `n` is the offset of the text and `start` that of
the current entry. -/
def commaSpansFrom (start n : Nat) : Text → List Span
  | [] => [⟨start, n⟩]
  | c :: t =>
    let next := n + c.utf8Size
    if c = ',' then ⟨start, n⟩ :: commaSpansFrom next next t
    else commaSpansFrom start next t

/-- The entries of a comma list with their offsets. The commas are those of `masked`, a text of the
same size as `t`. -/
def splitCommas (t masked : Text) : List (Nat × Text) :=
  (commaSpansFrom 0 0 masked).map fun s => (s.start, s.slice t)

/-- The offset of the first character from `start` on that is not blank, or the end. -/
def skipBlank (t : Text) (start : Nat) : Nat :=
  start + size ((after t start).takeWhile isBlank)

end PromqlAssist.Text
