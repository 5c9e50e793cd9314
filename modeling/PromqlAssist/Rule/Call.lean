import PromqlAssist.Rule.Basic
import PromqlAssist.Text.Bracket
import PromqlAssist.Text.CharClass
import PromqlAssist.Text.Literal
import PromqlAssist.Text.Word

/-!
# Calls

The rules about what has to follow a function or an aggregation keyword.
-/

namespace PromqlAssist.Rule

open Text

/-- The text behind the opening parenthesis of `rate(` or `irate(`, with the size of the opening. -/
def rateCall? (t : Text) : Option (Nat × Text) :=
  ["irate(", "rate("].findSome? fun s =>
    (dropPart? s.toList t).map fun rest => (s.utf8ByteSize, rest)

/-- Whether an argument starts with a name and has no time range. -/
def lacksRange (body : Text) : Bool :=
  ((trimStart body).head?.map fun c => c = '_' || c = ':' || c.isAlpha).getD false
    && !body.contains '['

/-- The first rate call without a time range, in a text at offset `n` behind the character `last?`.
The name has to start a word. A call that is not closed runs to the end of the text. -/
def bareRateFrom? (n : Nat) (last? : Option Char) : Text → Option Span
  | [] => none
  | c :: t =>
    let rest := bareRateFrom? (n + c.utf8Size) (some c) t
    if (last?.map isWordChar).getD false then rest
    else
      match rateCall? (c :: t) with
      | none => rest
      | some (length, inner) =>
        match closeDistance? '(' ')' 1 inner with
        | some bodySize =>
          if lacksRange (before inner bodySize) then some ⟨n, n + length + bodySize + 1⟩ else rest
        | none => if lacksRange inner then some ⟨n, n + length + inner.size⟩ else rest

/-- A rate of a plain selector needs a time range. -/
def rateUsage (_ : Vocabulary) (query : Text) : Option Span :=
  bareRateFrom? 0 none query.mask

def mentionsRate (query : Text) : Bool :=
  hasInfix "rate(".toList query

/-- Whether a text starts with a parenthesis that holds more than blanks. The parenthesis may lack
its closer. -/
def hasBody (t : Text) : Bool :=
  match t with
  | '(' :: inner =>
    match closeDistance? '(' ')' 1 inner with
    | some length => !isAllBlank (before inner length)
    | none => !isAllBlank inner
  | _ => false

/-- The text behind a grouping keyword, if a text starts with one that no label character
continues. -/
def dropGrouping? (t : Text) : Option Text :=
  ["by", "without"].findSome? fun keyword =>
    (dropPart? keyword.toList t).bind fun rest =>
      if (rest.head?.map isLabelChar).getD false then none else some rest

/-- Whether a text starts with the body of an aggregation. A grouping clause may stand in front. -/
def hasCallBody (t : Text) : Bool :=
  match dropGrouping? t with
  | none => hasBody t
  | some clause =>
    match trimStart clause with
    | '(' :: inner =>
      match closeDistance? '(' ')' 1 inner with
      | some length => hasBody (trimStart (after inner (length + 1)))
      | none => false
    | _ => false

/-- The characters after which an aggregation keyword is read as a label: in a list of labels and in
a matcher. -/
def followsLabel (c : Char) : Bool :=
  c = ',' || c = ')' || c = '=' || c = '!' || c = '~'

/-- An aggregation keyword outside brace blocks needs a body, unless it is read as a label. -/
def aggregationExpression (_ : Vocabulary) (query : Text) : Option Span :=
  let masked := query.mask
  let blocks := braceBlocks masked
  (words masked).findSome? fun (start, word) =>
    let stop := start + word.size
    let following := trimStart (after masked stop)
    if Operator.isAggregation word
        && !blocks.any (fun b => b.start < start && start < b.stop)
        && !(following.head?.map followsLabel).getD false
        && !hasCallBody following then
      some ⟨start, stop⟩
    else none

end PromqlAssist.Rule
