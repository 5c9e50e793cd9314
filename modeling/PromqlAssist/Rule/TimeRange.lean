import PromqlAssist.Rule.Basic
import PromqlAssist.Text.Bracket
import PromqlAssist.Text.Literal

/-!
# Time ranges

A time range in square brackets is a duration, perhaps with a resolution behind a colon.
-/

namespace PromqlAssist.Rule

open Text

/-- Any number of amounts, each with its unit. -/
def isDurationList : Text → Bool
  | [] => true
  | c :: t =>
    if c.isDigit then
      match h : TimeUnit.ofStart? (t.dropWhile Char.isDigit) with
      | some (_, rest) =>
        have : rest.length ≤ t.length :=
          Nat.le_trans (TimeUnit.ofStart?_length_le h) (List.dropWhile_sublist _).length_le
        isDurationList rest
      | none => false
    else false
termination_by t => t.length
decreasing_by simp only [List.length_cons]; omega

/-- A duration such as `5m` or `1h30m`. -/
def isDuration (t : Text) : Bool :=
  !t.isEmpty && isDurationList t

/-- A time range such as `5m`, `1h:` or `1h:5m`. -/
def isRangeSelector (t : Text) : Bool :=
  match splitAt? [':'] t with
  | some (range, resolution) =>
    isDuration range && (resolution.isEmpty || isDuration resolution)
  | none => isDuration t

/-- The first bad time range of a text at offset `n`, of which nothing before `resume` is read. The
search ends at a bracket that is not closed. -/
def badRangeFrom? (n resume : Nat) : Text → Option Span
  | [] => none
  | c :: t =>
    let next := n + c.utf8Size
    if n < resume ∨ c ≠ '[' then badRangeFrom? next resume t
    else
      match closeDistance? '[' ']' 1 t with
      | none => none
      | some length =>
        let stop := next + length + 1
        if isRangeSelector (trim (before t length)) then badRangeFrom? next stop t
        else some ⟨n, stop⟩

/-- Square brackets outside string literals have to hold a time range. -/
def timeRange (_ : Vocabulary) (query : Text) : Option Span :=
  badRangeFrom? 0 0 query.mask

def mentionsRange (query : Text) : Bool :=
  query.contains '['

end PromqlAssist.Rule
