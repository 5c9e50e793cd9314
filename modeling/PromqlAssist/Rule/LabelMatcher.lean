import PromqlAssist.Rule.Basic
import PromqlAssist.Text.Bracket
import PromqlAssist.Text.Literal

/-!
# Label matchers

The first brace block of a query has to be a comma list of label matchers.
-/

namespace PromqlAssist.Rule

open Text

/-- The characters that comparisons are made of. -/
def isComparisonChar (c : Char) : Bool :=
  c = '=' || c = '!' || c = '~' || c = '<' || c = '>'

/-- The comparisons of a matcher. A token comes before those that it extends. -/
def comparisons : List String :=
  ["=~", "!~", "!=", ">=", "<=", "=", ">", "<"]

/-- The comparison that a text starts with, and the text behind it. -/
def comparison? (t : Text) : Option (String × Text) :=
  comparisons.findSome? fun op => (dropPart? op.toList t).map fun rest => (op, rest)

/-- Whether an entry is a name, one comparison and a value, neither side blank. The comparison is
the first of `masked`, the same entry with its strings blanked, and no part of another may follow. -/
def isMatcher (entry masked : Text) : Bool :=
  let name := masked.takeWhile fun c => !isComparisonChar c
  match comparison? (masked.dropWhile fun c => !isComparisonChar c) with
  | none => false
  | some (op, value) =>
    !isAllBlank (before entry (size name))
      && !isAllBlank (after entry (size name + op.utf8ByteSize))
      && !value.any isComparisonChar

/-- The offset of the first entry that is neither blank nor a matcher. Its leading blanks are not
counted to it. -/
def badMatcher? (block masked : Text) : Option Nat :=
  (splitCommas block masked).findSome? fun (offset, entry) =>
    if isAllBlank entry || isMatcher entry (slice masked offset (offset + entry.size)) then none
    else some (offset + (entry.size - (trimStart entry).size))

/-- The entries of the first closed brace block have to be label matchers. The block ends at the
next closing brace outside string literals. -/
def labelMatchers (_ : Vocabulary) (query : Text) : Option Span :=
  let masked := query.mask
  let start := size (masked.takeWhile (· ≠ '{'))
  match masked.dropWhile (· ≠ '{') with
  | [] => none
  | _ :: rest =>
    if rest.contains '}' then
      let block := rest.takeWhile (· ≠ '}')
      let stop := start + 1 + size block
      (badMatcher? (slice query (start + 1) stop) block).map fun offset =>
        ⟨start + 1 + offset, stop + 1⟩
    else none

/-- Blocks next to a call of `label_replace` are exempt, since the call takes patterns of its
own. -/
def mentionsLabelBlock (query : Text) : Bool :=
  query.contains '{' && !hasInfix "label_replace(".toList query

end PromqlAssist.Rule
