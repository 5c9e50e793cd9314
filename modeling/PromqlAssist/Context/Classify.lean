import PromqlAssist.Context.Basic
import PromqlAssist.Text.CharClass
import PromqlAssist.Text.Word
import PromqlAssist.Vocabulary.Basic

/-!
# Finding the context of a cursor

Half-written queries are seldom well formed, so the text in front of the cursor is not parsed. It is
held against a fixed list of shapes, the most telling first; strings are not told from other text.
-/

namespace PromqlAssist.Context

open Text

/-- Whether a keyword may start behind the character `last?`. -/
def startsWord (last? : Option Char) : Bool :=
  !(last?.map isWordChar).getD false

/-- A grouping keyword with its opening parenthesis, if a text starts with them, and the text behind
the parenthesis. -/
def clauseOpening? (t : Text) : Option (String × Text) :=
  ["by", "without"].findSome? fun keyword =>
    (dropPart? keyword.toList t).bind fun rest =>
      match trimStart rest with
      | '(' :: inner => some (keyword, inner)
      | _ => none

/-- The last grouping clause that a text opens behind the character `last?`. -/
def lastClause? (last? : Option Char) : Text → Option (String × Text)
  | [] => none
  | c :: t =>
    (lastClause? (some c) t).orElse fun _ =>
      if startsWord last? then clauseOpening? (c :: t) else none

/-- Whether a text closes none of the `depth` parentheses around it. -/
def staysInside : Nat → Text → Bool
  | _, [] => true
  | depth, c :: t =>
    if c = '(' then staysInside (depth + 1) t
    else if c = ')' then
      match depth with
      | 0 => false
      | depth + 1 => staysInside depth t
    else staysInside depth t

/-- The keyword of the last grouping clause, if its parenthesis is still open. -/
def openClause? (t : Text) : Option String :=
  (lastClause? none t).bind fun (keyword, inner) =>
    if staysInside 0 inner then some keyword else none

/-- What follows the last `opener`, if no `closer` comes behind it. -/
def openBlock? (opener closer : Char) (t : Text) : Option Text :=
  (afterLast? opener t).bind fun block => if block.contains closer then none else some block

/-- The label name that an entry of a label block consists of, if a blank follows it. -/
def completeLabel? (entry : Text) : Option String :=
  let body := trimStart entry
  let name := trimEnd body
  if name.size < body.size && isLabelName name then some (String.ofList name) else none

/-- The context inside a label block. Its metric is the first of the vocabulary that occurs anywhere
in the text, not necessarily the owner of the block. -/
def ofLabelBlock (vocabulary : Vocabulary) (text block : Text) : Context :=
  match completeLabel? ((afterLast? ',' block).getD block) with
  | some name => .comparator name
  | none => .label (vocabulary.metrics.find? fun m => hasInfix m.toList text)

/-- Whether a text ends with a word, at the start of which no word character precedes. -/
def endsWithWord (t word : Text) : Bool :=
  match dropPart? word.reverse t.reverse with
  | some rest => startsWord rest.head?
  | none => false

/-- Whether a text ends with an aggregation keyword and one closed, flat pair of parentheses. -/
def endsWithAggregation (t : Text) : Bool :=
  match (trimEnd t).reverse with
  | ')' :: rest =>
    match rest.dropWhile (fun c => c ≠ '(' && c ≠ ')') with
    | '(' :: head =>
      Operator.aggregationNames.any fun name => endsWithWord (trimEnd head.reverse) name.toList
    | _ => false
  | _ => false

/-- The aggregation keyword at the end of a text, up to blanks. -/
def trailingAggregation? (t : Text) : Option String :=
  Operator.aggregationNames.find? fun name => endsWithWord (trimEnd t) name.toList

/-- Opening less closing parentheses. -/
def parenBalance (t : Text) : Int :=
  (t.count '(' : Int) - t.count ')'

/-- The scope of an expression that starts at the end of a text, if one can start there. -/
def expressionScope? (t : Text) : Option Scope :=
  if t.isAllBlank then some .start
  else
    let scope := if parenBalance t > 0 then Scope.nested else .start
    let startsAfter := (t.getLast?.map fun c => c = '(' || c = ',' || isBlank c).getD false
    let word := trailing isIdent t
    if startsAfter || (!word.isEmpty && word.all fun c => c = '_' || c.isAlpha) then some scope
    else none

/-- The context at the end of a text. -/
def ofPrefix (vocabulary : Vocabulary) (t : Text) : Context :=
  if let some clause := openClause? t then .groupingLabel clause
  else if (openBlock? '[' ']' t).isSome then .timeRange
  else if let some block := openBlock? '{' '}' t then ofLabelBlock vocabulary t block
  else if endsWithAggregation t then .groupingAndBinary
  else if let some aggregation := trailingAggregation? t then .groupingOperator aggregation
  else if (trimEnd t).getLast? = some '}' || (trimEnd t).getLast? = some ')' then .binaryOperator
  else if let some scope := expressionScope? t then .functionOrMetric scope
  else .any

/-- The context of a cursor. Any cursor is good; the text behind it has no say. -/
def classify (vocabulary : Vocabulary) (t : Text) (cursor : Nat) : Context :=
  ofPrefix vocabulary (before t cursor)

end PromqlAssist.Context
