import PromqlAssist.Rule.Basic
import PromqlAssist.Text.Literal

/-!
# Arithmetic

An arithmetic operator has an operand on either side. One complete operation anywhere in the query
is enough.
-/

namespace PromqlAssist.Rule

open Text

def isArithmetic (c : Char) : Bool :=
  c = '+' || c = '-' || c = '*' || c = '/' || c = '%' || c = '^'

def isSign (c : Char) : Bool :=
  c = '+' || c = '-'

/-- The characters of names and numbers. -/
def isOperandChar (c : Char) : Bool :=
  c.isAlphanum || c = '_' || c = ':' || c = '.'

/-- The characters that end a left operand. -/
def endsOperand (c : Char) : Bool :=
  isOperandChar c || c = ')' || c = ']' || c = '}'

/-- The characters that start a right operand. -/
def startsOperand (c : Char) : Bool :=
  isOperandChar c || c = '(' || c = '{'

/-- Whether a text starts with an operand, after blanks. -/
def hasOperand (t : Text) : Bool :=
  ((trimStart t).head?.map startsOperand).getD false

/-- Whether a text starts with an operator and its right operand, which may carry a sign. -/
def hasOperation (t : Text) : Bool :=
  match trimStart t with
  | c :: rest =>
    isArithmetic c &&
      (hasOperand rest ||
        match trimStart rest with
        | sign :: operand => isSign sign && hasOperand operand
        | [] => false)
  | [] => false

/-- Whether an operator stands between two operands somewhere in a text. -/
def hasCompleteOperation : Text → Bool
  | [] => false
  | c :: t => (endsOperand c && hasOperation t) || hasCompleteOperation t

/-- The characters after which a plus or a minus is a sign: opening brackets, a comma, and the
characters of other operators. -/
def precedesSign (c : Char) : Bool :=
  c = '(' || c = '[' || c = '{' || c = ',' || c = '=' || c = '<' || c = '>' || c = '!'
    || isArithmetic c

/-- The offset of the first operator that is not a sign, in a text at offset `n`. The last character
in front of it that is not blank is `last?`. -/
def firstOperatorFrom? (n : Nat) (last? : Option Char) : Text → Option Nat
  | [] => none
  | c :: t =>
    if isArithmetic c && !(isSign c && (last?.map precedesSign).getD true) then some n
    else firstOperatorFrom? (n + c.utf8Size) (if isBlank c then last? else some c) t

/-- A query with an arithmetic operator has to hold a complete operation. -/
def binaryExpression (_ : Vocabulary) (query : Text) : Option Span :=
  let masked := query.mask
  (firstOperatorFrom? 0 none masked).bind fun n =>
    if hasCompleteOperation masked then none else some (Span.ofLength n 1)

def mentionsArithmetic (query : Text) : Bool :=
  query.mask.any isArithmetic

end PromqlAssist.Rule
