import PromqlAssist.Proofs.Grammar.Lexeme

/-!
# Well-formed queries

A query is built from numbers, selectors and calls by aggregation, parentheses, signs and binary
operators. Where signs pile up in front of an operand, an operator in front of them is only told
from one more sign if there are few: a sign counts how many start its expression, and a binary
operator says how many its right side may start with.
-/

namespace PromqlAssist

/-- Whether the right side of an operator may start with `n` signs. -/
def BinaryCategory.Admits : BinaryCategory → Nat → Prop
  | .arithmetic, n => n ≤ 1
  | .comparison, _ => True
  | .set, n => n ≤ 2

namespace Grammar

open Text

/-- A function of a kind. -/
structure FunctionOf (kind : FunctionKind) where
  function : QueryFunction
  known : function ∈ QueryFunction.all
  isKind : function.kind = kind

theorem FunctionOf.isIdent_of_mem {kind : FunctionKind} (f : FunctionOf kind) {c : Char}
    (h : c ∈ f.function.name.toList) : isIdent c := by
  have names : ∀ f ∈ QueryFunction.all, ∀ c ∈ f.name.toList, isIdent c := by
    decide +kernel
  exact names f.function f.known c h

theorem FunctionOf.name_ne_nil {kind : FunctionKind} (f : FunctionOf kind) :
    f.function.name.toList ≠ [] := by
  have names : ∀ f ∈ QueryFunction.all, f.name.toList ≠ [] := by
    decide +kernel
  exact names f.function f.known

/-- An aggregation keyword. -/
structure Aggregation where
  op : Operator
  known : op ∈ Operator.aggregations

theorem Aggregation.isIdent_of_mem (a : Aggregation) {c : Char} (h : c ∈ a.op.token.toList) :
    isIdent c := by
  have keywords : ∀ op ∈ Operator.aggregations, ∀ c ∈ op.token.toList, isIdent c := by decide
  exact keywords a.op a.known c h

theorem Aggregation.token_ne_nil (a : Aggregation) : a.op.token.toList ≠ [] := by
  have keywords : ∀ op ∈ Operator.aggregations, op.token.toList ≠ [] := by decide
  exact keywords a.op a.known

structure Binary where
  op : BinaryOperator
  known : op ∈ Operator.binaries

inductive Sign where
  | plus
  | minus

def Sign.char : Sign → Char
  | .plus => '+'
  | .minus => '-'

/-- What a part of a query is: an operand, an expression that starts with a number of signs, or one
or more arguments of a call. -/
inductive Kind where
  | operand
  | expression (signs : Nat)
  | argument
  | arguments

/-- The parts of well-formed queries. -/
inductive Part : Kind → Type where
  | number (value : Number) : Part .operand
  | selector (s : Selector) : Part .operand
  | rangeCall (f : FunctionOf .rangeVector) (s : Selector) (range : Range) : Part .operand
  | call (f : FunctionOf .utility) (args : Part .arguments) : Part .operand
  | aggregate (a : Aggregation) (args : Part .arguments) : Part .operand
  | aggregateBy (a : Aggregation) (clause : Clause) (args : Part .arguments) : Part .operand
  | aggregateOver (a : Aggregation) (args : Part .arguments) (clause : Clause) : Part .operand
  | group {n : Nat} (e : Part (.expression n)) : Part .operand
  | operand (e : Part .operand) : Part (.expression 0)
  | signed {n : Nat} (sign : Sign) (e : Part (.expression n)) : Part (.expression (n + 1))
  | binary {m n : Nat} (left : Part (.expression m)) (op : Binary) (right : Part (.expression n))
    (admits : op.op.category.Admits n) : Part (.expression m)
  | argument {n : Nat} (e : Part (.expression n)) : Part .argument
  | string (s : StringLiteral) : Part .argument
  | last (arg : Part .argument) : Part .arguments
  | more (arg : Part .argument) (args : Part .arguments) : Part .arguments

namespace Part

variable {k : Kind}

/-- The characters of a part, with a given spelling of strings. -/
def render (spell : StringLiteral → Text) : {k : Kind} → Part k → Text
  | _, .number value => value.text
  | _, .selector s => s.render spell
  | _, .rangeCall f s range =>
    f.function.name.toList ++ '(' :: (s.render spell ++ '[' :: (range.text ++ [']', ')']))
  | _, .call f args => f.function.name.toList ++ '(' :: (args.render spell ++ [')'])
  | _, .aggregate a args => a.op.token.toList ++ '(' :: (args.render spell ++ [')'])
  | _, .aggregateBy a clause args =>
    a.op.token.toList ++ ' ' :: (clause.text ++ ' ' :: '(' :: (args.render spell ++ [')']))
  | _, .aggregateOver a args clause =>
    a.op.token.toList ++ '(' :: (args.render spell ++ ')' :: ' ' :: clause.text)
  | _, .group e => '(' :: (e.render spell ++ [')'])
  | _, .operand e => e.render spell
  | _, .signed sign e => sign.char :: e.render spell
  | _, .binary left op right _ =>
    left.render spell ++ ' ' :: (op.op.token.toList ++ ' ' :: right.render spell)
  | _, .argument e => e.render spell
  | _, .string s => spell s
  | _, .last arg => arg.render spell
  | _, .more arg args => arg.render spell ++ ',' :: ' ' :: args.render spell

def text (q : Part k) : Text :=
  q.render StringLiteral.text

def masked (q : Part k) : Text :=
  q.render StringLiteral.masked

/-- The metrics of the selectors. -/
def metrics : {k : Kind} → Part k → List Text
  | _, .number _ => []
  | _, .selector s => [s.metric.text]
  | _, .rangeCall _ s _ => [s.metric.text]
  | _, .call _ args => args.metrics
  | _, .aggregate _ args => args.metrics
  | _, .aggregateBy _ _ args => args.metrics
  | _, .aggregateOver _ args _ => args.metrics
  | _, .group e => e.metrics
  | _, .operand e => e.metrics
  | _, .signed _ e => e.metrics
  | _, .binary left _ right _ => left.metrics ++ right.metrics
  | _, .argument e => e.metrics
  | _, .string _ => []
  | _, .last arg => arg.metrics
  | _, .more arg args => arg.metrics ++ args.metrics

end Part

/-- A well-formed query. -/
abbrev Query (signs : Nat) := Part (.expression signs)

end Grammar

end PromqlAssist
