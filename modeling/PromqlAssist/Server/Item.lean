import PromqlAssist.Completion.Proposal
import PromqlAssist.Server.Diagnostic

/-!
# Completion items

A completion item is a proposal in the terms of the language server protocol.
-/

namespace PromqlAssist

structure CompletionItem where
  label : String
  kind : Nat
  detail? : Option String
  documentation? : Option String
  /-- Clients order items by this text. -/
  sortText : Text
  isSnippet : Bool
  range : PositionRange
  newText : Text
deriving DecidableEq, Repr

namespace CompletionItem

/-- The protocol's number for the kind of thing that an item inserts. -/
def kindOf : Category → Nat
  | .template => 15
  | .aggregation | .function => 3
  | .grouping | .modifier => 14
  | .binaryOperator | .matcher => 24
  | .metric => 6
  | .label => 5
  | .duration | .value => 12

/-- The rank of a category, then the place in the ranked list in five digits or more. -/
def sortTextOf (category : Category) (index : Nat) : Text :=
  Decimal.render category.rank ++ Decimal.renderPadded 5 index

/-- The item of the proposal at a place in the ranked list. -/
def ofProposal (text : Text) (index : Nat) (p : Proposal) : CompletionItem where
  label := p.label
  kind := kindOf p.category
  detail? := p.detail?
  documentation? := p.documentation?
  sortText := sortTextOf p.category index
  isSnippet := p.isSnippet
  range := .ofSpan text p.span
  newText := p.insertText

def ofProposals (text : Text) (ps : List Proposal) : List CompletionItem :=
  ps.mapIdx (ofProposal text)

def toJson (i : CompletionItem) : Json :=
  Json.object ([("label", .ofString i.label), ("kind", .ofNat i.kind)]
    ++ Json.optional "detail" (i.detail?.map .ofString)
    ++ Json.optional "documentation" (i.documentation?.map fun d =>
      Json.object [("kind", .ofString "markdown"), ("value", .ofString d)])
    ++ [("sortText", .str i.sortText), ("filterText", .ofString i.label),
      ("insertTextFormat", .ofNat (if i.isSnippet then 2 else 1)),
      ("textEdit", Json.object [("range", i.range.toJson), ("newText", .str i.newText)])])

end CompletionItem

end PromqlAssist
