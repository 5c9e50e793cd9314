import PromqlAssist.Completion.Proposal
import PromqlAssist.Format.Json.Printer
import PromqlAssist.Template.Basic

/-!
# Listings

Proposals and templates as they are printed: in lines for readers, or in JSON.
-/

namespace PromqlAssist

namespace Proposal

/-- A proposal with its members in the order of its fields. -/
def toJson (p : Proposal) : Json :=
  Json.object ([("label", .ofString p.label), ("category", .ofString p.category.name),
    ("insert_text", .str p.insertText),
    ("insert_format", .ofString (if p.isSnippet then "snippet" else "plain")),
    ("range", Json.object [("start", .ofNat p.span.start), ("end", .ofNat p.span.stop)])]
    ++ Json.optional "detail" (p.detail?.map .ofString)
    ++ Json.optional "documentation" (p.documentation?.map .ofString))

end Proposal

namespace Template

/-- A template with its members in alphabetical order. -/
def toJson (t : Template) : Json :=
  Json.object [("description", .ofString t.description), ("example", .str t.rendered),
    ("name", .ofString t.name),
    ("parameters", .arr (t.parameters.map fun p =>
      Json.object [("default", .ofString p.default), ("kind", .ofString p.kind.name),
        ("name", .ofString p.name), ("optional", .bool p.optional)])),
    ("skeleton", .ofString t.skeleton)]

end Template

namespace Listing

/-- A text with blanks behind it up to a width in characters. -/
def padded (width : Nat) (t : Text) : Text :=
  t ++ List.replicate (width - t.length) ' '

/-- Proposals in columns. The first is as wide as the longest label has bytes. -/
def proposals (ps : List Proposal) : Text :=
  let width := (ps.map fun p => Text.size p.label.toList).foldl max 0
  List.intercalate ['\n'] (ps.map fun p =>
    padded width p.label.toList ++ "  ".toList ++ padded 15 p.category.name.toList ++ "  ".toList
      ++ (p.detail?.getD "").toList)

def template (t : Template) : Text :=
  (t.name ++ " - " ++ t.description).toList ++ '\n' :: "    ".toList ++ t.rendered

def templates (ts : List Template) : Text :=
  List.intercalate ['\n'] (ts.map template)

end Listing

end PromqlAssist
