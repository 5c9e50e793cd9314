import PromqlAssist.Rule.Builtin

/-!
# Validation

A query is held against a list of rules. Every rule that its gate lets through and that finds a
defect gives one finding; findings are not merged. The rule for empty queries is the last word on a
query that breaks it.
-/

namespace PromqlAssist

/-- The finding of one rule, its span moved into the query. -/
def Rule.finding? (r : Rule) (vocabulary : Vocabulary) (query : Text) : Option Finding :=
  if (r.gate?.map fun gate => gate query).getD true then
    (r.check vocabulary query).map fun span =>
      let start := query.clamp span.start
      ⟨r.id, r.message, ⟨start, max (query.clamp span.stop) start⟩⟩
  else none

/-- The findings of a list of rules, up to the first on an empty query. -/
def findings (vocabulary : Vocabulary) (query : Text) : List Rule → List Finding
  | [] => []
  | r :: rules =>
    match r.finding? vocabulary query with
    | none => findings vocabulary query rules
    | some f => f :: if r.id = .emptyQuery then [] else findings vocabulary query rules

/-- The findings of the builtin rules. -/
def validate (vocabulary : Vocabulary) (query : Text) : List Finding :=
  findings vocabulary query Rule.builtin

end PromqlAssist
