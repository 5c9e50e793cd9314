import PromqlAssist.Rule.Basic

/-!
# Known metrics

A query has to mention a metric of the vocabulary.
-/

namespace PromqlAssist.Rule

/-- The query has to contain the name of a known metric, be it inside another word or a string. -/
def metricPresence (vocabulary : Vocabulary) (query : Text) : Option Span :=
  if vocabulary.metrics.any fun m => Text.hasInfix m.toList query then none
  else some ⟨0, query.size⟩

end PromqlAssist.Rule
