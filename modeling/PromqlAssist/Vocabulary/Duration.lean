import PromqlAssist.Text.Basic

/-!
# Durations

The units of a duration, and the durations that are offered for a time range.
-/

namespace PromqlAssist

/-- A unit of time. -/
structure TimeUnit where
  symbol : String
  description : String
deriving DecidableEq, Repr

namespace TimeUnit

/-- Every unit. -/
def all : List TimeUnit :=
  [⟨"ms", "milliseconds"⟩,
   ⟨"s", "seconds"⟩,
   ⟨"m", "minutes"⟩,
   ⟨"h", "hours"⟩,
   ⟨"d", "days"⟩,
   ⟨"w", "weeks"⟩,
   ⟨"y", "years"⟩]

/-- The name of a unit in the plural. -/
def describe? (symbol : String) : Option String :=
  (all.find? fun u => u.symbol = symbol).map (·.description)

/-- The unit whose symbol a text starts with, and the text behind it. A symbol comes before the
shorter ones that it extends, so the symbol found is the longest. -/
def ofStart? (t : Text) : Option (TimeUnit × Text) :=
  all.findSome? fun u => (Text.dropPart? u.symbol.toList t).map fun rest => (u, rest)

theorem ofStart?_length_le {t rest : Text} {u : TimeUnit} (h : ofStart? t = some (u, rest)) :
    rest.length ≤ t.length := by
  obtain ⟨v, -, hv⟩ := List.exists_of_findSome?_eq_some h
  obtain ⟨r, hr, heq⟩ := Option.map_eq_some_iff.1 hv
  obtain ⟨-, rfl⟩ := Prod.mk.inj heq
  exact Text.dropPart?_length_le hr

end TimeUnit

/-- The durations offered for a time range. -/
def rangePresets : List String :=
  ["1m", "5m", "10m", "15m", "30m", "1h", "3h", "6h", "12h", "1d", "7d"]

end PromqlAssist
