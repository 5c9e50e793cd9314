import PromqlAssist.Text.Basic

/-!
# Configuration values

The values of a configuration document in TOML: tables of named values, which may be tables again.
-/

namespace PromqlAssist

/-- How a table comes about. It decides what may still be added to the table. -/
inductive TableOrigin where
  /-- It has a header of its own, or it is the whole document. -/
  | header
  /-- It is on the way to the table of a header. -/
  | implied
  /-- It is on the way to the value of a dotted key. -/
  | dotted
  /-- It is written in braces, and complete. -/
  | inline
deriving DecidableEq, Repr

inductive Toml where
  | string (t : Text)
  | integer (n : Int)
  /-- A number with fraction or exponent, of which only its being in range is kept. -/
  | float (inRange : Bool)
  | boolean (b : Bool)
  /-- A date, a time, or both. -/
  | dateTime
  | array (items : List Toml)
  /-- Tables under one name, each with a header of its own. -/
  | tables (items : List Toml)
  | table (origin : TableOrigin) (entries : List (Text × Toml))
deriving Repr, Inhabited

/-- Named values. -/
abbrev TomlEntries := List (Text × Toml)

namespace Toml

def emptyTable : Toml :=
  .table .header []

mutual

/-- Whether every number in a value is in the range that readers of unknown values accept. -/
def inRange : Toml → Bool
  | .integer n => -Int.pow 2 127 ≤ n && n < Int.pow 2 128
  | .float ok => ok
  | .array items => allInRange items
  | .tables items => allInRange items
  | .table _ entries => entriesInRange entries
  | _ => true

def allInRange : List Toml → Bool
  | [] => true
  | v :: rest => inRange v && allInRange rest

def entriesInRange : List (Text × Toml) → Bool
  | [] => true
  | (_, v) :: rest => inRange v && entriesInRange rest

end

end Toml

end PromqlAssist
