import PromqlAssist.Format.Toml.Basic

/-!
# Growing tables

Where a value goes under a dotted key, and which table a path leads to. No value ever replaces
another, and a table that is complete is not added to.
-/

namespace PromqlAssist.Toml

/-- Changes the value under a name, or adds one at the end. -/
def alter (name : Text) (f : Option Toml → Option Toml) : TomlEntries → Option TomlEntries
  | [] => (f none).map fun v => [(name, v)]
  | (n, v) :: rest =>
    if n = name then (f (some v)).map fun v => (n, v) :: rest
    else (alter name f rest).map fun rest => (n, v) :: rest

/-- Changes the last item of a list. -/
def alterLast (f : Toml → Option Toml) : List Toml → Option (List Toml)
  | [] => none
  | [v] => (f v).map fun v => [v]
  | v :: w :: rest => (alterLast f (w :: rest)).map (v :: ·)

/-- Changes the table that a path of headers leads to. Tables on the way come into being when they
are missing, and of tables under one name the last is meant. -/
def inTable (f : TomlEntries → Option TomlEntries) : List Text → TomlEntries → Option TomlEntries
  | [], entries => f entries
  | name :: path, entries =>
    alter name (fun
      | none => (inTable f path []).map (.table .implied)
      | some (.table .inline _) => none
      | some (.table origin inner) => (inTable f path inner).map (.table origin)
      | some (.tables items) =>
        (alterLast (fun
          | .table origin inner => (inTable f path inner).map (.table origin)
          | _ => none) items).map .tables
      | some _ => none) entries

/-- Puts a value under a dotted key. The tables on the way are those that dotted keys have made, and
the last of them has to be one; others may only be passed when headers implied them. -/
def assign (value : Toml) : List Text → TomlEntries → Option TomlEntries
  | [], _ => none
  | [name], entries =>
    alter name (fun
      | none => some value
      | some _ => none) entries
  | name :: next :: path, entries =>
    alter name (fun
      | none => (assign value (next :: path) []).map (.table .dotted)
      | some (.table .dotted inner) => (assign value (next :: path) inner).map (.table .dotted)
      | some (.table .implied inner) =>
        if path.isEmpty then none
        else (assign value (next :: path) inner).map (.table .implied)
      | some (.tables items) =>
        if path.isEmpty then none
        else
          (alterLast (fun
            | .table origin inner => (assign value (next :: path) inner).map (.table origin)
            | _ => none) items).map .tables
      | some _ => none) entries

/-- Opens the table of a header. It may have been implied before, but not be there otherwise. -/
def openTable : List Text → TomlEntries → Option TomlEntries
  | [], _ => none
  | path@(_ :: _), entries =>
    inTable (alter (path.getLast (by simp_all)) fun
      | none => some emptyTable
      | some (.table .implied inner) => some (.table .header inner)
      | some _ => none) path.dropLast entries

/-- Opens one more of the tables under one name. -/
def openItem : List Text → TomlEntries → Option TomlEntries
  | [], _ => none
  | path@(_ :: _), entries =>
    inTable (alter (path.getLast (by simp_all)) fun
      | none => some (.tables [emptyTable])
      | some (.tables items) => some (.tables (items ++ [emptyTable]))
      | some _ => none) path.dropLast entries

end PromqlAssist.Toml
