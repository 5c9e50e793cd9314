import PromqlAssist.Format.Toml.Statement

/-!
# Configuration documents

A document is the table that its statements build up.
-/

namespace PromqlAssist.Toml

/-- Carries out statements. `current` is the path of the open table. -/
def build (current : List Text) (root : TomlEntries) : List TomlStatement → Option TomlEntries
  | [] => some root
  | .assign path value :: rest => do
    build current (← inTable (assign value path) current root) rest
  | .header path :: rest => do build path (← openTable path root) rest
  | .arrayHeader path :: rest => do build path (← openItem path root) rest

/-- The text behind a byte order mark at its start. -/
def dropMark : Text → Text
  | c :: t => if c = '\uFEFF' then t else c :: t
  | [] => []

/-- The entries of a document. -/
def document? (t : Text) : Option TomlEntries := do
  let t := dropMark t
  build [] [] (← statements? (t.length + 1) t)

end PromqlAssist.Toml
