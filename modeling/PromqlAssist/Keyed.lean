/-!
# Values by key

A list of values under keys. A key occurs at most once, and keeps its place when its value changes.
-/

namespace PromqlAssist

/-- Values under keys, in the order in which the keys came. -/
abbrev Keyed (α : Type) := List (String × α)

namespace Keyed

variable {α : Type}

def get? (key : String) (entries : Keyed α) : Option α :=
  entries.lookup key

/-- Puts a value under a key. -/
def put (key : String) (value : α) : Keyed α → Keyed α
  | [] => [(key, value)]
  | (k, v) :: rest => if k = key then (k, value) :: rest else (k, v) :: put key value rest

def erase (key : String) (entries : Keyed α) : Keyed α :=
  entries.filter fun e => e.1 ≠ key

def mapValues (f : α → α) (entries : Keyed α) : Keyed α :=
  entries.map fun e => (e.1, f e.2)

end Keyed

end PromqlAssist
