/-!
# History

A bounded list of what has been run, the newest last.
-/

namespace PromqlAssist

structure History (α : Type) where
  capacity : Nat
  entries : List α
deriving DecidableEq, Repr

namespace History

variable {α : Type}

def defaultCapacity : Nat :=
  100

def ofCapacity (capacity : Nat) : History α :=
  ⟨capacity, []⟩

/-- Adds an entry. In a full history it takes the place of the oldest. -/
def append (h : History α) (entry : α) : History α :=
  { h with
    entries := (if h.entries.length = h.capacity then h.entries.drop 1 else h.entries) ++ [entry] }

def latest? (h : History α) : Option α :=
  h.entries.getLast?

def oldest? (h : History α) : Option α :=
  h.entries.head?

end History

end PromqlAssist
