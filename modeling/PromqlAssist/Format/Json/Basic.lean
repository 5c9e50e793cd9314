import PromqlAssist.Format.Decimal

/-!
# JSON values

Members of an object keep their order, and a name may occur more than once.
-/

namespace PromqlAssist

inductive Json where
  | null
  | bool (b : Bool)
  /-- A number without fraction and exponent. -/
  | int (n : Int)
  /-- Any other number, as it is written. -/
  | decimal (written : Text)
  | str (t : Text)
  | arr (items : List Json)
  | obj (members : List (Text × Json))
deriving Repr, Inhabited

namespace Json

def ofString (s : String) : Json :=
  .str s.toList

def ofNat (n : Nat) : Json :=
  .int n

/-- An object whose member names are plain strings. -/
def object (members : List (String × Json)) : Json :=
  .obj (members.map fun m => (m.1.toList, m.2))

/-- A member that is left out when it has no value. -/
def optional (name : String) (value? : Option Json) : List (String × Json) :=
  (value?.map fun v => (name, v)).toList

/-- The last member of a name. -/
def member? (name : String) : Json → Option Json
  | .obj members => (members.reverse.find? fun m => m.1 = name.toList).map (·.2)
  | _ => none

def text? : Json → Option Text
  | .str t => some t
  | _ => none

def int? : Json → Option Int
  | .int n => some n
  | _ => none

/-- A number from zero up to, not including, `limit`. -/
def natBelow? (limit : Nat) : Json → Option Nat
  | .int n => if 0 ≤ n ∧ n < limit then some n.toNat else none
  | _ => none

def items? : Json → Option (List Json)
  | .arr items => some items
  | _ => none

end Json

end PromqlAssist
