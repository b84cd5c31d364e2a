import Raceways.Wire.Cable
import Raceways.Wire.Conductor

/-! What a raceway is filled with: single conductors and whole cables. -/

namespace Raceways

inductive Item where
  | conductor (c : Conductor)
  | cable (c : Cable)
  deriving BEq, DecidableEq

namespace Item

def id : Item → Nat
  | conductor c => c.id
  | cable c => c.id

def size : Item → Size
  | conductor c => c.size
  | cable c => c.size

/-- A cable has no role of its own. -/
def role : Item → Option Role
  | conductor c => some c.role
  | cable _ => none

def isCable : Item → Bool
  | conductor _ => false
  | cable _ => true

def area : Item → Float
  | conductor c => c.area
  | cable c => c.area

/-- The number of current-carrying conductors in the item. -/
def carryingCount : Item → Nat
  | conductor c => c.isCarrying.toNat
  | cable c => c.carryingCount

/-- Another item with the same attributes. -/
def withId (n : Nat) : Item → Item
  | conductor c => conductor { c with id := n }
  | cable c => cable { c with id := n }

/-- The item in another size. A cable keeps its own. -/
def withWireSize (s : Size) : Item → Item
  | conductor c => conductor { c with size := s }
  | cable c => cable c

@[simp] theorem id_withId (n : Nat) (i : Item) : (i.withId n).id = n := by
  cases i <;> rfl

@[simp] theorem role_withId (n : Nat) (i : Item) : (i.withId n).role = i.role := by
  cases i <;> rfl

@[simp] theorem id_withWireSize (s : Size) (i : Item) : (i.withWireSize s).id = i.id := by
  cases i <;> rfl

@[simp] theorem role_withWireSize (s : Size) (i : Item) :
    (i.withWireSize s).role = i.role := by
  cases i <;> rfl

end Item

end Raceways
