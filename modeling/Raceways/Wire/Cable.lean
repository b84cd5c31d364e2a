import Raceways.Wire.Material
import Raceways.Wire.Role
import Raceways.Wire.Size

/-! Cables: several conductors in one jacket, which fill a raceway as one item. -/

namespace Raceways

inductive CableType where
  | ac | mc | nm | nmc | uf | tc
  deriving DecidableEq

namespace CableType

def name : CableType → String
  | ac => "AC"
  | mc => "MC"
  | nm => "NM"
  | nmc => "NMC"
  | uf => "UF"
  | tc => "TC"

instance : Catalog CableType := ⟨[ac, mc, nm, nmc, uf, tc], name⟩

instance : Inhabited CableType := ⟨mc⟩

end CableType

/-- What is said of a cable apart from which one it is. The outer diameter is in inches,
and `==` compares it as a number, so that a cable without one differs from itself. -/
structure CableSpec where
  type : CableType
  size : Size
  metal : Metal := .copper
  diameter : Float
  conductors : List Role := [.hot, .ground]
  deriving BEq, DecidableEq

/-- A physical cable. Two cables with one id are the same cable. -/
structure Cable extends CableSpec where
  id : Nat
  deriving BEq, DecidableEq

namespace Cable

def carryingCount (c : Cable) : Nat := Role.carryingCount c.conductors

/-- The ratio of a circle's circumference to its diameter. -/
def pi : Float := 3.141592653589793

/-- The area of the whole cable in square inches. -/
def area (c : Cable) : Float := pi * c.diameter * c.diameter / 4.0

end Cable

end Raceways
