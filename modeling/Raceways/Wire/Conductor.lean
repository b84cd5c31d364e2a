import Raceways.Wire.Area
import Raceways.Wire.Role

/-! Single insulated conductors. -/

namespace Raceways

/-- What is said of a conductor apart from which one it is. -/
structure ConductorSpec where
  role : Role := .hot
  size : Size
  metal : Metal
  insulation : Insulation
  deriving DecidableEq

instance : Inhabited ConductorSpec := ⟨⟨.hot, .awg12, .copper, .thhn⟩⟩

/-- A physical conductor. Two conductors with one id are the same piece of wire. -/
structure Conductor extends ConductorSpec where
  id : Nat
  deriving DecidableEq

namespace Conductor

def isCarrying (c : Conductor) : Bool := c.role.isCarrying

def area (c : Conductor) : Float := (c.insulation.area c.size).toFloat

end Conductor

end Raceways
