import Raceways.Supply.VoltageSystem
import Raceways.Wire.Role

/-! The conductors of one set. -/

namespace Raceways

/-- Every set has a hot conductor of phase A and a ground. A layout says what it has besides. -/
structure Layout where
  phaseB : Bool
  phaseC : Bool
  neutral : Option Role
  deriving DecidableEq

namespace Layout

/-- The neutral of a system. With three phases it is loaded only by nonlinear loads. -/
def neutralOf (s : VoltageSystem) (nonlinear : Bool) : Option Role :=
  if !s.hasNeutral then none
  else if s.phases = 3 ∧ !nonlinear then some .balancedNeutral
  else some .loadedNeutral

/-- The set that a system requires. Phase B is missing only between line and neutral. -/
def ofSystem (s : VoltageSystem) (nonlinear : Bool) : Layout where
  phaseB := s.phases = 3 || s.wires = 3 || !s.hasNeutral
  phaseC := s.phases = 3
  neutral := neutralOf s nonlinear

/-- The roles of the set in order: the phases, the neutral, the ground. -/
def roles (l : Layout) : List Role :=
  .hot :: ((if l.phaseB then [.hot] else []) ++ (if l.phaseC then [.hot] else [])
    ++ l.neutral.toList ++ [.ground])

/-- The number of conductors in the set. -/
def size (l : Layout) : Nat :=
  2 + l.phaseB.toNat + l.phaseC.toNat + l.neutral.isSome.toNat

theorem roles_length (l : Layout) : l.roles.length = l.size := by
  obtain ⟨b, c, n⟩ := l
  cases b <;> cases c <;> cases n <;> rfl

end Layout

end Raceways
