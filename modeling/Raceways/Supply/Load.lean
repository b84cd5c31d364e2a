import Raceways.Supply.VoltageSystem

/-! Loads, as the circuits that feed them see them. -/

namespace Raceways

/-- What a load reports: its system, the least ampacity of the conductors that feed it, the
greatest rating of the device that protects it (zero for no limit), and whether the next
higher standard rating may be used. A load may also carry a verdict of its own on whether
it is valid. -/
structure Load where
  system : VoltageSystem
  ampacity : Float
  deviceLimit : Float := 0
  nextHigher : Bool := true
  verdict : Option Bool := none
  deriving BEq, DecidableEq

namespace Load

/-- Finite and not negative. -/
def isUsable (x : Float) : Bool := x.isFinite && 0 ≤ x

/-- A load without a verdict is valid when a circuit can be sized from its quantities. -/
def isValid (l : Load) : Bool :=
  l.verdict.getD (isUsable l.ampacity && isUsable l.deviceLimit)

/-- The ampacity that the protecting device is selected for. -/
def target (l : Load) : Float :=
  if 0 < l.deviceLimit then l.deviceLimit else l.ampacity

end Load

end Raceways
