import Raceways.Designation

/-! The voltage systems a load is fed from. -/

namespace Raceways

/-- A system is named by its voltages, its phases and its wires; `ln` marks a single phase
taken between line and neutral, `ll` one taken between two lines. -/
inductive VoltageSystem where
  | ln120 | ll208 | ll240 | ln277 | ll480
  | split120x240
  | delta208 | wye120x208 | delta240 | delta480 | wye277x480
  deriving DecidableEq

namespace VoltageSystem

def name : VoltageSystem → String
  | ln120 => "120V 1Ø 2W"
  | ll208 => "208V 1Ø 2W"
  | ll240 => "240V 1Ø 2W"
  | ln277 => "277V 1Ø 2W"
  | ll480 => "480V 1Ø 2W"
  | split120x240 => "120/240V 1Ø 3W"
  | delta208 => "208V 3Ø 3W"
  | wye120x208 => "120/208V 3Ø 4W"
  | delta240 => "240V 3Ø 3W"
  | delta480 => "480V 3Ø 3W"
  | wye277x480 => "277/480V 3Ø 4W"

instance : Catalog VoltageSystem where
  all := [ln120, ll208, ll240, ln277, ll480, split120x240, delta208, wye120x208, delta240,
    delta480, wye277x480]
  name := name

/-- The nominal voltage, between lines wherever the system has two of them. -/
def voltage : VoltageSystem → Nat
  | ln120 => 120
  | ll208 | delta208 | wye120x208 => 208
  | ll240 | split120x240 | delta240 => 240
  | ln277 => 277
  | ll480 | delta480 | wye277x480 => 480

def phases : VoltageSystem → Nat
  | delta208 | wye120x208 | delta240 | delta480 | wye277x480 => 3
  | _ => 1

def wires : VoltageSystem → Nat
  | ln120 | ll208 | ll240 | ln277 | ll480 => 2
  | split120x240 | delta208 | delta240 | delta480 => 3
  | wye120x208 | wye277x480 => 4

def hasNeutral : VoltageSystem → Bool
  | ln120 | ln277 | split120x240 | wye120x208 | wye277x480 => true
  | _ => false

end VoltageSystem

end Raceways
