import Raceways.Raceway.ConduitArea
import Raceways.Raceway.Fill

/-! Conduits. -/

namespace Raceways

/-- What is said of a conduit apart from what is in it. A nipple is no longer than two feet;
`rooftop` is the distance above a rooftop in inches, if the conduit runs over one. -/
structure ConduitSpec where
  type : ConduitType := default
  trade : TradeSize := default
  nipple : Bool := false
  rooftop : Option Float := none
  deriving BEq, DecidableEq

structure Conduit extends ConduitSpec where
  contents : Contents := Ascending.empty
  deriving BEq, DecidableEq

/-- Changes to some of what is said of a conduit. -/
structure ConduitEdit where
  type : Option ConduitType := none
  trade : Option TradeSize := none
  nipple : Option Bool := none
  rooftop : Option (Option Float) := none

namespace ConduitEdit

def apply (e : ConduitEdit) (s : ConduitSpec) : ConduitSpec where
  type := e.type.getD s.type
  trade := e.trade.getD s.trade
  nipple := e.nipple.getD s.nipple
  rooftop := e.rooftop.getD s.rooftop

end ConduitEdit

namespace Conduit

/-- The conduit with the given contents and everything else as it is. -/
def withContents (c : Contents) (k : Conduit) : Conduit := { k with contents := c }

def edit (e : ConduitEdit) (k : Conduit) : Conduit :=
  { k with toConduitSpec := e.apply k.toConduitSpec }

def allowedPercent (k : Conduit) : Nat := Fill.allowedPercent k.nipple k.contents.size

section

variable {α : Type} [Quantity α]

/-- The internal area in square inches, if the conduit is made in its trade size. -/
def space? (k : Conduit) : Option α := (k.type.area? k.trade).map Quantity.ofDecimal

/-- The percentage of the conduit that is filled, by the given areas of items. -/
def percentBy (area : Item → α) (k : Conduit) : α :=
  Fill.percentage k.space? (Fill.total area k.contents)

/-- Whether the conduit is filled as allowed, by the given areas of items. -/
def compliesBy (area : Item → α) (k : Conduit) : Bool :=
  Fill.complies k.space? (Fill.total area k.contents) k.nipple k.contents.size

end

def area? (k : Conduit) : Option Float := k.space?

def filledArea (k : Conduit) : Float := Fill.total Item.area k.contents

def filledPercent (k : Conduit) : Float := k.percentBy Item.area

def complies (k : Conduit) : Bool := k.compliesBy Item.area

/-- Conduits less than this distance above a rooftop, in inches, are heated by it
(NEC 310.15(B)(2)). -/
def rooftopLimit : Decimal := ⟨875, 3⟩

/-- What the rooftop adds to the temperature, in degrees Celsius. -/
def rooftopAdder (k : Conduit) : Nat :=
  if k.rooftop.any (fun d => d < rooftopLimit.toFloat) then 33 else 0

end Conduit

end Raceways
