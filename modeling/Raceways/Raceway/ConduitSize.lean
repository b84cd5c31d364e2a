import Raceways.Designation

/-! The types conduits are made in, and their trade sizes from 3/8 to 6 inches. -/

namespace Raceways

inductive ConduitType where
  | emt | ent | fmc | imc | lfmc | rmc | pvc40 | pvc80
  deriving DecidableEq

namespace ConduitType

def name : ConduitType → String
  | emt => "EMT"
  | ent => "ENT"
  | fmc => "FMC"
  | imc => "IMC"
  | lfmc => "LFMC"
  | rmc => "RMC"
  | pvc40 => "PVC-40"
  | pvc80 => "PVC-80"

instance : Catalog ConduitType := ⟨[emt, ent, fmc, imc, lfmc, rmc, pvc40, pvc80], name⟩

instance : Inhabited ConduitType := ⟨pvc40⟩

end ConduitType

inductive TradeSize where
  | threeEighths | half | threeQuarters | one | oneAndQuarter | oneAndHalf | two | twoAndHalf
  | three | threeAndHalf | four | five | six
  deriving DecidableEq

namespace TradeSize

def name : TradeSize → String
  | threeEighths => "3/8\""
  | half => "1/2\""
  | threeQuarters => "3/4\""
  | one => "1\""
  | oneAndQuarter => "1-1/4\""
  | oneAndHalf => "1-1/2\""
  | two => "2\""
  | twoAndHalf => "2-1/2\""
  | three => "3\""
  | threeAndHalf => "3-1/2\""
  | four => "4\""
  | five => "5\""
  | six => "6\""

/-- The trade sizes from the smallest to the largest. -/
instance : Catalog TradeSize where
  all := [threeEighths, half, threeQuarters, one, oneAndQuarter, oneAndHalf, two, twoAndHalf,
    three, threeAndHalf, four, five, six]
  name := name

instance : Inhabited TradeSize := ⟨half⟩

/-- The place of a trade size in the order of trade sizes. -/
def rank (t : TradeSize) : Fin 13 := ⟨t.ctorIdx, by cases t <;> decide⟩

instance : Ord TradeSize := ⟨fun a b => compare a.rank b.rank⟩

end TradeSize

end Raceways
