import Raceways.Designation

/-! Conductor sizes, from AWG 14 up to 1000 kcmil. -/

namespace Raceways

inductive Size where
  | awg14 | awg12 | awg10 | awg8 | awg6 | awg4 | awg3 | awg2 | awg1
  | aught1 | aught2 | aught3 | aught4
  | kcmil250 | kcmil300 | kcmil350 | kcmil400 | kcmil500 | kcmil600
  | kcmil700 | kcmil750 | kcmil800 | kcmil900 | kcmil1000
  deriving DecidableEq

namespace Size

def name : Size → String
  | awg14 => "AWG 14"
  | awg12 => "AWG 12"
  | awg10 => "AWG 10"
  | awg8 => "AWG 8"
  | awg6 => "AWG 6"
  | awg4 => "AWG 4"
  | awg3 => "AWG 3"
  | awg2 => "AWG 2"
  | awg1 => "AWG 1"
  | aught1 => "AWG 1/0"
  | aught2 => "AWG 2/0"
  | aught3 => "AWG 3/0"
  | aught4 => "AWG 4/0"
  | kcmil250 => "250 KCMIL"
  | kcmil300 => "300 KCMIL"
  | kcmil350 => "350 KCMIL"
  | kcmil400 => "400 KCMIL"
  | kcmil500 => "500 KCMIL"
  | kcmil600 => "600 KCMIL"
  | kcmil700 => "700 KCMIL"
  | kcmil750 => "750 KCMIL"
  | kcmil800 => "800 KCMIL"
  | kcmil900 => "900 KCMIL"
  | kcmil1000 => "1000 KCMIL"

/-- The sizes from the smallest to the largest. -/
instance : Catalog Size where
  all := [awg14, awg12, awg10, awg8, awg6, awg4, awg3, awg2, awg1, aught1, aught2, aught3,
    aught4, kcmil250, kcmil300, kcmil350, kcmil400, kcmil500, kcmil600, kcmil700, kcmil750,
    kcmil800, kcmil900, kcmil1000]
  name := name

/-- The place of a size in the order of sizes. -/
def rank (s : Size) : Fin 24 := ⟨s.ctorIdx, by cases s <;> decide⟩

instance : Ord Size := ⟨fun a b => compare a.rank b.rank⟩

end Size

end Raceways
