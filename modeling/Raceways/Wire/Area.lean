import Raceways.Quantity
import Raceways.Wire.Size
import Raceways.Wire.Material

/-!
Cross-sectional areas of insulated conductors (NEC Chapter 9, Table 5), one row of the table per
insulation and one column per size, in ten-thousandths of a square inch.
-/

namespace Raceways

namespace Insulation

def areasThw : Vector Nat 24 := #v[
  209, 260, 333, 556, 726, 973, 1134, 1333, 1901, 2223, 2624, 3117, 3718, 4596, 5281,
  5958, 6619, 7901, 9729, 11010, 11652, 12272, 13561, 14784]

def areasThhn : Vector Nat 24 := #v[
  97, 133, 211, 366, 507, 824, 973, 1158, 1562, 1855, 2223, 2679, 3237, 3970, 4608,
  5242, 5863, 7073, 8676, 9887, 10496, 11085, 12311, 13478]

def areasXhhw : Vector Nat 24 := #v[
  139, 181, 243, 437, 590, 814, 962, 1146, 1534, 1825, 2190, 2642, 3197, 3904, 4536,
  5166, 5782, 6984, 8709, 9923, 10532, 11122, 12351, 13519]

/-- THWN-2 has the dimensions of THHN, and XHHW-2 those of XHHW. -/
def areas : Insulation → Vector Nat 24
  | thw => areasThw
  | thhn | thwn2 => areasThhn
  | xhhw | xhhw2 => areasXhhw

/-- The area of a conductor of the given size in square inches. -/
def area (i : Insulation) (size : Size) : Decimal := ⟨i.areas[size.rank], 4⟩

end Insulation

end Raceways
