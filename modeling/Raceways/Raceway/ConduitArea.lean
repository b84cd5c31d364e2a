import Raceways.Quantity
import Raceways.Raceway.ConduitSize

/-!
Internal areas of conduits (NEC Chapter 9, Table 4), one row of the table per type and one column
per trade size, in thousandths of a square inch. Not every trade size is made for every type.
-/

namespace Raceways

namespace ConduitType

def areas : ConduitType → Vector (Option Nat) 13
  | emt => #v[
    none, some 304, some 533, some 864, some 1496, some 2036, some 3356, some 5858,
    some 8846, some 11545, some 14753, none, none]
  | ent => #v[
    none, some 285, some 508, some 832, some 1453, some 1986, some 3291, none, none,
    none, none, none, none]
  | fmc => #v[
    some 116, some 317, some 533, some 817, some 1277, some 1858, some 3269, some 4909,
    some 7069, some 9621, some 12566, none, none]
  | imc => #v[
    none, some 342, some 586, some 959, some 1647, some 2225, some 3630, some 5135,
    some 7922, some 10584, some 13631, none, none]
  | lfmc => #v[
    some 192, some 314, some 541, some 873, some 1277, some 1858, some 3269, some 4909,
    some 7069, some 9621, some 12566, none, none]
  | rmc => #v[
    none, some 314, some 549, some 887, some 1526, some 2071, some 3408, some 4866,
    some 7499, some 10010, some 12882, some 20212, some 29158]
  | pvc40 => #v[
    none, some 285, some 508, some 832, some 1453, some 1986, some 3291, some 4695,
    some 7268, some 9737, some 12554, some 19761, some 28567]
  | pvc80 => #v[
    none, some 217, some 409, some 688, some 1237, some 1711, some 2874, some 4119,
    some 6442, some 8688, some 11258, some 17855, some 25598]

/-- The internal area in square inches, if conduits of that trade size are made. -/
def area? (t : ConduitType) (trade : TradeSize) : Option Decimal :=
  t.areas[trade.rank].map (fun n => ⟨n, 3⟩)

end ConduitType

end Raceways
