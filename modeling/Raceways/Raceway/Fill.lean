import Raceways.Quantity
import Raceways.Raceway.Contents

/-!
How full a conduit is and may be (NEC Chapter 9, Table 1 and Note 4). The area of an item is a
parameter, and so is the kind of quantity it is measured in.
-/

namespace Raceways

namespace Fill

variable {α : Type} [Quantity α]

/-- The area of all items together, added up in order of id. -/
def total (area : Item → α) (c : Contents) : α :=
  c.toList.foldl (fun sum i => sum + area i) (Quantity.whole 0)

/-- The percentage of the space that is filled. A conduit that is not made has no space and
counts as empty. -/
def percentage (space : Option α) (filled : α) : α :=
  match space with
  | some s => Quantity.whole 100 * filled / s
  | none => Quantity.whole 0

def allowedPercent (nipple : Bool) (count : Nat) : Nat :=
  if nipple then 60
  else if count ≤ 1 then 53
  else if count = 2 then 31
  else 40

/-- A conduit complies if it is made and not filled beyond what is allowed. -/
def complies (space : Option α) (filled : α) (nipple : Bool) (count : Nat) : Bool :=
  space.isSome && percentage space filled ≤ Quantity.whole (allowedPercent nipple count)

end Fill

end Raceways
