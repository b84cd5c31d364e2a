import Raceways.Ascending
import Raceways.Wire.Item

/-! The items in a raceway: at most one per id, in ascending order of id. -/

namespace Raceways

namespace Item

/-- The id as a key that contents are kept in order of. -/
def key (i : Item) : Int := i.id

end Item

abbrev Contents := Ascending Item.key

namespace Contents

def adding (items : List Item) (c : Contents) : Contents := c.putAll items

def without (items : List Item) (c : Contents) : Contents := c.eraseAll items

def ids (c : Contents) : List Nat := c.toList.map Item.id

def holds (c : Contents) (id : Nat) : Bool := c.contains id

def carryingCount (c : Contents) : Nat :=
  c.toList.foldl (fun n i => n + i.carryingCount) 0

end Contents

end Raceways
