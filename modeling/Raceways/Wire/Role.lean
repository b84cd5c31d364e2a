import Raceways.Designation

/-! The roles of the conductors in a set. -/

namespace Raceways

/-- A loaded neutral returns current; a balanced one carries only the difference between
the phases and does not count. -/
inductive Role where
  | hot | loadedNeutral | balancedNeutral | ground
  deriving DecidableEq

namespace Role

def name : Role → String
  | hot => "Hot"
  | loadedNeutral => "NeutralCC"
  | balancedNeutral => "NeutralNCC"
  | ground => "Ground"

instance : Catalog Role := ⟨[hot, loadedNeutral, balancedNeutral, ground], name⟩

def isCarrying : Role → Bool
  | hot | loadedNeutral => true
  | balancedNeutral | ground => false

def isNeutral : Role → Bool
  | loadedNeutral | balancedNeutral => true
  | hot | ground => false

/-- The number of roles that carry current. -/
def carryingCount (roles : List Role) : Nat := roles.countP isCarrying

end Role

end Raceways
