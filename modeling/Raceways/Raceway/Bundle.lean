import Raceways.Raceway.Fill

/-! Bundles: items tied together without a conduit around them. -/

namespace Raceways

/-- The distance over which the items are bundled is in feet. -/
structure Bundle where
  distance : Float := 0
  contents : Contents := Ascending.empty
  deriving BEq, DecidableEq

namespace Bundle

def withContents (c : Contents) (b : Bundle) : Bundle := { b with contents := c }

def filledArea (b : Bundle) : Float := Fill.total Item.area b.contents

end Bundle

end Raceways
