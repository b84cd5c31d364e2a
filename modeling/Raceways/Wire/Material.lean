import Raceways.Designation

/-! What a conductor is made of: its metal and its insulation. -/

namespace Raceways

inductive Metal where
  | copper | aluminum
  deriving DecidableEq

namespace Metal

def name : Metal → String
  | copper => "CU"
  | aluminum => "AL"

instance : Catalog Metal := ⟨[copper, aluminum], name⟩

instance : Inhabited Metal := ⟨copper⟩

end Metal

inductive Insulation where
  | thw | thhn | thwn2 | xhhw | xhhw2
  deriving DecidableEq

namespace Insulation

def name : Insulation → String
  | thw => "THW"
  | thhn => "THHN"
  | thwn2 => "THWN-2"
  | xhhw => "XHHW"
  | xhhw2 => "XHHW-2"

instance : Catalog Insulation := ⟨[thw, thhn, thwn2, xhhw, xhhw2], name⟩

instance : Inhabited Insulation := ⟨thhn⟩

end Insulation

end Raceways
