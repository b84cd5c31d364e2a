/-!
Quantities that areas and percentages are computed in. Table values are exact decimals,
and each kind of quantity says which of its numbers a decimal denotes. Circuits are
sized in `Float`; the fill rules are stated for every kind of quantity.
-/

namespace Raceways

/-- The number `digits / 10 ^ places`. -/
structure Decimal where
  digits : Nat
  places : Nat
  deriving DecidableEq

namespace Decimal

/-- The double nearest to the decimal. -/
def toFloat (d : Decimal) : Float := Float.ofScientific d.digits true d.places

end Decimal

class Quantity (α : Type) extends Add α, Mul α, Div α, LE α where
  ofDecimal : Decimal → α
  decLe : DecidableRel (fun a b : α => a ≤ b)

instance Quantity.decidableLe {α : Type} [Quantity α] (a b : α) : Decidable (a ≤ b) :=
  Quantity.decLe a b

namespace Quantity

def whole {α : Type} [Quantity α] (n : Nat) : α := ofDecimal ⟨n, 0⟩

end Quantity

instance : Quantity Float where
  ofDecimal := Decimal.toFloat
  decLe := fun a b => inferInstanceAs (Decidable (a ≤ b))

end Raceways
