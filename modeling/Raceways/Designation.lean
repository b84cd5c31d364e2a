/-!
Standard designations. A catalog is a finite list of values, each with its own name,
and a name is read back by looking it up in the list.
-/

namespace Raceways

/-- The values of a catalog, in catalog order, and their names. -/
class Catalog (α : Type) where
  all : List α
  name : α → String

namespace Catalog

/-- The value with exactly the given name. -/
def ofName? {α : Type} [Catalog α] (s : String) : Option α :=
  (Catalog.all : List α).find? (fun a => Catalog.name a == s)

end Catalog

end Raceways
