import Raceways.Circuit.Spread
import Raceways.Ledger.Basic
import Raceways.Raceway.Site
import Raceways.Supply.Layout
import Raceways.Supply.Rating

/-!
Circuits: a load, the sets of conductors or cables that feed it, and the raceway they run
through. The items of a circuit are made after a pattern, which is the first of them.
-/

namespace Raceways

inductive Wiring where
  | conductors | cables
  deriving DecidableEq

/-- Where the items of a circuit are. -/
inductive Routing where
  | freeAir
  | privateConduit
  | privateBundle
  | shared (r : SharedRaceway)
  deriving DecidableEq

/-- How a circuit is routed, whichever shared raceway it may use. -/
inductive Mode where
  | freeAir | privateConduit | sharedConduit | privateBundle | sharedBundle
  deriving DecidableEq

namespace Mode

def name : Mode → String
  | freeAir => "FreeAir"
  | privateConduit => "PrivateConduit"
  | sharedConduit => "SharedConduit"
  | privateBundle => "PrivateBundle"
  | sharedBundle => "SharedBundle"

/-- The warning that a way of routing deserves. -/
def discouraged : Mode → Wiring → Option Message
  | freeAir, .conductors => some .conductorsInFreeAir
  | privateBundle, .conductors | sharedBundle, .conductors => some .conductorsInBundle
  | privateConduit, .cables | sharedConduit, .cables => some .cableInConduit
  | _, _ => none

end Mode

namespace Routing

def mode : Routing → Mode
  | freeAir => .freeAir
  | privateConduit => .privateConduit
  | privateBundle => .privateBundle
  | shared (.conduit _) => .sharedConduit
  | shared (.bundle _) => .sharedBundle

def shared? : Routing → Option SharedRaceway
  | shared r => some r
  | _ => none

/-- Why more than one set cannot be routed this way. -/
def setsError : Routing → Option Message
  | shared (.conduit _) => some .setsInSharedConduit
  | shared (.bundle _) => some .setsInSharedBundle
  | _ => none

end Routing

namespace Item

/-- A new item after a pattern. A conductor takes the given role. -/
def anew (id : Nat) (role : Option Role) : Item → Item
  | conductor c => conductor { c with id := id, role := role.getD c.role }
  | cable c => cable { c with id := id }

@[simp] theorem id_anew (id : Nat) (role : Option Role) (i : Item) :
    (i.anew id role).id = id := by
  cases i <;> rfl

end Item

structure Circuit where
  load : Load
  nonlinear : Bool
  routing : Routing := .privateConduit
  conduit : Conduit := {}
  bundle : Bundle := {}
  wiring : Wiring := .conductors
  conductor : Conductor
  cable : Cable
  layout : Layout
  items : List Item := []
  spread : Spread := {}
  ledger : Ledger := Ledger.empty
  deriving DecidableEq

namespace Circuit

def mode (c : Circuit) : Mode := c.routing.mode

/-- The pattern that the items are made after. -/
def pattern (c : Circuit) : Item :=
  match c.wiring with
  | .conductors => .conductor c.conductor
  | .cables => .cable c.cable

/-- The roles that the items should have: those of the sets in one conduit, or one cable for
each set. -/
def plan (c : Circuit) : List (Option Role) :=
  match c.wiring with
  | .conductors => (List.replicate c.spread.setsPerConduit c.layout.roles).flatten.map some
  | .cables => List.replicate c.spread.sets none

def isPlanned (c : Circuit) : Bool := c.items.map Item.role = c.plan

/-- The planned items: first the pattern itself, then items after it with the ids from `next` on. -/
def plannedItems (c : Circuit) (next : Nat) : List Item :=
  c.pattern :: (c.plan.drop 1).mapIdx (fun i role => c.pattern.anew (next + i) role)

/-- The layout that the load requires now. -/
def requiredLayout (c : Circuit) : Layout := Layout.ofSystem c.load.system c.nonlinear

/-- The circuit with another layout, which its cables have from then on. -/
def withLayout (l : Layout) (c : Circuit) : Circuit :=
  { c with layout := l, cable := { c.cable with conductors := l.roles } }

theorem plannedItems_length (c : Circuit) (next : Nat) :
    (c.plannedItems next).length = 1 + (c.plan.length - 1) := by
  simp [plannedItems]
  omega

end Circuit

end Raceways
