import Raceways.Panel.RouteMap

/-!
Whether the shared raceways of a panel hold exactly the items of the circuits that run through
them, and if not, what is wrong first.
-/

namespace Raceways

namespace Panel

/-- The least id of the first list that is not in the second. -/
def leastMissing (ids others : List Nat) : Option Nat :=
  (ids.filter (fun id => id ∉ others)).min?

/-- What is wrong with a raceway that should hold the expected ids and holds the actual ones.
An item too many is found before one that is missing. -/
def discrepancy (raceway : RacewayId) (expected actual : List Nat) : Option PanelError :=
  match leastMissing actual expected with
  | some id => some (.stray raceway id)
  | none => (leastMissing expected actual).map (.missing raceway)

/-- The ids that a raceway should hold. -/
def expectedIds (m : RouteMap) (roster : List (Nat × Circuit)) (r : RacewayId) : List Nat :=
  (roster.filter (fun e => e.1 ∈ m.circuitsThrough r)).flatMap (fun e => e.2.items.map Item.id)

/-- The ids that a raceway holds. -/
def actualIds (p : Panel) (site : Site) (r : RacewayId) : List Nat :=
  (((p.shared? r).bind site.contents?).map Contents.ids).getD []

/-- The first thing that is wrong with the panel, if there is any. -/
def audit (p : Panel) (circuits : List (Option Circuit)) (site : Site) :
    Except PanelError Unit :=
  match p.routeMap circuits with
  | .error e => .error e
  | .ok m =>
    let check r := discrepancy r (expectedIds m (p.roster circuits) r) (p.actualIds site r)
    match p.raceways.findSome? check with
    | some e => .error e
    | none => .ok ()

/-! ## An audit that looks circuits up -/

/-- The circuit that an id of the panel stands for. -/
def lookUp (p : Panel) (circuits : List (Option Circuit)) (id : Nat) : Except PanelError Circuit :=
  match p.circuits[id]?.join.bind fun n => circuits[n]?.join with
  | some c => .ok c
  | none => .error (.circuitNotFound id)

/-- The ids of the items of circuits that are given by their ids. -/
def itemIds (p : Panel) (circuits : List (Option Circuit)) :
    List Nat → Except PanelError (List Nat)
  | [] => .ok []
  | id :: rest => do
    let c ← p.lookUp circuits id
    let more ← p.itemIds circuits rest
    return c.items.map Item.id ++ more

/-- The first thing that is wrong with the given raceways, if all circuits are found. -/
def compare (p : Panel) (circuits : List (Option Circuit)) (site : Site) (m : RouteMap) :
    List RacewayId → Except PanelError Unit
  | [] => .ok ()
  | k :: rest => do
    let expected ← p.itemIds circuits (m.circuitsThrough k)
    match discrepancy k expected (p.actualIds site k) with
    | some e => .error e
    | none => p.compare circuits site m rest

/-- The audit of a panel that looks up every circuit of its route map. -/
def auditByLookUp (p : Panel) (circuits : List (Option Circuit)) (site : Site) :
    Except PanelError Unit := do
  let m ← p.routeMap circuits
  p.compare circuits site m p.raceways

end Panel

end Raceways
