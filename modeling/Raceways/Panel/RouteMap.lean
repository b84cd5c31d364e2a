import Raceways.Panel.Basic

/-!
Which circuit of a panel runs through which of its shared raceways.
-/

namespace Raceways

/-- The routes are in order of circuit id, at most one for each circuit. -/
structure RouteMap where
  routes : List (Nat × RacewayId)
  deriving DecidableEq

namespace RouteMap

def circuitsThrough (m : RouteMap) (r : RacewayId) : List Nat :=
  (m.routes.filter (fun e => e.2 = r)).map Prod.fst

def routeOf (m : RouteMap) (circuit : Nat) : Option RacewayId :=
  (m.routes.find? (fun e => e.1 = circuit)).map Prod.snd

def size (m : RouteMap) : Nat := m.routes.length

end RouteMap

namespace Panel

/-- The routes of the given circuits, unless one runs through a raceway of somebody else. -/
def routesOf (p : Panel) : List (Nat × Circuit) → Except PanelError (List (Nat × RacewayId))
  | [] => .ok []
  | (id, c) :: rest =>
    match c.routing.shared? with
    | none => p.routesOf rest
    | some r =>
      match p.idOf? r with
      | none => .error (.foreignRaceway id r)
      | some k => (p.routesOf rest).map ((id, k) :: ·)

def routeMap (p : Panel) (circuits : List (Option Circuit)) : Except PanelError RouteMap :=
  (p.routesOf (p.roster circuits)).map RouteMap.mk

end Panel

end Raceways
