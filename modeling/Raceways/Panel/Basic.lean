import Raceways.Circuit.Change

/-!
Panels: directories of circuits and shared raceways. A circuit id is the place of the circuit in
the order in which circuits were added, and stays vacant once the circuit is removed.
-/

namespace Raceways

/-- A shared raceway of a panel, by its kind and its id there. -/
inductive RacewayId where
  | conduit (id : Nat)
  | bundle (id : Nat)
  deriving DecidableEq

namespace RacewayId

def text : RacewayId → String
  | conduit id => "Conduit(" ++ toString id ++ ")"
  | bundle id => "Bundle(" ++ toString id ++ ")"

end RacewayId

/-- The text of a circuit id. -/
def circuitText (id : Nat) : String := "Circuit(" ++ toString id ++ ")"

/-- For each id the number of the circuit or raceway on the site. -/
structure Panel where
  circuits : List (Option Nat) := []
  conduits : List Nat := []
  bundles : List Nat := []
  deriving DecidableEq

inductive PanelError where
  | circuitNotFound (id : Nat)
  | racewayNotFound (id : RacewayId)
  | foreignRaceway (circuit : Nat) (r : SharedRaceway)
  | stray (raceway : RacewayId) (item : Nat)
  | missing (raceway : RacewayId) (item : Nat)
  deriving DecidableEq

namespace PanelError

/-- What kind of thing went wrong. -/
def kind : PanelError → String
  | circuitNotFound _ => "CircuitNotFound"
  | racewayNotFound _ | foreignRaceway _ _ => "RacewayNotFound"
  | stray _ _ | missing _ _ => "Internal"

def description : PanelError → String
  | circuitNotFound id => circuitText id ++ " not found."
  | racewayNotFound id => id.text ++ " not found."
  | foreignRaceway circuit r =>
    circuitText circuit ++ " is routed through a "
      ++ (match r with
        | .conduit _ => "conduit"
        | .bundle _ => "bundle")
      ++ " that is not part of the panel."
  | stray raceway item =>
    raceway.text ++ " holds entity #" ++ toString item
      ++ ", which belongs to no circuit routed through it."
  | missing raceway item =>
    raceway.text ++ " is missing entity #" ++ toString item
      ++ " of a circuit routed through it."

def message (e : PanelError) : String := e.kind ++ ": " ++ e.description

end PanelError

namespace Panel

/-- The circuits of the panel with their ids, in order of id. -/
def roster (p : Panel) (circuits : List (Option Circuit)) : List (Nat × Circuit) :=
  p.circuits.zipIdx.filterMap fun (number, id) =>
    (number.bind fun n => circuits[n]?.join).map fun c => (id, c)

/-- The shared raceways of the panel in the order they are checked in. -/
def raceways (p : Panel) : List RacewayId :=
  (List.range p.conduits.length).map .conduit ++ (List.range p.bundles.length).map .bundle

/-- The raceway that an id stands for. -/
def shared? (p : Panel) : RacewayId → Option SharedRaceway
  | .conduit id => p.conduits[id]?.map .conduit
  | .bundle id => p.bundles[id]?.map .bundle

/-- The id of a raceway, if it is one of the panel's. -/
def idOf? (p : Panel) : SharedRaceway → Option RacewayId
  | .conduit n => (p.conduits.idxOf? n).map .conduit
  | .bundle n => (p.bundles.idxOf? n).map .bundle

end Panel

end Raceways
