import Raceways.Panel.Audit
import Raceways.Panel.RouteGraph

/-!
Installations: a site, the circuits on it, and one panel. Circuits and shared raceways are
numbered on the site as they are made. Each is found by its place: an id of the panel, or a slot
among the loose ones, which belong to no panel.
-/

namespace Raceways

inductive Place where
  | panel (id : Nat)
  | loose (slot : Nat)
  deriving DecidableEq

/-- A circuit that was taken down leaves its number and its slot vacant. -/
structure Installation where
  site : Site := {}
  circuits : List (Option Circuit) := []
  panel : Panel := {}
  looseCircuits : List (Option Nat) := []
  looseConduits : List Nat := []
  looseBundles : List Nat := []
  deriving DecidableEq

/-- Why a place was not found: the panel does not know the id, or nothing is in the slot. -/
inductive Refusal where
  | panel (e : PanelError)
  | nothingThere
  deriving DecidableEq

namespace Installation

def circuit? (w : Installation) (n : Nat) : Option Circuit := w.circuits[n]?.join

/-- The number of the circuit at a place. -/
def circuitAt (w : Installation) : Place → Except Refusal Nat
  | .panel id =>
    match w.panel.circuits[id]?.join with
    | some n => .ok n
    | none => .error (.panel (.circuitNotFound id))
  | .loose slot =>
    match w.looseCircuits[slot]?.join with
    | some n => .ok n
    | none => .error .nothingThere

def conduitAt (w : Installation) : Place → Except Refusal Nat
  | .panel id =>
    match w.panel.conduits[id]? with
    | some n => .ok n
    | none => .error (.panel (.racewayNotFound (.conduit id)))
  | .loose slot =>
    match w.looseConduits[slot]? with
    | some n => .ok n
    | none => .error .nothingThere

def bundleAt (w : Installation) : Place → Except Refusal Nat
  | .panel id =>
    match w.panel.bundles[id]? with
    | some n => .ok n
    | none => .error (.panel (.racewayNotFound (.bundle id)))
  | .loose slot =>
    match w.looseBundles[slot]? with
    | some n => .ok n
    | none => .error .nothingThere

/-- The circuits with their places, those of the panel first. -/
def placedCircuits (w : Installation) : List (Place × Circuit) :=
  (w.panel.roster w.circuits).map (fun (id, c) => (.panel id, c))
    ++ w.looseCircuits.zipIdx.filterMap fun (number, slot) =>
      (number.bind w.circuit?).map fun c => (.loose slot, c)

/-- The places of shared raceways, given their numbers on the panel and among the loose ones. -/
def placed (inPanel loose : List Nat) : List (Place × Nat) :=
  inPanel.zipIdx.map (fun (n, id) => (.panel id, n))
    ++ loose.zipIdx.map (fun (n, slot) => (.loose slot, n))

def conduitPlaces (w : Installation) : List (Place × Nat) :=
  placed w.panel.conduits w.looseConduits

def bundlePlaces (w : Installation) : List (Place × Nat) :=
  placed w.panel.bundles w.looseBundles

/-- The place of a shared raceway. -/
def placeOf? (w : Installation) : SharedRaceway → Option Place
  | .conduit n => (w.conduitPlaces.find? (fun e => e.2 = n)).map Prod.fst
  | .bundle n => (w.bundlePlaces.find? (fun e => e.2 = n)).map Prod.fst

def routeMap (w : Installation) : Except PanelError RouteMap := w.panel.routeMap w.circuits

def routeGraph (G : Type) [LabelledGraph RouteNode G] (w : Installation) :
    Except PanelError (RouteGraph G) :=
  w.panel.routeGraph G w.circuits

def audit (w : Installation) : Except PanelError Unit := w.panel.audit w.circuits w.site

end Installation

end Raceways
