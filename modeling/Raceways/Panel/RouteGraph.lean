import Raceways.LabelledGraph
import Raceways.Panel.RouteMap

/-!
The routes of a panel as a graph from its circuits to its shared raceways. The graph numbers its
nodes as they are added, and an index finds them again.
-/

namespace Raceways

open LabelledGraph

inductive RouteNode where
  | circuit (id : Nat)
  | raceway (k : RacewayId)
  deriving DecidableEq

namespace RouteNode

def circuit? : RouteNode → Option Nat
  | circuit id => some id
  | raceway _ => none

end RouteNode

/-- A graph `G` of the routes, with the numbers of its nodes. -/
structure RouteGraph (G : Type) where
  graph : G
  index : List (RouteNode × Nat) := []

namespace RouteGraph

variable {G : Type} [LabelledGraph RouteNode G]

def empty : RouteGraph G := { graph := LabelledGraph.empty }

def place? (g : RouteGraph G) (v : RouteNode) : Option Nat :=
  (g.index.find? (fun e => e.1 = v)).map Prod.snd

/-- Adds a node, unless it is there, and tells its number. -/
def addNode (g : RouteGraph G) (v : RouteNode) : RouteGraph G × Nat :=
  match g.place? v with
  | some i => (g, i)
  | none =>
    let (graph, i) := LabelledGraph.addNode g.graph v
    ({ graph, index := (v, i) :: g.index }, i)

def addRoute (g : RouteGraph G) (circuit : Nat) (k : RacewayId) : RouteGraph G :=
  let (g, i) := g.addNode (.circuit circuit)
  let (g, j) := g.addNode (.raceway k)
  { g with graph := addEdge g.graph i j }

/-- Where the first edge out of a circuit leads. -/
def routeOf (g : RouteGraph G) (circuit : Nat) : Option RouteNode := do
  let i ← g.place? (.circuit circuit)
  let j ← (outgoing g.graph i).head?
  label? g.graph j

/-- The circuits with an edge into a raceway, in order of their ids. -/
def circuitsThrough (g : RouteGraph G) (k : RacewayId) : List Nat :=
  match g.place? (.raceway k) with
  | none => []
  | some j =>
    ((incoming g.graph j).filterMap fun i => (label? g.graph i).bind RouteNode.circuit?).mergeSort

def routeCount (g : RouteGraph G) : Nat := edgeCount g.graph

end RouteGraph

namespace Panel

variable {G : Type} [LabelledGraph RouteNode G]

/-- Draws a circuit, and its route if it is in a shared raceway. -/
def drawCircuit (p : Panel) (g : RouteGraph G) (e : Nat × Circuit) :
    Except PanelError (RouteGraph G) :=
  let g := (g.addNode (.circuit e.1)).1
  match e.2.routing.shared? with
  | none => .ok g
  | some r =>
    match p.idOf? r with
    | none => .error (.foreignRaceway e.1 r)
    | some k => .ok (g.addRoute e.1 k)

/-- The graph of the panel: first its raceways, then its circuits one by one. -/
def routeGraph (G : Type) [LabelledGraph RouteNode G] (p : Panel)
    (circuits : List (Option Circuit)) : Except PanelError (RouteGraph G) :=
  (p.roster circuits).foldlM p.drawCircuit
    (p.raceways.foldl (fun g k => (g.addNode (.raceway k)).1) RouteGraph.empty)

end Panel

end Raceways
