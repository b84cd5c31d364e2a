import Raceways.Circuit.Job

/-!
The changes that can be asked of a circuit. A change never fails: where it would break a rule,
the circuit moves to free air or stays as it is, and its ledger says why.
-/

namespace Raceways

/-- Where a circuit is asked to go. A shared raceway is named in `ρ`, or asked for without
naming one. -/
inductive Target (ρ : Type) where
  | freeAir
  | privateConduit
  | privateBundle
  | sharedConduit (name? : Option ρ)
  | sharedBundle (name? : Option ρ)
  deriving DecidableEq

inductive Change (ρ : Type) where
  | route (t : Target ρ)
  | useWiring (w : Wiring)
  | replaceConductor (spec : ConductorSpec)
  | replaceCable (spec : CableSpec)
  | resize (s : Size)
  | setSets (n : Nat)
  | widen
  | narrow
  | updateLoad (f : Load → Load)

namespace Target

/-- Where a circuit with the given number of sets may go, or why it may not. -/
def routingFor (t : Target Nat) (sets : Nat) : Except Message Routing :=
  match t with
  | freeAir => .ok .freeAir
  | privateConduit => .ok .privateConduit
  | privateBundle => .ok .privateBundle
  | sharedConduit none => .error .noSharedConduit
  | sharedConduit (some n) =>
    if 1 < sets then .error .setsInSharedConduit else .ok (.shared (.conduit n))
  | sharedBundle none => .error .noSharedBundle
  | sharedBundle (some n) => .ok (.shared (.bundle n))

end Target

namespace Job

def route (t : Target Nat) (j : Job) : Job :=
  let j := j.prepareMove
  let moved := match t.routingFor j.circuit.spread.sets with
    | .ok r => j.moveTo r
    | .error m => j.giveUp m
  moved.reviewPractice

def useWiring (w : Wiring) (j : Job) : Job :=
  if w = j.circuit.wiring then j
  else { j with circuit.wiring := w }.rederive.reviewPractice

def refitIf (w : Wiring) (j : Job) : Job := if j.circuit.wiring = w then j.refit else j

/-- Makes a new conductor the pattern. The pattern is always hot. -/
def replaceConductor (spec : ConductorSpec) (j : Job) : Job :=
  let pattern : Conductor := { spec with role := .hot, id := j.site.nextId }
  { j with circuit.conductor := pattern, site := j.site.issue 1 }.refitIf .conductors

/-- Makes a new cable the pattern. It has the conductors of one set. -/
def replaceCable (spec : CableSpec) (j : Job) : Job :=
  let pattern : Cable :=
    { spec with conductors := j.circuit.layout.roles, id := j.site.nextId }
  { j with circuit.cable := pattern, site := j.site.issue 1 }.refitIf .cables

/-- Gives all conductors another size. They stay the same conductors. -/
def resize (s : Size) (j : Job) : Job :=
  { j with
    circuit.conductor.size := s
    circuit.items := j.circuit.items.map (Item.withWireSize s) }.occupy

/-- Changes the number of sets, each in a conduit of its own. A circuit in a shared raceway
may have only one. -/
def setSets (n : Nat) (j : Job) : Job :=
  if n = 0 ∨ n = j.circuit.spread.sets then j
  else
    let set := ({ j with circuit.spread := .onePerConduit n }.note (.setsChanged n)).rederive
    match set.circuit.routing.setsError with
    | some m =>
      if 1 < n then ((set.forget Message.aboutRouting).giveUp m).reviewPractice else set
    | none => set

/-- Spreads the sets over another number of conduits, if there is one. Only private conduits
can be counted. -/
def respread (next : Spread → Option Spread) (j : Job) : Job :=
  if j.circuit.routing ≠ .privateConduit then j.report .conduitsOutsidePrivateConduit
  else
    let j := j.forget [.conduitsOutsidePrivateConduit]
    match next j.circuit.spread with
    | none => j
    | some s =>
      ({ j with circuit.spread := s }.note (.distributed s.sets s.conduits)).rederive

def updateLoad (f : Load → Load) (j : Job) : Job :=
  { j with circuit.load := f j.circuit.load }.rederive

def apply (c : Change Nat) (j : Job) : Job :=
  match c with
  | .route t => j.route t
  | .useWiring w => j.useWiring w
  | .replaceConductor spec => j.replaceConductor spec
  | .replaceCable spec => j.replaceCable spec
  | .resize s => j.resize s
  | .setSets n => j.setSets n
  | .widen => j.respread Spread.wider?
  | .narrow => j.respread Spread.narrower?
  | .updateLoad f => j.updateLoad f

end Job

namespace Circuit

/-- A new circuit has one set of conductors in its private conduit. Its cable pattern takes the
first id and its conductor pattern the second. -/
def create (load : Load) (nonlinear : Bool) (site : Site) : Job :=
  let layout := Layout.ofSystem load.system nonlinear
  let cable : Cable :=
    { type := .mc, size := .awg12, diameter := 0.5, conductors := layout.roles,
      id := site.nextId }
  let conductor : Conductor := { (default : ConductorSpec) with id := site.nextId + 1 }
  let bare : Job := ⟨{ load, nonlinear, conductor, cable, layout }, site.issue 2, []⟩
  bare.inspectLoad.refit.reviewPractice

/-- Takes a circuit down. If its raceway is held by someone, its items are left behind. -/
def dismantle (held : List SharedRaceway) (c : Circuit) (site : Site) : Site × List Event :=
  match c.routing.shared? with
  | none => (site, [])
  | some r =>
    if r ∈ held then (site, [.leftBehind c.items.length])
    else (site.updateContents r (Contents.without c.items), [])

end Circuit

end Raceways
