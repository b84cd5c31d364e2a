import Raceways.Installation.Basic

/-!
What can be done to an installation. An action whose places are not all found is refused and
changes nothing.
-/

namespace Raceways

inductive Action where
  | newCircuit (load : Load) (nonlinear inPanel : Bool)
  | newConduit (spec : ConduitSpec) (inPanel : Bool)
  | newBundle (distance : Float) (inPanel : Bool)
  /-- Makes an item that is not part of any circuit. Only its id matters. -/
  | newItem
  | addCircuit (slot : Nat)
  | removeCircuit (id : Nat)
  /-- Takes a loose circuit down while someone holds the given raceways. -/
  | dropCircuit (slot : Nat) (heldConduit heldBundle : Option Place)
  | change (circuit : Place) (c : Change Place)
  /-- Changes the load of a circuit without the circuit's knowing. -/
  | pokeLoad (circuit : Place) (f : Load → Load)
  | editPrivateConduit (circuit : Place) (e : ConduitEdit)
  | replacePrivateConduit (circuit : Place) (spec : ConduitSpec)
  | setPrivateDistance (circuit : Place) (distance : Float)
  | editConduit (conduit : Place) (e : ConduitEdit)
  | setDistance (bundle : Place) (distance : Option Float)
  | replaceConduit (conduit : Place) (spec : ConduitSpec)
  | replaceBundle (bundle : Place) (distance : Float)
  | copyConduit (source target : Place)
  | copyBundle (source target : Place)
  /-- Puts any value, contents included, in place of a raceway that is handed out for change. -/
  | overwriteConduit (conduit : Place) (k : Conduit)
  | overwriteBundle (bundle : Place) (b : Bundle)
  | overwritePrivate (circuit : Place) (k : Conduit) (b : Bundle)

/-- What an action answers: nothing, or the place of what it made or moved. -/
inductive Reply where
  | done
  | circuit (p : Place)
  | conduit (p : Place)
  | bundle (p : Place)
  deriving DecidableEq

/-- What an action that is not refused comes to. -/
structure Effect where
  after : Installation
  log : List Event := []
  reply : Reply := .done

structure Outcome where
  after : Installation
  log : List Event
  reply : Except Refusal Reply

namespace Installation

/-- Gives a circuit the next id of the panel. -/
def enroll (n : Nat) (w : Installation) : Installation × Place :=
  ({ w with panel.circuits := w.panel.circuits ++ [some n] }, .panel w.panel.circuits.length)

/-- Gives a circuit the next loose slot. -/
def release (n : Nat) (w : Installation) : Installation × Place :=
  ({ w with looseCircuits := w.looseCircuits ++ [some n] }, .loose w.looseCircuits.length)

def addConduit (k : Conduit) (inPanel : Bool) (w : Installation) : Installation × Place :=
  let n := w.site.conduits.length
  let w := { w with site.conduits := w.site.conduits ++ [k] }
  if inPanel then
    ({ w with panel.conduits := w.panel.conduits ++ [n] }, .panel w.panel.conduits.length)
  else ({ w with looseConduits := w.looseConduits ++ [n] }, .loose w.looseConduits.length)

def addBundle (b : Bundle) (inPanel : Bool) (w : Installation) : Installation × Place :=
  let n := w.site.bundles.length
  let w := { w with site.bundles := w.site.bundles ++ [b] }
  if inPanel then
    ({ w with panel.bundles := w.panel.bundles ++ [n] }, .panel w.panel.bundles.length)
  else ({ w with looseBundles := w.looseBundles ++ [n] }, .loose w.looseBundles.length)

/-- Does a job on one of the circuits. -/
def work (n : Nat) (f : Job → Job) (w : Installation) : Effect :=
  match w.circuit? n with
  | none => { after := w }
  | some c =>
    let j := f ⟨c, w.site, []⟩
    { after := { w with site := j.site, circuits := w.circuits.set n (some j.circuit) },
      log := j.log }

/-- Changes a circuit by itself, its site aside. -/
def modifyCircuit (n : Nat) (f : Circuit → Circuit) (w : Installation) : Effect :=
  w.work n (fun j => { j with circuit := f j.circuit })

/-- Takes a circuit down while someone holds the given raceways. -/
def takeDown (n : Nat) (held : List SharedRaceway) (w : Installation) : Effect :=
  match w.circuit? n with
  | none => { after := w }
  | some c =>
    let (site, log) := c.dismantle held w.site
    { after := { w with site := site, circuits := w.circuits.set n none }, log := log }

/-- The target with the raceway that it names. -/
def findTarget (w : Installation) : Target Place → Except Refusal (Target Nat)
  | .freeAir => .ok .freeAir
  | .privateConduit => .ok .privateConduit
  | .privateBundle => .ok .privateBundle
  | .sharedConduit none => .ok (.sharedConduit none)
  | .sharedConduit (some p) => (w.conduitAt p).map fun n => .sharedConduit (some n)
  | .sharedBundle none => .ok (.sharedBundle none)
  | .sharedBundle (some p) => (w.bundleAt p).map fun n => .sharedBundle (some n)

/-- The change with the raceway that it names. -/
def findChange (w : Installation) : Change Place → Except Refusal (Change Nat)
  | .route t => (w.findTarget t).map .route
  | .useWiring v => .ok (.useWiring v)
  | .replaceConductor spec => .ok (.replaceConductor spec)
  | .replaceCable spec => .ok (.replaceCable spec)
  | .resize s => .ok (.resize s)
  | .setSets n => .ok (.setSets n)
  | .widen => .ok .widen
  | .narrow => .ok .narrow
  | .updateLoad f => .ok (.updateLoad f)

/-- The raceways that someone holds. -/
def findHeld (w : Installation) (conduit bundle : Option Place) :
    Except Refusal (List SharedRaceway) := do
  let k ← conduit.mapM w.conduitAt
  let b ← bundle.mapM w.bundleAt
  return (k.map SharedRaceway.conduit).toList ++ (b.map SharedRaceway.bundle).toList

/-- What an action comes to, unless a place it names is not found. Raceways are looked up
before circuits. -/
def attempt (w : Installation) : Action → Except Refusal Effect
  | .newCircuit load nonlinear inPanel =>
    let j := Circuit.create load nonlinear w.site
    let n := w.circuits.length
    let w := { w with site := j.site, circuits := w.circuits ++ [some j.circuit] }
    let (after, place) := if inPanel then w.enroll n else w.release n
    .ok { after := after, log := j.log, reply := .circuit place }
  | .newConduit spec inPanel =>
    let (after, place) := w.addConduit { toConduitSpec := spec } inPanel
    .ok { after := after, reply := .conduit place }
  | .newBundle distance inPanel =>
    let (after, place) := w.addBundle { distance := distance } inPanel
    .ok { after := after, reply := .bundle place }
  | .newItem => .ok { after := { w with site := w.site.issue 1 } }
  | .addCircuit slot => do
    let n ← w.circuitAt (.loose slot)
    let (after, place) :=
      { w with looseCircuits := w.looseCircuits.set slot none }.enroll n
    return { after := after, reply := .circuit place }
  | .removeCircuit id => do
    let n ← w.circuitAt (.panel id)
    let routed := { w with panel.circuits := w.panel.circuits.set id none }.work n
      (Job.route .privateConduit)
    let (after, place) := routed.after.release n
    return { after := after, log := routed.log, reply := .circuit place }
  | .dropCircuit slot heldConduit heldBundle => do
    let held ← w.findHeld heldConduit heldBundle
    let n ← w.circuitAt (.loose slot)
    return { w with looseCircuits := w.looseCircuits.set slot none }.takeDown n held
  | .change circuit c => do
    let c ← w.findChange c
    let n ← w.circuitAt circuit
    return w.work n (Job.apply c)
  | .pokeLoad circuit f => do
    let n ← w.circuitAt circuit
    return w.modifyCircuit n fun c => { c with load := f c.load }
  | .editPrivateConduit circuit e => do
    let n ← w.circuitAt circuit
    return w.modifyCircuit n fun c => { c with conduit := c.conduit.edit e }
  | .replacePrivateConduit circuit spec => do
    let n ← w.circuitAt circuit
    return w.modifyCircuit n fun c => { c with conduit := { toConduitSpec := spec } }
  | .setPrivateDistance circuit distance => do
    let n ← w.circuitAt circuit
    return w.modifyCircuit n fun c => { c with bundle.distance := distance }
  | .editConduit conduit e => do
    let n ← w.conduitAt conduit
    return { after := { w with site := w.site.updateConduit n (Conduit.edit e) } }
  | .setDistance bundle distance => do
    let n ← w.bundleAt bundle
    return { after := { w with
      site := w.site.updateBundle n fun b => { b with distance := distance.getD b.distance } } }
  | .replaceConduit conduit spec => do
    let n ← w.conduitAt conduit
    return { after := { w with
      site := w.site.updateConduit n fun _ => { toConduitSpec := spec } } }
  | .replaceBundle bundle distance => do
    let n ← w.bundleAt bundle
    return { after := { w with
      site := w.site.updateBundle n fun _ => { distance := distance } } }
  | .copyConduit source target => do
    let k ← w.conduitAt source
    let n ← w.conduitAt target
    return { after := { w with
      site := w.site.updateConduit n fun old => (w.site.conduits[k]?).getD old } }
  | .copyBundle source target => do
    let k ← w.bundleAt source
    let n ← w.bundleAt target
    return { after := { w with
      site := w.site.updateBundle n fun old => (w.site.bundles[k]?).getD old } }
  | .overwriteConduit conduit k => do
    let n ← w.conduitAt conduit
    return { after := { w with site := w.site.updateConduit n fun _ => k } }
  | .overwriteBundle bundle b => do
    let n ← w.bundleAt bundle
    return { after := { w with site := w.site.updateBundle n fun _ => b } }
  | .overwritePrivate circuit k b => do
    let n ← w.circuitAt circuit
    return w.modifyCircuit n fun c => { c with conduit := k, bundle := b }

/-- An action on an installation. If it is refused, nothing changes. -/
def step (w : Installation) (a : Action) : Outcome :=
  match w.attempt a with
  | .ok e => ⟨e.after, e.log, .ok e.reply⟩
  | .error r => ⟨w, [], .error r⟩

/-- The installation after a list of actions. -/
def run (w : Installation) (actions : List Action) : Installation :=
  actions.foldl (fun w a => (w.step a).after) w

theorem step_of_refused {w : Installation} {a : Action} {r : Refusal}
    (h : (w.step a).reply = .error r) : (w.step a).after = w ∧ (w.step a).log = [] := by
  unfold step at h ⊢
  split at h
  · cases h
  · exact ⟨rfl, rfl⟩

end Installation

end Raceways
