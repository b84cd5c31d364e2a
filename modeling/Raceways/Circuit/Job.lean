import Raceways.Circuit.Event

/-!
Work on one circuit of a site. A job is the circuit, the site and the events so far; every
step of the work is a function from jobs to jobs.
-/

namespace Raceways

structure Job where
  circuit : Circuit
  site : Site
  log : List Event := []

namespace Job

def note (e : Event) (j : Job) : Job := { j with log := j.log ++ [e] }

/-- Records a message. An error that was not on record is logged. -/
def report (m : Message) (j : Job) : Job :=
  let recorded := { j with circuit.ledger := j.circuit.ledger.record m }
  if m.severity = .error ∧ ¬ j.circuit.ledger.holds m then recorded.note (.failed m)
  else recorded

def forget (ms : List Message) (j : Job) : Job :=
  { j with circuit.ledger := j.circuit.ledger.retractAll ms }

/-- Changes what is in the raceway that the circuit runs through. -/
def updateRaceway (f : Contents → Contents) (j : Job) : Job :=
  match j.circuit.routing with
  | .freeAir => j
  | .privateConduit =>
    { j with circuit.conduit := j.circuit.conduit.withContents (f j.circuit.conduit.contents) }
  | .privateBundle =>
    { j with circuit.bundle := j.circuit.bundle.withContents (f j.circuit.bundle.contents) }
  | .shared r => { j with site := j.site.updateContents r f }

@[simp] theorem circuit_note (e : Event) (j : Job) : (j.note e).circuit = j.circuit := rfl

@[simp] theorem site_note (e : Event) (j : Job) : (j.note e).site = j.site := rfl

@[simp] theorem site_report (m : Message) (j : Job) : (j.report m).site = j.site := by
  unfold report
  dsimp only
  split <;> rfl

theorem circuit_report (m : Message) (j : Job) :
    (j.report m).circuit = { j.circuit with ledger := j.circuit.ledger.record m } := by
  unfold report
  dsimp only
  split <;> rfl

@[simp] theorem items_updateRaceway (f : Contents → Contents) (j : Job) :
    (j.updateRaceway f).circuit.items = j.circuit.items := by
  unfold updateRaceway
  split <;> rfl

@[simp] theorem routing_updateRaceway (f : Contents → Contents) (j : Job) :
    (j.updateRaceway f).circuit.routing = j.circuit.routing := by
  unfold updateRaceway
  split <;> rfl

@[simp] theorem ledger_updateRaceway (f : Contents → Contents) (j : Job) :
    (j.updateRaceway f).circuit.ledger = j.circuit.ledger := by
  unfold updateRaceway
  split <;> rfl

@[simp] theorem nextId_updateRaceway (f : Contents → Contents) (j : Job) :
    (j.updateRaceway f).site.nextId = j.site.nextId := by
  unfold updateRaceway
  split <;> simp

@[simp] theorem log_updateRaceway (f : Contents → Contents) (j : Job) :
    (j.updateRaceway f).log = j.log := by
  unfold updateRaceway
  split <;> rfl

/-- Takes the items of the circuit out of its raceway. -/
def vacate (j : Job) : Job := j.updateRaceway (Contents.without j.circuit.items)

/-- Puts the items of the circuit into its raceway, in place of older copies of them. -/
def occupy (j : Job) : Job := j.updateRaceway (Contents.adding j.circuit.items)

/-- Replaces the items, at the cost of a new id for each but the first. -/
def replaceItems (j : Job) : Job :=
  let items := j.circuit.plannedItems j.site.nextId
  { j with circuit.items := items, site := j.site.issue (items.length - 1) }

/-- Replaces the items and exchanges them in the raceway. -/
def refit (j : Job) : Job :=
  let done := j.vacate.replaceItems.occupy
  done.note (.rebuilt done.circuit.items.length done.circuit.wiring done.circuit.spread.sets
    done.circuit.spread.setsPerConduit)

def inspectLoad (j : Job) : Job :=
  if j.circuit.load.isValid then j.forget [.invalidLoad] else j.report .invalidLoad

/-- Takes over the layout that the load requires. -/
def adoptLayout (j : Job) : Job :=
  let layout := j.circuit.requiredLayout
  { j with circuit := j.circuit.withLayout layout }.note
    (.systemChanged j.circuit.load.system layout.size)

/-- Reads the load again, and refits the circuit if it no longer has the items that are
planned. -/
def rederive (j : Job) : Job :=
  let j := j.inspectLoad
  if j.circuit.requiredLayout = j.circuit.layout then
    if j.circuit.isPlanned then j else j.refit
  else j.adoptLayout.refit

/-- Moves the items from their raceway to another. -/
def moveTo (r : Routing) (j : Job) : Job :=
  let out := j.vacate
  let moved := { out with circuit.routing := r }.occupy
  moved.note (.routed moved.circuit.items.length moved.circuit.mode)

/-- Records an error and moves the items to free air. -/
def giveUp (m : Message) (j : Job) : Job := (j.report m).moveTo .freeAir

/-- Leaves exactly the warning on record that the way of routing deserves. -/
def reviewPractice (j : Job) : Job :=
  let j := j.forget Message.aboutPractice
  match j.circuit.mode.discouraged j.circuit.wiring with
  | some m => j.report m
  | none => j

/-- Clears what was recorded about the old way of routing, and reads the load again. -/
def prepareMove (j : Job) : Job := (j.forget Message.aboutRouting).rederive

end Job

end Raceways
