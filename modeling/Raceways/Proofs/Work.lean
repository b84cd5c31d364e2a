import Raceways.Circuit.Change

/-!
What any change of a circuit keeps. Every change is made of a few primitive steps, so a property
of jobs that each of these keeps is kept by every change, and by the making of a circuit.
-/

namespace Raceways

/-- Whether a change gives the circuit another conductor for its pattern. -/
def Change.altersConductor {ρ : Type} : Change ρ → Bool
  | .replaceConductor _ | .resize _ => true
  | _ => false

namespace Job

/-! ## What the primitive steps do to the circuit, its private raceways aside -/

theorem circuit_updateRaceway (f : Contents → Contents) (j : Job) :
    ∃ k b, (j.updateRaceway f).circuit = { j.circuit with conduit := k, bundle := b } := by
  unfold updateRaceway
  split <;> exact ⟨_, _, rfl⟩

theorem circuit_refit (j : Job) :
    ∃ k b, j.refit.circuit =
      { j.circuit with
        items := j.circuit.plannedItems j.site.nextId, conduit := k, bundle := b } := by
  obtain ⟨k, b, hout⟩ := circuit_updateRaceway (Contents.without j.circuit.items) j
  obtain ⟨k', b', hin⟩ := circuit_updateRaceway
    (Contents.adding j.vacate.replaceItems.circuit.items) j.vacate.replaceItems
  refine ⟨k', b', ?_⟩
  have hid : j.vacate.site.nextId = j.site.nextId := nextId_updateRaceway _ j
  have hitems : j.vacate.replaceItems.circuit =
      { j.vacate.circuit with items := j.vacate.circuit.plannedItems j.site.nextId } := by
    rw [← hid]
    rfl
  change j.vacate.replaceItems.occupy.circuit = _
  unfold occupy
  rw [hin, hitems]
  unfold vacate
  rw [hout]
  rfl

theorem nextId_refit (j : Job) :
    j.refit.site.nextId = j.site.nextId + (j.circuit.plan.length - 1) := by
  obtain ⟨k, b, hout⟩ := circuit_updateRaceway (Contents.without j.circuit.items) j
  change j.vacate.replaceItems.occupy.site.nextId = _
  unfold occupy
  rw [nextId_updateRaceway]
  change j.vacate.site.nextId + ((j.vacate.circuit.plannedItems _).length - 1) = _
  rw [Circuit.plannedItems_length]
  unfold vacate
  rw [nextId_updateRaceway, hout]
  change _ + (1 + (j.circuit.plan.length - 1) - 1) = _
  omega

theorem circuit_moveTo (r : Routing) (j : Job) :
    ∃ k b, (j.moveTo r).circuit = { j.circuit with routing := r, conduit := k, bundle := b } := by
  obtain ⟨k, b, hout⟩ := circuit_updateRaceway (Contents.without j.circuit.items) j
  obtain ⟨k', b', hin⟩ := circuit_updateRaceway (Contents.adding j.vacate.circuit.items)
    { j.vacate with circuit.routing := r }
  refine ⟨k', b', ?_⟩
  have hrouting : ({ j.vacate with circuit.routing := r } : Job).circuit =
      { j.vacate.circuit with routing := r } := rfl
  change ({ j.vacate with circuit.routing := r } : Job).occupy.circuit = _
  unfold occupy
  rw [hin, hrouting]
  unfold vacate
  rw [hout]

theorem nextId_moveTo (r : Routing) (j : Job) : (j.moveTo r).site.nextId = j.site.nextId := by
  change ({ j.vacate with circuit.routing := r } : Job).occupy.site.nextId = _
  unfold occupy
  rw [nextId_updateRaceway]
  exact nextId_updateRaceway _ j

theorem circuit_resize (s : Size) (j : Job) :
    ∃ k b, (j.resize s).circuit =
      { j.circuit with
        conductor := { j.circuit.conductor with size := s }
        items := j.circuit.items.map (Item.withWireSize s), conduit := k, bundle := b } :=
  circuit_updateRaceway _ _

theorem nextId_resize (s : Size) (j : Job) : (j.resize s).site.nextId = j.site.nextId :=
  nextId_updateRaceway _ _

/-! ## Properties that the primitive steps keep -/

/-- A property that the primitive steps of the work keep, one field a step, apart from those that
give the circuit another conductor for its pattern. -/
structure Maintained (P : Job → Prop) : Prop where
  note : ∀ e j, P j → P (j.note e)
  ledger : ∀ l j, P j → P { j with circuit.ledger := l }
  settings : ∀ load wiring spread j, P j →
    P { j with
      circuit.load := load
      circuit.wiring := wiring
      circuit.spread := spread }
  layout : ∀ l j, P j → P { j with circuit := j.circuit.withLayout l }
  cable : ∀ (spec : CableSpec) j, P j →
    P { j with
      circuit.cable := { spec with conductors := j.circuit.layout.roles, id := j.site.nextId }
      site := j.site.issue 1 }
  refit : ∀ j, P j → P j.refit
  moveTo : ∀ r j, P j → P (j.moveTo r)

/-- A property that all primitive steps of the work keep. -/
structure Preserved (P : Job → Prop) : Prop extends Maintained P where
  conductor : ∀ (spec : ConductorSpec) j, P j →
    P { j with
      circuit.conductor := { spec with role := .hot, id := j.site.nextId }
      site := j.site.issue 1 }
  resize : ∀ s j, P j → P (j.resize s)

variable {P : Job → Prop}

namespace Maintained

variable (h : Maintained P)

include h

theorem report (m : Message) (j : Job) (hj : P j) : P (j.report m) := by
  simp only [Job.report]
  split
  · exact h.note _ _ (h.ledger _ j hj)
  · exact h.ledger _ j hj

theorem forget (ms : List Message) (j : Job) (hj : P j) : P (j.forget ms) := h.ledger _ j hj

theorem inspectLoad (j : Job) (hj : P j) : P j.inspectLoad := by
  simp only [Job.inspectLoad]
  split
  · exact h.forget _ j hj
  · exact h.report _ j hj

theorem adoptLayout (j : Job) (hj : P j) : P j.adoptLayout := h.note _ _ (h.layout _ j hj)

theorem rederive (j : Job) (hj : P j) : P j.rederive := by
  have hi := h.inspectLoad j hj
  simp only [Job.rederive]
  split
  · split
    · exact hi
    · exact h.refit _ hi
  · exact h.refit _ (h.adoptLayout _ hi)

theorem giveUp (m : Message) (j : Job) (hj : P j) : P (j.giveUp m) :=
  h.moveTo _ _ (h.report m j hj)

theorem reviewPractice (j : Job) (hj : P j) : P j.reviewPractice := by
  have hf := h.forget Message.aboutPractice j hj
  simp only [Job.reviewPractice]
  split
  · exact h.report _ _ hf
  · exact hf

theorem route (t : Target Nat) (j : Job) (hj : P j) : P (j.route t) := by
  have hp : P j.prepareMove := h.rederive _ (h.forget _ j hj)
  simp only [Job.route]
  apply h.reviewPractice
  split
  · exact h.moveTo _ _ hp
  · exact h.giveUp _ _ hp

theorem useWiring (w : Wiring) (j : Job) (hj : P j) : P (j.useWiring w) := by
  simp only [Job.useWiring]
  split
  · exact hj
  · exact h.reviewPractice _ (h.rederive _ (h.settings _ w _ j hj))

theorem refitIf (w : Wiring) (j : Job) (hj : P j) : P (j.refitIf w) := by
  simp only [Job.refitIf]
  split
  · exact h.refit j hj
  · exact hj

theorem setSets (n : Nat) (j : Job) (hj : P j) : P (j.setSets n) := by
  unfold Job.setSets
  split
  · exact hj
  · have hs := h.rederive _ (h.note (.setsChanged n) _
      (h.settings j.circuit.load j.circuit.wiring (.onePerConduit n) j hj))
    dsimp only
    split
    · split
      · exact h.reviewPractice _ (h.giveUp _ _ (h.forget _ _ hs))
      · exact hs
    · exact hs

theorem respread (next : Spread → Option Spread) (j : Job) (hj : P j) : P (j.respread next) := by
  unfold Job.respread
  split
  · exact h.report _ j hj
  · have hf := h.forget [.conduitsOutsidePrivateConduit] j hj
    dsimp only
    split
    · exact hf
    · exact h.rederive _ (h.note _ _ (h.settings _ _ _ _ hf))

theorem apply {c : Change Nat} (hc : c.altersConductor = false) (j : Job) (hj : P j) :
    P (j.apply c) := by
  cases c with
  | route t => exact h.route t j hj
  | useWiring w => exact h.useWiring w j hj
  | replaceConductor spec => cases hc
  | replaceCable spec => exact h.refitIf _ _ (h.cable spec j hj)
  | resize s => cases hc
  | setSets n => exact h.setSets n j hj
  | widen => exact h.respread _ j hj
  | narrow => exact h.respread _ j hj
  | updateLoad f => exact h.rederive _ (h.settings _ _ _ j hj)

end Maintained

/-- Every change keeps what the primitive steps keep. -/
theorem Preserved.apply (h : Preserved P) (c : Change Nat) (j : Job) (hj : P j) :
    P (j.apply c) := by
  cases hc : c.altersConductor with
  | false => exact h.toMaintained.apply hc j hj
  | true =>
    cases c with
    | replaceConductor spec => exact h.refitIf _ _ (h.conductor spec j hj)
    | resize s => exact h.resize s j hj
    | _ => cases hc

end Job

namespace Circuit

/-- A circuit that is being made, before it has items. -/
def bare (load : Load) (nonlinear : Bool) (site : Site) : Job :=
  let layout := Layout.ofSystem load.system nonlinear
  { circuit :=
      { load, nonlinear, layout
        conductor := { (default : ConductorSpec) with id := site.nextId + 1 }
        cable :=
          { type := .mc, size := .awg12, diameter := 0.5, conductors := layout.roles,
            id := site.nextId } }
    site := site.issue 2 }

theorem create_eq (load : Load) (nonlinear : Bool) (site : Site) :
    create load nonlinear site = (bare load nonlinear site).inspectLoad.refit.reviewPractice :=
  rfl

theorem create_preserved {P : Job → Prop} (h : Job.Preserved P) (load : Load) (nonlinear : Bool)
    (site : Site) (hb : P (bare load nonlinear site)) : P (create load nonlinear site) := by
  rw [create_eq]
  exact h.reviewPractice _ (h.refit _ (h.inspectLoad _ hb))

end Circuit

end Raceways
