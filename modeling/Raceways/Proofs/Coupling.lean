import Raceways.Proofs.Renaming

/-!
Two circuits that undergo the same change. If the primitive steps of the work keep two jobs related,
so does every change, as long as related jobs have the settings in common that a change looks at.
-/

namespace Raceways

namespace Circuit

/-- A circuit with conductors of another size. -/
def resized (s : Size) (c : Circuit) : Circuit :=
  { c with
    conductor.size := s
    items := c.items.map (Item.withWireSize s) }

theorem resized_rename (σ : Nat → Nat) (s : Size) (c : Circuit) :
    (c.rename σ).resized s = (c.resized s).rename σ := by
  have hitems : (c.items.map (Item.rename σ)).map (Item.withWireSize s) =
      (c.items.map (Item.withWireSize s)).map (Item.rename σ) := by
    rw [List.map_map, List.map_map]
    exact List.map_congr_left fun i _ => Item.withWireSize_rename σ s i
  simp only [resized, rename, hitems]

end Circuit

namespace Job

/-! ## What the primitive steps do to the circuit, the contents of its private raceways aside -/

theorem unhoused_updateRaceway (f : Contents → Contents) (j : Job) :
    (j.updateRaceway f).circuit.unhoused = j.circuit.unhoused := by
  unfold updateRaceway
  split <;> rfl

theorem unhoused_refit (j : Job) :
    j.refit.circuit.unhoused =
      { j.circuit.unhoused with items := j.circuit.plannedItems j.site.nextId } := by
  have hin : j.refit.circuit.unhoused = j.vacate.replaceItems.circuit.unhoused :=
    unhoused_updateRaceway _ j.vacate.replaceItems
  have hout : j.vacate.circuit.unhoused = j.circuit.unhoused := unhoused_updateRaceway _ j
  have hnext : j.vacate.site.nextId = j.site.nextId := nextId_updateRaceway _ j
  rw [hin]
  change { j.vacate.circuit.unhoused with
    items := j.vacate.circuit.unhoused.plannedItems j.vacate.site.nextId } = _
  rw [hout, hnext]
  rfl

theorem unhoused_moveTo (r : Routing) (j : Job) :
    (j.moveTo r).circuit.unhoused = { j.circuit.unhoused with routing := r } := by
  have hin : (j.moveTo r).circuit.unhoused = { j.vacate.circuit.unhoused with routing := r } :=
    unhoused_updateRaceway _ { j.vacate with circuit.routing := r }
  have hout : j.vacate.circuit.unhoused = j.circuit.unhoused := unhoused_updateRaceway _ j
  rw [hin, hout]

theorem unhoused_resize (s : Size) (j : Job) :
    (j.resize s).circuit.unhoused = j.circuit.unhoused.resized s :=
  unhoused_updateRaceway _ _

/-! ## Related jobs -/

/-- A relation between jobs that the primitive steps keep if both take them. Related jobs have the
same settings and run through the same raceway. What was logged does not matter. -/
structure Coupled (R : Job → Job → Prop) : Prop where
  settings_eq : ∀ {j k}, R j k → j.circuit.settings = k.circuit.settings
  routing_eq : ∀ {j k}, R j k → j.circuit.routing = k.circuit.routing
  unlogged : ∀ {j k j' k'}, R j k → j'.circuit = j.circuit → j'.site = j.site →
    k'.circuit = k.circuit → k'.site = k.site → R j' k'
  record : ∀ m {j k}, R j k →
    R { j with circuit.ledger := j.circuit.ledger.record m }
      { k with circuit.ledger := k.circuit.ledger.record m }
  forget : ∀ ms {j k}, R j k → R (j.forget ms) (k.forget ms)
  settings : ∀ load wiring spread {j k}, R j k →
    R { j with
        circuit.load := load
        circuit.wiring := wiring
        circuit.spread := spread }
      { k with
        circuit.load := load
        circuit.wiring := wiring
        circuit.spread := spread }
  conductor : ∀ (spec : ConductorSpec) {j k}, R j k →
    R { j with
        circuit.conductor := { spec with role := .hot, id := j.site.nextId }
        site := j.site.issue 1 }
      { k with
        circuit.conductor := { spec with role := .hot, id := k.site.nextId }
        site := k.site.issue 1 }
  cable : ∀ (spec : CableSpec) {j k}, R j k →
    R { j with
        circuit.cable := { spec with conductors := j.circuit.layout.roles, id := j.site.nextId }
        site := j.site.issue 1 }
      { k with
        circuit.cable := { spec with conductors := k.circuit.layout.roles, id := k.site.nextId }
        site := k.site.issue 1 }
  resize : ∀ s {j k}, R j k → R (j.resize s) (k.resize s)
  refit : ∀ {j k}, R j k → R j.refit k.refit
  rederive : ∀ {j k}, R j k → R j.rederive k.rederive
  moveTo : ∀ r {j k}, R j k → R (j.moveTo r) (k.moveTo r)

namespace Coupled

variable {R : Job → Job → Prop} (h : Coupled R) {j k : Job}

include h

theorem load_eq (hjk : R j k) : j.circuit.load = k.circuit.load :=
  congrArg (·.1) (h.settings_eq hjk)

theorem wiring_eq (hjk : R j k) : j.circuit.wiring = k.circuit.wiring :=
  congrArg (·.2.1) (h.settings_eq hjk)

theorem spread_eq (hjk : R j k) : j.circuit.spread = k.circuit.spread :=
  congrArg (·.2.2) (h.settings_eq hjk)

theorem report (m : Message) (hjk : R j k) : R (j.report m) (k.report m) :=
  h.unlogged (h.record m hjk) (circuit_report m j) (site_report m j) (circuit_report m k)
    (site_report m k)

theorem note (e : Event) (hjk : R j k) : R (j.note e) (k.note e) :=
  h.unlogged hjk rfl rfl rfl rfl

theorem giveUp (m : Message) (hjk : R j k) : R (j.giveUp m) (k.giveUp m) :=
  h.moveTo .freeAir (h.report m hjk)

theorem reviewPractice (hjk : R j k) : R j.reviewPractice k.reviewPractice := by
  have hf := h.forget Message.aboutPractice hjk
  simp only [Job.reviewPractice, Circuit.mode, h.routing_eq hf, h.wiring_eq hf]
  split
  · exact h.report _ hf
  · exact hf

theorem load (f : Load → Load) (hjk : R j k) :
    R { j with circuit.load := f j.circuit.load } { k with circuit.load := f k.circuit.load } := by
  have hs := h.settings (f j.circuit.load) j.circuit.wiring j.circuit.spread hjk
  rw [h.load_eq hjk, h.wiring_eq hjk, h.spread_eq hjk] at hs
  refine h.unlogged hs ?_ rfl rfl rfl
  rw [← h.load_eq hjk, ← h.wiring_eq hjk, ← h.spread_eq hjk]

theorem wiring (w : Wiring) (hjk : R j k) :
    R { j with circuit.wiring := w } { k with circuit.wiring := w } := by
  have hs := h.settings j.circuit.load w j.circuit.spread hjk
  refine h.unlogged hs rfl rfl ?_ rfl
  rw [h.load_eq hjk, h.spread_eq hjk]

theorem spread (s : Spread) (hjk : R j k) :
    R { j with circuit.spread := s } { k with circuit.spread := s } := by
  have hs := h.settings j.circuit.load j.circuit.wiring s hjk
  refine h.unlogged hs rfl rfl ?_ rfl
  rw [h.load_eq hjk, h.wiring_eq hjk]

theorem route (t : Target Nat) (hjk : R j k) : R (j.route t) (k.route t) := by
  have hp : R j.prepareMove k.prepareMove := h.rederive (h.forget Message.aboutRouting hjk)
  simp only [Job.route, h.spread_eq hp]
  apply h.reviewPractice
  split
  · exact h.moveTo _ hp
  · exact h.giveUp _ hp

theorem useWiring (w : Wiring) (hjk : R j k) : R (j.useWiring w) (k.useWiring w) := by
  simp only [Job.useWiring, h.wiring_eq hjk]
  split
  · exact hjk
  · exact h.reviewPractice (h.rederive (h.wiring w hjk))

theorem refitIf (w : Wiring) (hjk : R j k) : R (j.refitIf w) (k.refitIf w) := by
  simp only [Job.refitIf, h.wiring_eq hjk]
  split
  · exact h.refit hjk
  · exact hjk

theorem setSets (n : Nat) (hjk : R j k) : R (j.setSets n) (k.setSets n) := by
  unfold Job.setSets
  rw [h.spread_eq hjk]
  split
  · exact hjk
  · have hs := h.rederive (h.note (.setsChanged n) (h.spread (.onePerConduit n) hjk))
    dsimp only at hs ⊢
    generalize Job.rederive (Job.note _ { j with circuit := _ }) = set at hs ⊢
    generalize Job.rederive (Job.note _ { k with circuit := _ }) = set' at hs ⊢
    rw [h.routing_eq hs]
    split
    · split
      · exact h.reviewPractice (h.giveUp _ (h.forget _ hs))
      · exact hs
    · exact hs

theorem respread (next : Spread → Option Spread) (hjk : R j k) :
    R (j.respread next) (k.respread next) := by
  unfold Job.respread
  rw [h.routing_eq hjk]
  split
  · exact h.report _ hjk
  · have hf := h.forget [.conduitsOutsidePrivateConduit] hjk
    dsimp only
    rw [h.spread_eq hf]
    split
    · exact hf
    · exact h.rederive (h.note _ (h.spread _ hf))

/-- Two jobs that are related stay so under the same change. -/
theorem apply (c : Change Nat) (hjk : R j k) : R (j.apply c) (k.apply c) := by
  cases c with
  | route t => exact h.route t hjk
  | useWiring w => exact h.useWiring w hjk
  | replaceConductor spec => exact h.refitIf .conductors (h.conductor spec hjk)
  | replaceCable spec => exact h.refitIf .cables (h.cable spec hjk)
  | resize s => exact h.resize s hjk
  | setSets n => exact h.setSets n hjk
  | widen => exact h.respread _ hjk
  | narrow => exact h.respread _ hjk
  | updateLoad f => exact h.rederive (h.load f hjk)

end Coupled

end Job

end Raceways
