import Raceways.Proofs.Rerouting

/-!
Which changes read the load of a circuit again. After these, whatever had become of the load in the
meantime, the circuit is as its load requires. A new pattern alone is made and laid out after the
old layout, and nothing is said of the load.
-/

namespace Raceways

namespace Circuit

/-- Whether a change makes the circuit read its load again. To ask for what there is already, or for
another number of conduits where there is none, does not. -/
def Rereads (c : Circuit) : Change Nat → Prop
  | .route _ | .updateLoad _ => True
  | .useWiring w => w ≠ c.wiring
  | .setSets n => n ≠ 0 ∧ n ≠ c.spread.sets
  | .widen => c.routing = .privateConduit ∧ c.spread.wider? ≠ none
  | .narrow => c.routing = .privateConduit ∧ c.spread.narrower? ≠ none
  | .replaceConductor _ | .replaceCable _ | .resize _ => False

/-- A circuit that is as its load requires, and says of the load what there is to say. -/
structure CaughtUp (c : Circuit) : Prop where
  shaped : c.Shaped
  upToDate : c.UpToDate
  told : ∃ S, c.ledger.Says S ∧ (S .invalidLoad ↔ c.load.isValid = false)

namespace CaughtUp

variable {c d : Circuit}

theorem of_kit_eq (h : c.CaughtUp) (e : d.kit = c.kit)
    (told : ∃ S, d.ledger.Says S ∧ (S .invalidLoad ↔ c.load.isValid = false)) : d.CaughtUp := by
  have hload : d.load = c.load := congrArg (·.1) (settings_of_kit_eq e)
  refine ⟨h.shaped.of_kit_eq e, h.upToDate.of_kit_eq e, ?_⟩
  rw [hload]
  exact told

theorem has_invalidLoad_iff (h : c.CaughtUp) : c.ledger.has (-1) ↔ c.load.isValid = false := by
  obtain ⟨S, hs, hload⟩ := h.told
  exact (hs.has_number_iff .invalidLoad).trans hload

end CaughtUp

end Circuit

namespace Job

open Circuit

/-! ## How conduits are counted -/

theorem spread_forget (ms : List Message) (j : Job) :
    (j.forget ms).circuit.spread = j.circuit.spread := rfl

theorem spread_rederive (j : Job) : j.rederive.circuit.spread = j.circuit.spread :=
  congrArg (·.2.2) (settings_rederive j)

theorem spread_respread (next : Spread → Option Spread) (j : Job) :
    (j.respread next).circuit.spread =
      if j.circuit.routing = .privateConduit then (next j.circuit.spread).getD j.circuit.spread
      else j.circuit.spread := by
  by_cases hr : j.circuit.routing = .privateConduit
  · simp only [respread, hr, ne_eq, not_true_eq_false, ↓reduceIte, spread_forget]
    cases next j.circuit.spread with
    | none => rfl
    | some s => exact spread_rederive _
  · simp only [respread, ne_eq, hr, not_false_eq_true, ↓reduceIte]
    rw [circuit_report]

/-- The load is read again exactly if the number of conduits changes. -/
theorem conduits_respread_ne_iff {next : Spread → Option Spread}
    (hnext : ∀ {s t : Spread}, next s = some t → t.conduits ≠ s.conduits) (j : Job) :
    (j.respread next).circuit.spread.conduits ≠ j.circuit.spread.conduits ↔
      j.circuit.routing = .privateConduit ∧ next j.circuit.spread ≠ none := by
  rw [spread_respread]
  by_cases hr : j.circuit.routing = .privateConduit
  · rw [if_pos hr]
    cases hs : next j.circuit.spread with
    | none => simp
    | some s => simp [hr, hnext hs]
  · simp [hr]

/-- A request for more or fewer conduits makes the circuit read its load again exactly if it is
granted. -/
theorem rereads_iff_conduits_ne {c : Change Nat} (hc : c = .widen ∨ c = .narrow) (j : Job) :
    j.circuit.Rereads c ↔ (j.apply c).circuit.spread.conduits ≠ j.circuit.spread.conduits := by
  rcases hc with rfl | rfl
  · exact (conduits_respread_ne_iff Spread.conduits_ne_of_wider? j).symm
  · exact (conduits_respread_ne_iff Spread.conduits_ne_of_narrower? j).symm

/-! ## Steps of a circuit that has caught up -/

theorem caughtUp_rederive {j : Job} {S : Message → Prop} (h : j.circuit.Resettled)
    (hs : j.Says S) : j.rederive.circuit.CaughtUp := by
  obtain ⟨hshaped, hup⟩ := settled_rederive h
  refine ⟨hshaped, hup, _, hs.rederive, ?_⟩
  rw [load_rederive]
  simp

theorem caughtUp_forget {j : Job} (h : j.circuit.CaughtUp) {ms : List Message}
    (hms : .invalidLoad ∉ ms) : (j.forget ms).circuit.CaughtUp := by
  obtain ⟨S, hs, hload⟩ := h.told
  have hs' : j.Says S := hs
  exact h.of_kit_eq rfl ⟨_, hs'.forget ms, (and_iff_right hms).trans hload⟩

theorem caughtUp_report {j : Job} (h : j.circuit.CaughtUp) {m : Message}
    (hm : m ≠ .invalidLoad) : (j.report m).circuit.CaughtUp := by
  obtain ⟨S, hs, hload⟩ := h.told
  have hs' : j.Says S := hs
  exact h.of_kit_eq (kit_report m j) ⟨_, hs'.report m, (or_iff_right hm.symm).trans hload⟩

theorem caughtUp_moveTo {j : Job} (h : j.circuit.CaughtUp) (r : Routing) :
    (j.moveTo r).circuit.CaughtUp := by
  obtain ⟨S, hs, hload⟩ := h.told
  have hs' : j.Says S := hs
  exact h.of_kit_eq (kit_moveTo r j) ⟨S, hs'.moveTo r, hload⟩

theorem caughtUp_giveUp {j : Job} (h : j.circuit.CaughtUp) {m : Message}
    (hm : m ≠ .invalidLoad) : (j.giveUp m).circuit.CaughtUp :=
  caughtUp_moveTo (caughtUp_report h hm) .freeAir

theorem caughtUp_reviewPractice {j : Job} (h : j.circuit.CaughtUp) :
    j.reviewPractice.circuit.CaughtUp := by
  obtain ⟨S, hs, hload⟩ := h.told
  have hs' : j.Says S := hs
  refine h.of_kit_eq (kit_reviewPractice j) ⟨_, hs'.reviewPractice, ?_⟩
  simpa [Message.aboutPractice] using hload

theorem ne_invalidLoad_of_failures {m : Message} (h : m ∈ Message.failures) :
    m ≠ .invalidLoad := by
  rintro rfl
  simp [Message.failures] at h

theorem invalidLoad_notMem_aboutRouting : Message.invalidLoad ∉ Message.aboutRouting := by
  simp [Message.mem_aboutRouting_iff]

/-! ## Every change that reads the load -/

theorem caughtUp_route {j : Job} {S : Message → Prop} (h : j.circuit.Shaped) (hs : j.Says S)
    (t : Target Nat) : (j.route t).circuit.CaughtUp := by
  have hr : (j.forget Message.aboutRouting).circuit.Resettled := h.resettled.of_kit_eq rfl
  have hp : j.prepareMove.circuit.CaughtUp := caughtUp_rederive hr (hs.forget _)
  simp only [route]
  apply caughtUp_reviewPractice
  cases ht : t.routingFor j.prepareMove.circuit.spread.sets with
  | ok r => exact caughtUp_moveTo hp r
  | error m =>
    have hm : t.failure? j.prepareMove.circuit.spread.sets = some m := by
      unfold Target.failure?
      rw [ht]
    exact caughtUp_giveUp hp (ne_invalidLoad_of_failures (Target.failure?_mem hm))

theorem caughtUp_setSets {j : Job} {S : Message → Prop} (h : j.circuit.Shaped) (hs : j.Says S)
    {n : Nat} (hn : n ≠ 0 ∧ n ≠ j.circuit.spread.sets) : (j.setSets n).circuit.CaughtUp := by
  have hset : (({ j with circuit.spread := .onePerConduit n } : Job).note
      (.setsChanged n)).rederive.circuit.CaughtUp :=
    caughtUp_rederive (h.resettle _ _ _ (Spread.Even.onePerConduit (Nat.pos_of_ne_zero hn.1))) hs
  simp only [setSets, hn.1, hn.2, or_self, ↓reduceIte]
  generalize Job.rederive _ = k at hset
  cases hr : k.circuit.routing with
  | shared r =>
    obtain ⟨m, hm, hmr⟩ := Routing.exists_setsError r
    simp only [hmr]
    split
    · exact caughtUp_reviewPractice (caughtUp_giveUp
        (caughtUp_forget hset invalidLoad_notMem_aboutRouting) (ne_invalidLoad_of_failures hm))
    · exact hset
  | _ => exact hset

theorem caughtUp_respread {j : Job} {S : Message → Prop} (h : j.circuit.Shaped) (hs : j.Says S)
    {next : Spread → Option Spread} (hnext : ∀ {s t : Spread}, s.Even → next s = some t → t.Even)
    (hr : j.circuit.routing = .privateConduit) (hn : next j.circuit.spread ≠ none) :
    (j.respread next).circuit.CaughtUp := by
  obtain ⟨s, hspread⟩ := Option.ne_none_iff_exists'.mp hn
  simp only [respread, hr, ne_eq, not_true_eq_false, ↓reduceIte, spread_forget, hspread]
  refine caughtUp_rederive ?_ (hs.forget [.conduitsOutsidePrivateConduit])
  exact (h.resettle _ _ s (hnext h.even hspread)).of_kit_eq rfl

/-- Every change that reads the load again leaves a circuit that has caught up with it. -/
theorem caughtUp_apply {j : Job} {S : Message → Prop} (h : j.circuit.Shaped) (hs : j.Says S)
    {c : Change Nat} (hc : j.circuit.Rereads c) : (j.apply c).circuit.CaughtUp := by
  cases c with
  | route t => exact caughtUp_route h hs t
  | useWiring w =>
    have hw : w ≠ j.circuit.wiring := hc
    simp only [apply, useWiring, hw, ↓reduceIte]
    exact caughtUp_reviewPractice (caughtUp_rederive (h.resettle _ w _ h.even) hs)
  | setSets n => exact caughtUp_setSets h hs hc
  | widen => exact caughtUp_respread h hs Spread.Even.wider? hc.1 hc.2
  | narrow => exact caughtUp_respread h hs Spread.Even.narrower? hc.1 hc.2
  | updateLoad f => exact caughtUp_rederive (h.resettle _ _ _ h.even) hs
  | replaceConductor spec => exact hc.elim
  | replaceCable spec => exact hc.elim
  | resize s => exact hc.elim

/-! ## A new pattern -/

theorem layout_refitIf (w : Wiring) (j : Job) :
    (j.refitIf w).circuit.layout = j.circuit.layout ∧
      (j.refitIf w).circuit.ledger = j.circuit.ledger := by
  simp only [refitIf]
  split
  · obtain ⟨k, b, hc⟩ := circuit_refit j
    rw [hc]
    exact ⟨rfl, rfl⟩
  · exact ⟨rfl, rfl⟩

end Job

namespace Circuit

/-- **Loads are read again.** Whatever had become of the load of a circuit without the circuit's
knowing, after any change that reads the load again the layout is that of the load, the items and
the cables have the roles of the layout, and an error says whether the load is invalid. A request
for more or fewer conduits is such a change exactly if the number of conduits changes. A new pattern
is made after the layout that there was, and nothing is said of the load. -/
theorem load_read_again (load : Load) (nonlinear : Bool) (site : Site)
    (history : List (Site × Occurrence)) (f : Load → Load) (s s' : Site) (change : Change Nat) :
    let c := (create load nonlinear site).circuit.after history
    let poked := c.after [(s, .poke f)]
    let d := poked.after [(s', .change change)]
    (poked.Rereads change →
      d.layout = Layout.ofSystem d.load.system d.nonlinear ∧ d.InShape ∧
        d.cable.conductors = d.layout.roles ∧
        (d.ledger.has (-1) ↔ d.load.isValid = false)) ∧
    (change = .widen ∨ change = .narrow →
      (poked.Rereads change ↔ d.spread.conduits ≠ c.spread.conduits)) ∧
    ((∃ spec, change = .replaceConductor spec) ∨ (∃ spec, change = .replaceCable spec) →
      d.layout = c.layout ∧ d.InShape ∧ d.cable.conductors = d.layout.roles ∧
        d.ledger = c.ledger) := by
  intro c poked d
  have hlived : poked.Lived :=
    Lived.meet ⟨load, nonlinear, site, history, rfl⟩ s (.poke f)
  obtain ⟨S, hs⟩ := hlived.told
  have hshaped : d.Shaped := (hlived.meet s' (.change change)).shaped
  refine ⟨fun hc => ?_, fun hc => ?_, ?_⟩
  · have h : d.CaughtUp := Job.caughtUp_apply (j := ⟨poked, s', []⟩) hlived.shaped hs hc
    exact ⟨h.upToDate, h.shaped.inShape, h.shaped.inside, h.has_invalidLoad_iff⟩
  · exact Job.rereads_iff_conduits_ne hc ⟨poked, s', []⟩
  · rintro (⟨spec, rfl⟩ | ⟨spec, rfl⟩)
    · obtain ⟨hlayout, hledger⟩ := Job.layout_refitIf .conductors
        { circuit := { poked with conductor := { spec with role := .hot, id := s'.nextId } }
          site := s'.issue 1 }
      exact ⟨hlayout, hshaped.inShape, hshaped.inside, hledger⟩
    · obtain ⟨hlayout, hledger⟩ := Job.layout_refitIf .cables
        { circuit :=
            { poked with
              cable := { spec with conductors := poked.layout.roles, id := s'.nextId } }
          site := s'.issue 1 }
      exact ⟨hlayout, hshaped.inShape, hshaped.inside, hledger⟩

/-- The load of a circuit goes over to another system and turns invalid, and the circuit does not
know. -/
def overtaken : Load → Load := fun l =>
  { l with
    system := .wye277x480
    verdict := some false }

/-- Laying cables shows what became of the load. A new conductor does not. -/
theorem cables_show_load :
    let load : Load := { system := .ln120, ampacity := 16, verdict := some true }
    let c := (create load false {}).circuit
    let poked := c.after [({}, .poke overtaken)]
    let d := poked.after [({}, .change (.useWiring .cables))]
    let e := poked.after [({}, .change (.replaceConductor default))]
    (poked.Rereads (.useWiring .cables) ∧ d.layout = ⟨true, true, some .balancedNeutral⟩ ∧
      d.ledger.has (-1)) ∧ e.layout = c.layout ∧ e.ledger = c.ledger := by
  intro load c poked d e
  have hreads : poked.Rereads (.useWiring .cables) := by unfold Rereads; decide
  have hcables := (load_read_again load false {} [] overtaken {} {} (.useWiring .cables)).1 hreads
  have hpattern := (load_read_again load false {} [] overtaken {} {}
    (.replaceConductor default)).2.2 (Or.inl ⟨_, rfl⟩)
  have hrequired : Layout.ofSystem d.load.system d.nonlinear =
      ⟨true, true, some .balancedNeutral⟩ := by decide +kernel
  have hinvalid : d.load.isValid = false := by decide +kernel
  exact ⟨⟨hreads, hcables.1.trans hrequired, hcables.2.2.2.mpr hinvalid⟩, hpattern.1,
    hpattern.2.2.2⟩

/-- After a new conductor the items are still those of the old system, and no error says that the
load is invalid. -/
theorem conductor_made_after_old_layout :
    let load : Load := { system := .ln120, ampacity := 16, verdict := some true }
    let d := (create load false {}).circuit.after
      [({}, .poke overtaken), ({}, .change (.replaceConductor default))]
    d.layout ≠ Layout.ofSystem d.load.system d.nonlinear ∧
      d.items.map Item.role ≠ (Layout.ofSystem d.load.system d.nonlinear).roles.map some ∧
      d.load.isValid = false ∧ ¬ d.ledger.has (-1) := by
  decide +kernel

end Circuit

end Raceways
