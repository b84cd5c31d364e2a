import Raceways.Proofs.Census
import Raceways.Proofs.Redistribution

/-!
When the items of a circuit are made anew. A change that leaves the patterns alone reads the load
again at most once, and the items are then kept exactly if layout, wiring and number are as before.
-/

namespace Raceways

/-- Whether a change leaves the patterns as they are. -/
def Change.sparesPatterns {ρ : Type} : Change ρ → Bool
  | .replaceConductor _ | .replaceCable _ | .resize _ => false
  | _ => true

/-- What becomes of the items of a circuit in a job whose next id was `next` at first. They are kept
if layout and plan are as before, and otherwise made anew, at the cost of an id for each but the
first. -/
inductive Renewal (c : Circuit) (next : Nat) (j : Job) : Prop
  | kept (layout : j.circuit.layout = c.layout) (plan : j.circuit.plan = c.plan)
      (items : j.circuit.items = c.items) (issued : j.site.nextId = next)
  | renewed (changed : j.circuit.layout ≠ c.layout ∨ j.circuit.plan ≠ c.plan)
      (items : j.circuit.items = j.circuit.plannedItems next)
      (issued : j.site.nextId = next + (j.circuit.plan.length - 1))

namespace Renewal

variable {c : Circuit} {next : Nat} {j k : Job}

theorem refl (j : Job) : Renewal j.circuit j.site.nextId j := .kept rfl rfl rfl rfl

/-- Where a circuit runs, and what is on record about it, is all the same to its items. -/
theorem of_kit_eq (h : Renewal c next j) (hkit : k.circuit.kit = j.circuit.kit)
    (hnext : k.site.nextId = j.site.nextId) : Renewal c next k := by
  have hlayout : k.circuit.layout = j.circuit.layout := by
    have he := congrArg Circuit.layout hkit
    exact he
  have hplan : k.circuit.plan = j.circuit.plan := by
    have he := congrArg Circuit.plan hkit
    exact he
  have hitems : k.circuit.items = j.circuit.items := by
    have he := congrArg Circuit.items hkit
    exact he
  have hplanned : k.circuit.plannedItems next = j.circuit.plannedItems next := by
    have he := congrArg (Circuit.plannedItems · next) hkit
    exact he
  cases h with
  | kept layout plan items issued =>
    exact .kept (hlayout.trans layout) (hplan.trans plan) (hitems.trans items)
      (hnext.trans issued)
  | renewed changed items issued =>
    refine .renewed ?_ ?_ ?_
    · rwa [hlayout, hplan]
    · rw [hitems, hplanned, items]
    · rw [hnext, hplan, issued]

theorem report (h : Renewal c next j) (m : Message) : Renewal c next (j.report m) :=
  h.of_kit_eq (Job.kit_report m j) (congrArg Site.nextId (Job.site_report m j))

theorem forget (h : Renewal c next j) (ms : List Message) : Renewal c next (j.forget ms) :=
  h.of_kit_eq rfl rfl

theorem reviewPractice (h : Renewal c next j) : Renewal c next j.reviewPractice :=
  h.of_kit_eq (Job.kit_reviewPractice j) (congrArg (·.1.nextId) (Job.lodging_reviewPractice j))

theorem moveTo (h : Renewal c next j) (r : Routing) : Renewal c next (j.moveTo r) :=
  h.of_kit_eq (Job.kit_moveTo r j) (Job.nextId_moveTo r j)

theorem giveUp (h : Renewal c next j) (m : Message) : Renewal c next (j.giveUp m) :=
  (h.report m).moveTo .freeAir

/-- The items are compared with the plan once, and a new layout never passes for the old one. -/
theorem rederive (hc : c.Shaped) (hlayout : j.circuit.layout = c.layout)
    (hitems : j.circuit.items = c.items) : Renewal c j.site.nextId j.rederive := by
  have hplanned : c.items.map Item.role = c.plan := of_decide_eq_true hc.isPlanned
  have hkit := Job.kit_inspectLoad j
  have hnext : j.inspectLoad.site.nextId = j.site.nextId :=
    congrArg (·.1.nextId) (Job.lodging_inspectLoad j)
  have hkeeps : j.inspectLoad.circuit.layout = c.layout := by
    have he := congrArg Circuit.layout hkit
    exact he.trans hlayout
  have hsame : j.inspectLoad.circuit.items = c.items := by
    have he := congrArg Circuit.items hkit
    exact he.trans hitems
  simp only [Job.rederive]
  split
  · split
    · rename_i hp
      have hplan : j.inspectLoad.circuit.items.map Item.role = j.inspectLoad.circuit.plan :=
        of_decide_eq_true hp
      rw [hsame, hplanned] at hplan
      exact .kept hkeeps hplan.symm hsame hnext
    · rename_i hp
      -- the items came to the old plan, so it is another one that they do not come to
      obtain ⟨k, b, hc⟩ := Job.circuit_refit j.inspectLoad
      refine .renewed (.inr fun hplan => hp ?_) ?_ ?_
      · rw [hc] at hplan
        rw [← hplanned, ← hsame] at hplan
        exact decide_eq_true hplan.symm
      · rw [hc, hnext]
        rfl
      · rw [Job.nextId_refit, hc, hnext]
        rfl
  · rename_i hnew
    obtain ⟨k, b, hc⟩ := Job.circuit_refit j.inspectLoad.adoptLayout
    refine .renewed (.inl fun hl => hnew ?_) ?_ ?_
    · rw [hc] at hl
      exact hl.trans hkeeps.symm
    · rw [hc, ← hnext]
      rfl
    · rw [Job.nextId_refit, hc, ← hnext]
      rfl

end Renewal

namespace Job

open Circuit

variable {j : Job} (h : j.circuit.Shaped)

include h

theorem renewal_route (t : Target Nat) : Renewal j.circuit j.site.nextId (j.route t) := by
  have hread : Renewal j.circuit j.site.nextId j.prepareMove :=
    Renewal.rederive (j := j.forget Message.aboutRouting) h rfl rfl
  simp only [route]
  refine Renewal.reviewPractice ?_
  split
  · exact hread.moveTo _
  · exact hread.giveUp _

theorem renewal_useWiring (w : Wiring) :
    Renewal j.circuit j.site.nextId (j.useWiring w) := by
  simp only [useWiring]
  split
  · exact Renewal.refl j
  · exact (Renewal.rederive (j := { j with circuit.wiring := w }) h rfl rfl).reviewPractice

theorem renewal_setSets (n : Nat) : Renewal j.circuit j.site.nextId (j.setSets n) := by
  unfold setSets
  split
  · exact Renewal.refl j
  · have hread := Renewal.rederive
      (j := ({ j with circuit.spread := .onePerConduit n } : Job).note (.setsChanged n)) h rfl rfl
    dsimp only
    split
    · split
      · exact ((hread.forget _).giveUp _).reviewPractice
      · exact hread
    · exact hread

theorem renewal_respread (next : Spread → Option Spread) :
    Renewal j.circuit j.site.nextId (j.respread next) := by
  unfold respread
  split
  · exact (Renewal.refl j).report _
  · dsimp only
    split
    · exact (Renewal.refl j).forget _
    · rename_i s _
      exact Renewal.rederive
        (j := ({ j.forget [.conduitsOutsidePrivateConduit] with
          circuit.spread := s } : Job).note (.distributed s.sets s.conduits)) h rfl rfl

theorem renewal_updateLoad (f : Load → Load) :
    Renewal j.circuit j.site.nextId (j.updateLoad f) :=
  Renewal.rederive (j := { j with circuit.load := f j.circuit.load }) h rfl rfl

/-- No change replaces the items twice. -/
theorem renewal_apply {c : Change Nat} (hc : c.sparesPatterns) :
    Renewal j.circuit j.site.nextId (j.apply c) := by
  cases c with
  | route t => exact renewal_route h t
  | useWiring w => exact renewal_useWiring h w
  | setSets n => exact renewal_setSets h n
  | widen => exact renewal_respread h _
  | narrow => exact renewal_respread h _
  | updateLoad f => exact renewal_updateLoad h f
  | replaceConductor _ | replaceCable _ | resize _ => cases hc

end Job

namespace Circuit

theorem length_plan (c : Circuit) : c.plan.length = c.filling := by
  unfold plan filling setsWithin
  cases c.wiring <;> simp [Layout.roles_length]

/-- A plan is known from layout, wiring and number. -/
theorem plan_eq_iff {c d : Circuit} (hc : c.Fit) (hd : d.Fit) (hlayout : d.layout = c.layout) :
    d.plan = c.plan ↔ d.wiring = c.wiring ∧ d.filling = c.filling := by
  constructor
  · intro h
    refine ⟨wiring_eq_of_plan_eq h hd.even hc.even hd.hot hc.hot, ?_⟩
    rw [← length_plan, ← length_plan, h]
  · rintro ⟨hwiring, hfilling⟩
    unfold filling setsWithin at hfilling
    unfold plan
    rw [hwiring, hlayout] at hfilling ⊢
    cases hw : c.wiring with
    | conductors =>
      simp only [hw] at hfilling
      have hsize : 0 < c.layout.size := by simp [← Layout.roles_length, Layout.roles]
      rw [Nat.eq_of_mul_eq_mul_right hsize hfilling]
    | cables =>
      simp only [hw] at hfilling
      rw [hfilling]

/-- **Items keep their identity unless the shape changes.** A change that leaves the patterns alone
keeps all items and issues no id, if layout, wiring and the number of items that are required stay.
Otherwise the first item is the pattern in use, and the others have just the ids that were issued by
this change, in order. -/
theorem items_kept_or_renewed (load : Load) (nonlinear : Bool) (site : Site)
    (history : List (Site × Occurrence)) (change : Change Nat) (hspares : change.sparesPatterns)
    (s : Site) (log : List Event) :
    let c := (create load nonlinear site).circuit.after history
    let j := Job.apply change ⟨c, s, log⟩
    let d := j.circuit
    if d.layout = c.layout ∧ d.wiring = c.wiring ∧ d.filling = c.filling then
      d.items = c.items ∧ j.site.nextId = s.nextId
    else
      d.items.head?.map Item.id = some d.pattern.id ∧
        d.items.tail.map Item.id = List.range' s.nextId (d.items.length - 1) ∧
        j.site.nextId = s.nextId + (d.items.length - 1) := by
  intro c j d
  have hc : c.Shaped := Lived.shaped ⟨load, nonlinear, site, history, rfl⟩
  have hd : d.Shaped := (Job.settles_apply change (j := ⟨c, s, log⟩) hc).shaped
  have hrenewal : Renewal c s.nextId j := Job.renewal_apply (j := ⟨c, s, log⟩) hc hspares
  have hshape : d.layout = c.layout ∧ d.wiring = c.wiring ∧ d.filling = c.filling ↔
      d.layout = c.layout ∧ d.plan = c.plan :=
    and_congr_right fun hlayout => (plan_eq_iff hc.toFit hd.toFit hlayout).symm
  cases hrenewal with
  | kept layout plan items issued =>
    rw [if_pos (hshape.mpr ⟨layout, plan⟩)]
    exact ⟨items, issued⟩
  | renewed changed items issued =>
    have hlength : d.items.length - 1 = d.plan.length - 1 := by
      rw [hd.length_items, length_plan]
    rw [if_neg (hshape.not.mpr fun h => ?_), hlength]
    · have hids := d.map_id_plannedItems s.nextId
      rw [← items] at hids
      refine ⟨?_, ?_, issued⟩
      · rw [← List.head?_map, hids]
        rfl
      · rw [List.map_tail, hids]
        rfl
    · exact changed.elim (· h.1) (· h.2)

/-- Half a dozen sets apart need the same conductors as a dozen. A dozen sets two to a conduit need
twice as many, so all but the first are new. -/
theorem dozen_kept_or_renewed :
    let c := someCircuit.after dozenApart
    let j := Job.apply (.setSets 6) ⟨c, { nextId := 20 }, []⟩
    let k := Job.apply .narrow ⟨c, { nextId := 20 }, []⟩
    (j.circuit.items = c.items ∧ j.site.nextId = 20) ∧
      k.circuit.items.head?.map Item.id = some 2 ∧
      k.circuit.items.tail.map Item.id = [20, 21, 22, 23, 24, 25, 26] ∧ k.site.nextId = 27 := by
  have hj := items_kept_or_renewed { system := .split120x240, ampacity := 16, verdict := some true }
    false {} dozenApart (.setSets 6) rfl { nextId := 20 } []
  have hk := items_kept_or_renewed { system := .split120x240, ampacity := 16, verdict := some true }
    false {} dozenApart .narrow rfl { nextId := 20 } []
  have hlength : (Job.apply .narrow ⟨someCircuit.after dozenApart, { nextId := 20 },
      []⟩).circuit.items.length = 8 := by decide +kernel
  have hpattern : (Job.apply .narrow ⟨someCircuit.after dozenApart, { nextId := 20 },
      []⟩).circuit.pattern.id = 2 := by decide +kernel
  rw [if_pos (by decide +kernel)] at hj
  rw [if_neg (by decide +kernel)] at hk
  unfold someCircuit at hlength hpattern ⊢
  rw [hlength, hpattern] at hk
  exact ⟨hj, hk⟩

end Circuit

end Raceways
