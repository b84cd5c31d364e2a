import Raceways.Proofs.Life
import Raceways.Proofs.Spread
import Raceways.Proofs.Work

/-!
The shape of a circuit: which items it has, given its patterns, its layout and its spread. The
items are replaced only when their roles are no longer those that are planned, so it has to be
shown that between two replacements nothing else about them gets out of step.
-/

namespace Raceways

namespace Circuit

/-! ## Planned items -/

theorem plan_head? (c : Circuit) (he : c.spread.Even) (hh : c.conductor.role = .hot) :
    c.plan.head? = some c.pattern.role := by
  unfold plan pattern
  cases c.wiring with
  | conductors =>
    obtain ⟨k, hk⟩ := Nat.exists_eq_succ_of_ne_zero (Nat.ne_of_gt he.setsPerConduit_pos)
    simp [hk, List.replicate_succ, Layout.roles, Item.role, hh]
  | cables =>
    obtain ⟨k, hk⟩ := Nat.exists_eq_succ_of_ne_zero (Nat.ne_of_gt he.sets_pos)
    simp [hk, List.replicate_succ, Item.role]

theorem plan_eq_cons (c : Circuit) (he : c.spread.Even) (hh : c.conductor.role = .hot) :
    c.plan = c.pattern.role :: c.plan.drop 1 := by
  have h := c.plan_head? he hh
  cases hp : c.plan with
  | nil => simp [hp] at h
  | cons r rest =>
    rw [hp] at h
    cases h
    rfl

theorem role_anew_pattern (c : Circuit) (id : Nat) (r : Option Role) (hr : r ∈ c.plan) :
    (c.pattern.anew id r).role = r := by
  unfold plan at hr
  unfold pattern
  cases hw : c.wiring with
  | conductors =>
    simp only [hw] at hr
    obtain ⟨x, _, rfl⟩ := List.mem_map.mp hr
    rfl
  | cables =>
    simp only [hw] at hr
    rw [List.eq_of_mem_replicate hr]
    rfl

theorem map_role_plannedItems (c : Circuit) (next : Nat) (he : c.spread.Even)
    (hh : c.conductor.role = .hot) : (c.plannedItems next).map Item.role = c.plan := by
  rw [c.plan_eq_cons he hh]
  unfold plannedItems
  rw [List.map_cons]
  congr 1
  apply List.ext_getElem
  · simp
  · intro i h₁ h₂
    simp only [List.getElem_map, List.getElem_mapIdx]
    exact c.role_anew_pattern _ _ (List.mem_of_mem_drop (List.getElem_mem h₂))

/-- Plans tell conductors from cables. -/
theorem wiring_eq_of_plan_eq {c d : Circuit} (h : c.plan = d.plan) (hc : c.spread.Even)
    (hd : d.spread.Even) (hhc : c.conductor.role = .hot) (hhd : d.conductor.role = .hot) :
    c.wiring = d.wiring := by
  have hhead : c.pattern.role = d.pattern.role := by
    have hcd := c.plan_head? hc hhc
    rw [h, d.plan_head? hd hhd] at hcd
    exact (Option.some.inj hcd).symm
  unfold pattern at hhead
  cases hcw : c.wiring <;> cases hdw : d.wiring <;> simp [hcw, hdw, Item.role] at hhead ⊢

theorem plannedItems_congr (c d : Circuit) (next : Nat) (hp : c.pattern = d.pattern)
    (h : c.plan = d.plan) : c.plannedItems next = d.plannedItems next := by
  unfold plannedItems
  rw [hp, h]

/-- Items that are made anew in another size are the old ones in this size. -/
theorem plannedItems_resized (c : Circuit) (s : Size) (next : Nat) :
    ({ c with conductor.size := s } : Circuit).plannedItems next =
      (c.plannedItems next).map (Item.withWireSize s) := by
  have hp : ({ c with conductor.size := s } : Circuit).pattern = c.pattern.withWireSize s := by
    unfold pattern
    cases c.wiring <;> rfl
  have hanew : ∀ id role,
      (c.pattern.withWireSize s).anew id role = (c.pattern.anew id role).withWireSize s := by
    intro id role
    cases c.pattern <;> rfl
  unfold plannedItems
  rw [hp, List.map_cons]
  congr 1
  apply List.ext_getElem
  · simp [plan]
  · intro i h₁ h₂
    simp [hanew, plan]

/-! ## Shape -/

/-- A circuit that may be fitted with new items: its spread, patterns and layout agree. -/
structure Fit (c : Circuit) : Prop where
  even : c.spread.Even
  hot : c.conductor.role = .hot
  inside : c.cable.conductors = c.layout.roles

/-- A circuit in shape: a replacement of the items, now, would make them anew just as they are. -/
structure Shaped (c : Circuit) : Prop extends Fit c where
  made : ∃ next, c.items = c.plannedItems next

/-- A circuit with other settings, which was in shape with the old ones. It has what it needs, if
only its items are as many and of the kind that is planned now. -/
structure Resettled (c : Circuit) : Prop extends Fit c where
  made : c.isPlanned → ∃ next, c.items = c.plannedItems next

/-- Whether the layout is the one that the load requires now. -/
def UpToDate (c : Circuit) : Prop := c.layout = c.requiredLayout

theorem Shaped.isPlanned {c : Circuit} (h : c.Shaped) : c.isPlanned := by
  obtain ⟨next, hm⟩ := h.made
  unfold Circuit.isPlanned
  rw [hm]
  exact decide_eq_true (c.map_role_plannedItems next h.even h.hot)

/-- Other settings that come to the same plan leave the circuit in shape. -/
theorem Shaped.resettle {c : Circuit} (h : c.Shaped) (load : Load) (w : Wiring) (s : Spread)
    (hs : s.Even) :
    Resettled { c with
      load := load
      wiring := w
      spread := s } where
  even := hs
  hot := h.hot
  inside := h.inside
  made hp := by
    obtain ⟨next, hm⟩ := h.made
    have hold : c.items.map Item.role = c.plan := of_decide_eq_true h.isPlanned
    have hplan := hold.symm.trans (of_decide_eq_true hp)
    have hw := wiring_eq_of_plan_eq hplan h.even hs h.hot h.hot
    refine ⟨next, hm.trans (plannedItems_congr _ _ next ?_ hplan)⟩
    unfold pattern
    rw [hw]

/-- New items are always in shape. -/
theorem Fit.shaped_refit {j : Job} (h : Fit j.circuit) : j.refit.circuit.Shaped := by
  obtain ⟨k, b, hc⟩ := Job.circuit_refit j
  rw [hc]
  exact ⟨⟨h.even, h.hot, h.inside⟩, j.site.nextId, rfl⟩

/-! ## What the shape depends on -/

/-- A circuit without where it runs and what is on record about it. -/
def kit (c : Circuit) : Circuit :=
  { c with
    routing := .freeAir
    conduit := {}
    bundle := {}
    ledger := Ledger.empty }

theorem Fit.of_kit_eq {c d : Circuit} (h : c.Fit) (e : d.kit = c.kit) : d.Fit := by
  have hk : c.kit.Fit := ⟨h.even, h.hot, h.inside⟩
  rw [← e] at hk
  exact ⟨hk.even, hk.hot, hk.inside⟩

theorem Shaped.of_kit_eq {c d : Circuit} (h : c.Shaped) (e : d.kit = c.kit) : d.Shaped := by
  have hk : c.kit.Shaped := ⟨⟨h.even, h.hot, h.inside⟩, h.made⟩
  rw [← e] at hk
  exact ⟨⟨hk.even, hk.hot, hk.inside⟩, hk.made⟩

theorem Resettled.of_kit_eq {c d : Circuit} (h : c.Resettled) (e : d.kit = c.kit) :
    d.Resettled := by
  have hk : c.kit.Resettled := ⟨⟨h.even, h.hot, h.inside⟩, h.made⟩
  rw [← e] at hk
  exact ⟨⟨hk.even, hk.hot, hk.inside⟩, hk.made⟩

theorem Shaped.resettled {c : Circuit} (h : c.Shaped) : c.Resettled := ⟨h.toFit, fun _ => h.made⟩

theorem UpToDate.of_kit_eq {c d : Circuit} (h : c.UpToDate) (e : d.kit = c.kit) :
    d.UpToDate := by
  have hk : c.kit.UpToDate := h
  rw [← e] at hk
  exact hk

/-- A circuit that is in shape, and up to date if the circuit it came from was. -/
structure Settles (c d : Circuit) : Prop where
  shaped : d.Shaped
  upToDate : c.UpToDate → d.UpToDate

theorem Settles.of_kit_eq {b c d : Circuit} (h : Settles b c) (e : d.kit = c.kit) :
    Settles b d :=
  ⟨h.shaped.of_kit_eq e, fun hb => (h.upToDate hb).of_kit_eq e⟩

theorem Shaped.settles {c : Circuit} (h : c.Shaped) : Settles c c := ⟨h, id⟩

end Circuit

namespace Job

open Circuit

theorem kit_report (m : Message) (j : Job) : (j.report m).circuit.kit = j.circuit.kit := by
  rw [circuit_report]
  rfl

theorem kit_inspectLoad (j : Job) : j.inspectLoad.circuit.kit = j.circuit.kit := by
  simp only [inspectLoad]
  split
  · rfl
  · exact kit_report _ j

theorem kit_moveTo (r : Routing) (j : Job) : (j.moveTo r).circuit.kit = j.circuit.kit := by
  obtain ⟨k, b, hc⟩ := circuit_moveTo r j
  rw [hc]
  rfl

theorem kit_giveUp (m : Message) (j : Job) : (j.giveUp m).circuit.kit = j.circuit.kit :=
  (kit_moveTo _ _).trans (kit_report m j)

theorem kit_reviewPractice (j : Job) : j.reviewPractice.circuit.kit = j.circuit.kit := by
  simp only [reviewPractice]
  split
  · exact kit_report _ _
  · rfl

/-! ## Every change -/

/-- Reading the load again mends whatever the settings have changed. -/
theorem settled_rederive {j : Job} (h : j.circuit.Resettled) :
    j.rederive.circuit.Shaped ∧ j.rederive.circuit.UpToDate := by
  have hi := h.of_kit_eq (kit_inspectLoad j)
  simp only [rederive]
  split
  · rename_i hl
    split
    · rename_i hp
      exact ⟨⟨hi.toFit, hi.made hp⟩, hl.symm⟩
    · obtain ⟨k, b, hc⟩ := circuit_refit j.inspectLoad
      refine ⟨hi.toFit.shaped_refit, ?_⟩
      rw [hc]
      exact hl.symm
  · have hfit : Fit j.inspectLoad.adoptLayout.circuit := ⟨hi.even, hi.hot, rfl⟩
    obtain ⟨k, b, hc⟩ := circuit_refit j.inspectLoad.adoptLayout
    refine ⟨hfit.shaped_refit, ?_⟩
    rw [hc]
    rfl

theorem settles_rederive {j k : Job} (h : k.circuit.Resettled) :
    Settles j.circuit k.rederive.circuit :=
  ⟨(settled_rederive h).1, fun _ => (settled_rederive h).2⟩

theorem settles_route (t : Target Nat) {j : Job} (h : j.circuit.Shaped) :
    Settles j.circuit (j.route t).circuit := by
  have hr : (j.forget Message.aboutRouting).circuit.Resettled := h.resettled.of_kit_eq rfl
  simp only [route]
  refine (settles_rederive hr).of_kit_eq ((kit_reviewPractice _).trans ?_)
  split
  · exact kit_moveTo _ _
  · exact kit_giveUp _ _

theorem settles_useWiring (w : Wiring) {j : Job} (h : j.circuit.Shaped) :
    Settles j.circuit (j.useWiring w).circuit := by
  simp only [useWiring]
  split
  · exact h.settles
  · exact (settles_rederive (h.resettle _ w _ h.even)).of_kit_eq (kit_reviewPractice _)

/-- A new pattern of the wiring that is not in use changes nothing about the items. -/
theorem settles_refitIf (w : Wiring) {j k : Job} (hfit : Fit k.circuit)
    (hup : j.circuit.UpToDate → k.circuit.UpToDate)
    (hmade : k.circuit.wiring ≠ w → ∃ next, k.circuit.items = k.circuit.plannedItems next) :
    Settles j.circuit (k.refitIf w).circuit := by
  simp only [refitIf]
  split
  · obtain ⟨c, b, hc⟩ := circuit_refit k
    refine ⟨hfit.shaped_refit, fun hj => ?_⟩
    rw [hc]
    exact hup hj
  · rename_i hw
    exact ⟨⟨hfit, hmade hw⟩, hup⟩

theorem settles_replaceConductor (spec : ConductorSpec) {j : Job} (h : j.circuit.Shaped) :
    Settles j.circuit (j.replaceConductor spec).circuit := by
  obtain ⟨next, hm⟩ := h.made
  refine settles_refitIf .conductors ⟨h.even, rfl, h.inside⟩ id fun hw => ⟨next, hm.trans ?_⟩
  refine plannedItems_congr _ _ next ?_ rfl
  unfold pattern
  cases hj : j.circuit.wiring with
  | conductors => exact absurd hj hw
  | cables => rfl

theorem settles_replaceCable (spec : CableSpec) {j : Job} (h : j.circuit.Shaped) :
    Settles j.circuit (j.replaceCable spec).circuit := by
  obtain ⟨next, hm⟩ := h.made
  refine settles_refitIf .cables ⟨h.even, h.hot, rfl⟩ id fun hw => ⟨next, hm.trans ?_⟩
  refine plannedItems_congr _ _ next ?_ rfl
  unfold pattern
  cases hj : j.circuit.wiring with
  | conductors => rfl
  | cables => exact absurd hj hw

theorem settles_resize (s : Size) {j : Job} (h : j.circuit.Shaped) :
    Settles j.circuit (j.resize s).circuit := by
  obtain ⟨next, hm⟩ := h.made
  obtain ⟨k, b, hc⟩ := circuit_resize s j
  rw [hc]
  refine ⟨⟨⟨h.even, h.hot, h.inside⟩, next, ?_⟩, id⟩
  change j.circuit.items.map (Item.withWireSize s) = _
  rw [hm]
  exact (j.circuit.plannedItems_resized s next).symm

theorem settles_setSets (n : Nat) {j : Job} (h : j.circuit.Shaped) :
    Settles j.circuit (j.setSets n).circuit := by
  unfold setSets
  split
  · exact h.settles
  · rename_i hn
    have hpos : 0 < n := by omega
    have hs := settles_rederive (j := j)
      (k := ({ j with circuit.spread := .onePerConduit n } : Job).note (.setsChanged n))
      (h.resettle _ _ _ (Spread.Even.onePerConduit hpos))
    dsimp only
    split
    · split
      · exact hs.of_kit_eq ((kit_reviewPractice _).trans (kit_giveUp _ _))
      · exact hs
    · exact hs

theorem settles_respread (next : Spread → Option Spread)
    (hnext : ∀ {s t : Spread}, s.Even → next s = some t → t.Even) {j : Job}
    (h : j.circuit.Shaped) : Settles j.circuit (j.respread next).circuit := by
  unfold respread
  split
  · exact h.settles.of_kit_eq (kit_report _ j)
  · dsimp only
    split
    · exact h.settles.of_kit_eq rfl
    · rename_i s hs
      exact settles_rederive
        ((h.resettle _ _ s (hnext h.even hs)).of_kit_eq rfl)

theorem settles_apply (c : Change Nat) {j : Job} (h : j.circuit.Shaped) :
    Settles j.circuit (j.apply c).circuit := by
  cases c with
  | route t => exact settles_route t h
  | useWiring w => exact settles_useWiring w h
  | replaceConductor spec => exact settles_replaceConductor spec h
  | replaceCable spec => exact settles_replaceCable spec h
  | resize s => exact settles_resize s h
  | setSets n => exact settles_setSets n h
  | widen => exact settles_respread _ Spread.Even.wider? h
  | narrow => exact settles_respread _ Spread.Even.narrower? h
  | updateLoad f => exact settles_rederive (h.resettle _ _ _ h.even)

/-- Whatever happens to a circuit, it stays in shape. Only a poke at its load can leave its layout
behind. -/
theorem settles_meet (o : Occurrence) {j : Job} (h : j.circuit.Shaped) :
    (j.meet o).circuit.Shaped ∧
      ((∀ f, o ≠ .poke f) → j.circuit.UpToDate → (j.meet o).circuit.UpToDate) := by
  cases o with
  | change c =>
    have hs := settles_apply c h
    exact ⟨hs.shaped, fun _ => hs.upToDate⟩
  | poke f => exact ⟨⟨⟨h.even, h.hot, h.inside⟩, h.made⟩, fun hf => absurd rfl (hf f)⟩
  | _ => exact ⟨h.of_kit_eq rfl, fun _ hu => hu.of_kit_eq rfl⟩

end Job

namespace Circuit

theorem shaped_create (load : Load) (nonlinear : Bool) (site : Site) :
    (create load nonlinear site).circuit.Shaped ∧
      (create load nonlinear site).circuit.UpToDate := by
  rw [create_eq]
  have hk := Job.kit_inspectLoad (bare load nonlinear site)
  have hfit : Fit (bare load nonlinear site).inspectLoad.circuit :=
    Fit.of_kit_eq (c := (bare load nonlinear site).circuit) ⟨Spread.Even.default, rfl, rfl⟩ hk
  have hup : UpToDate (bare load nonlinear site).inspectLoad.circuit :=
    UpToDate.of_kit_eq (c := (bare load nonlinear site).circuit) rfl hk
  obtain ⟨k, b, hc⟩ := Job.circuit_refit (bare load nonlinear site).inspectLoad
  refine ⟨hfit.shaped_refit.of_kit_eq (Job.kit_reviewPractice _), ?_⟩
  refine UpToDate.of_kit_eq (c := (bare load nonlinear site).inspectLoad.refit.circuit) ?_
    (Job.kit_reviewPractice _)
  rw [hc]
  exact hup

theorem shaped_after {c : Circuit} (h : c.Shaped) (history : List (Site × Occurrence)) :
    (c.after history).Shaped ∧ (Unpoked history → c.UpToDate → (c.after history).UpToDate) := by
  induction history generalizing c with
  | nil => exact ⟨h, fun _ => id⟩
  | cons e history ih =>
    obtain ⟨s, o⟩ := e
    obtain ⟨hs, hu⟩ := Job.settles_meet o (j := ⟨c, s, []⟩) h
    obtain ⟨hs', hu'⟩ := ih hs
    refine ⟨hs', fun hp hc => hu' (fun e he => hp e (List.mem_cons_of_mem _ he)) ?_⟩
    exact hu (fun f => hp (s, o) List.mem_cons_self f) hc

theorem Lived.shaped {c : Circuit} (h : c.Lived) : c.Shaped := by
  obtain ⟨load, nonlinear, site, history, rfl⟩ := h
  exact (shaped_after (shaped_create load nonlinear site).1 history).1

theorem Shaped.items_ne_nil {c : Circuit} (h : c.Shaped) : c.items ≠ [] := by
  obtain ⟨next, hm⟩ := h.made
  rw [hm]
  exact List.cons_ne_nil _ _

/-! ## The invariant -/

/-- What the items of a circuit are: the sets of one conduit in order, or one cable for each set.
All are like the pattern, and the first is the pattern itself. -/
def InShape (c : Circuit) : Prop :=
  match c.wiring with
  | .conductors =>
    c.items.map Item.role =
        (List.replicate c.spread.setsPerConduit c.layout.roles).flatten.map some ∧
      (∀ i ∈ c.items, ∃ id role, i = .conductor { c.conductor with id := id, role := role }) ∧
      c.items[0]? = some (.conductor c.conductor)
  | .cables =>
    c.items.length = c.spread.sets ∧
      (∀ i ∈ c.items, ∃ id, i = .cable { c.cable with id := id }) ∧
      c.items[0]? = some (.cable c.cable)

theorem mem_plannedItems {c : Circuit} {next : Nat} {i : Item} (h : i ∈ c.plannedItems next) :
    ∃ id role, i = c.pattern.anew id role := by
  rcases List.mem_cons.mp h with rfl | h
  · refine ⟨c.pattern.id, none, ?_⟩
    cases c.pattern <;> rfl
  · obtain ⟨k, hk, rfl⟩ := List.mem_mapIdx.mp h
    exact ⟨_, _, rfl⟩

theorem Shaped.inShape {c : Circuit} (h : c.Shaped) : c.InShape := by
  obtain ⟨next, hm⟩ := h.made
  have hroles := of_decide_eq_true h.isPlanned
  have hfirst : c.items[0]? = some c.pattern := by
    rw [hm]
    rfl
  have hlike : ∀ i ∈ c.items, ∃ id role, i = c.pattern.anew id role := by
    intro i hi
    rw [hm] at hi
    exact mem_plannedItems hi
  unfold plan at hroles
  unfold pattern at hfirst hlike
  unfold InShape
  cases hw : c.wiring with
  | conductors =>
    simp only [hw] at hroles hfirst hlike
    refine ⟨hroles, fun i hi => ?_, hfirst⟩
    obtain ⟨id, role, he⟩ := hlike i hi
    exact ⟨id, role.getD c.conductor.role, he⟩
  | cables =>
    simp only [hw] at hroles hfirst hlike
    refine ⟨?_, fun i hi => ?_, hfirst⟩
    · simpa using congrArg List.length hroles
    · obtain ⟨id, role, he⟩ := hlike i hi
      exact ⟨id, he⟩

/-- **Shape.** All through the life of a circuit its items are those that its patterns, its layout
and its spread ask for, whatever became of its load. The layout is that of the load, as long as the
load changed only with the circuit's knowing. -/
theorem inShape_after_create (load : Load) (nonlinear : Bool) (site : Site)
    (history : List (Site × Occurrence)) :
    let c := (create load nonlinear site).circuit.after history
    c.InShape ∧ c.cable.conductors = c.layout.roles ∧ c.conductor.role = .hot ∧
      (Unpoked history → c.layout = Layout.ofSystem c.load.system c.nonlinear) := by
  intro c
  obtain ⟨hs, hu⟩ := shaped_create load nonlinear site
  obtain ⟨hshaped, hlayout⟩ := shaped_after hs history
  exact ⟨hshaped.inShape, hshaped.inside, hshaped.hot, fun hp => hlayout hp hu⟩

/-- A circuit goes over to cables, and then its load to a system with other conductors. -/
def conversion : List (Site × Occurrence) :=
  [({}, .change (.useWiring .cables)),
    ({}, .change (.updateLoad fun l => { l with system := .wye277x480 }))]

theorem layout_of_cables_follows_load :
    Unpoked conversion ∧
      ((create { system := .ln120, ampacity := 16, verdict := some true } true {}).circuit.after
        conversion).layout = ⟨true, true, some .loadedNeutral⟩ := by
  have hp : Unpoked conversion := by
    intro e he f hf
    simp only [conversion, List.mem_cons, List.not_mem_nil, or_false] at he
    rcases he with rfl | rfl <;> cases hf
  exact ⟨hp, (inShape_after_create _ true {} conversion).2.2.2 hp⟩

end Circuit

end Raceways
