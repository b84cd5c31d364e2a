import Mathlib.Logic.Equiv.Defs
import Mathlib.Tactic.SplitIfs
import Raceways.Proofs.Coupling

/-!
Changes of different circuits may be made in either order. The first one takes ids that the second
one would have taken, so the two outcomes are the same up to the ids that are issued meanwhile.
-/

namespace Raceways

/-- Leaves the ids below a bound alone and moves the others up. -/
def shift (bound d id : Nat) : Nat := if id < bound then id else id + d

theorem shift_of_lt {bound d id : Nat} (h : id < bound) : shift bound d id = id := if_pos h

theorem shift_of_le {bound d id : Nat} (h : bound ≤ id) : shift bound d id = id + d :=
  if_neg (Nat.not_lt.mpr h)

namespace Job

/-! ## Work that starts at a later id -/

/-- The second job is like the first, but it takes its ids that much later. -/
structure Shifted (bound d : Nat) (j k : Job) : Prop where
  circuit : k.circuit.unhoused = j.circuit.unhoused.rename (shift bound d)
  nextId : k.site.nextId = j.site.nextId + d
  bound_le : bound ≤ j.site.nextId

namespace Shifted

variable {bound d : Nat} {j k : Job}

theorem shift_nextId (h : Shifted bound d j k) (i : Nat) :
    shift bound d (j.site.nextId + i) = k.site.nextId + i := by
  have hle := h.bound_le
  rw [shift_of_le (by omega), h.nextId]
  omega

theorem load_eq (h : Shifted bound d j k) : k.circuit.load = j.circuit.load := by
  have hc := congrArg Circuit.load h.circuit
  exact hc

theorem requiredLayout_eq (h : Shifted bound d j k) :
    k.circuit.requiredLayout = j.circuit.requiredLayout := by
  have hc := congrArg Circuit.requiredLayout h.circuit
  exact hc

theorem layout_eq (h : Shifted bound d j k) : k.circuit.layout = j.circuit.layout := by
  have hc := congrArg Circuit.layout h.circuit
  exact hc

theorem ledger_eq (h : Shifted bound d j k) : k.circuit.ledger = j.circuit.ledger := by
  have hc := congrArg Circuit.ledger h.circuit
  exact hc

theorem settings_eq (h : Shifted bound d j k) : k.circuit.settings = j.circuit.settings := by
  have hc := congrArg Circuit.settings h.circuit
  exact hc

theorem plan_eq (h : Shifted bound d j k) : k.circuit.plan = j.circuit.plan := by
  have hc := congrArg Circuit.plan h.circuit
  exact hc

theorem isPlanned_eq (h : Shifted bound d j k) : k.circuit.isPlanned = j.circuit.isPlanned := by
  have hitems := (Circuit.where_of_unhoused_eq h.circuit).2
  simp only [Circuit.isPlanned, h.plan_eq, hitems, List.map_map, Function.comp_def,
    Item.role_rename]

theorem plannedItems_eq (h : Shifted bound d j k) :
    k.circuit.plannedItems k.site.nextId =
      (j.circuit.plannedItems j.site.nextId).map (Item.rename (shift bound d)) := by
  change k.circuit.unhoused.plannedItems _ = _
  rw [h.circuit]
  exact Circuit.plannedItems_rename fun i _ => h.shift_nextId i

theorem refit (h : Shifted bound d j k) : Shifted bound d j.refit k.refit where
  circuit := by
    rw [unhoused_refit, unhoused_refit, h.plannedItems_eq, h.circuit]
    rfl
  nextId := by
    rw [nextId_refit, nextId_refit, h.plan_eq, h.nextId]
    omega
  bound_le := by
    have hle := h.bound_le
    rw [nextId_refit]
    omega

theorem withLedger (h : Shifted bound d j k) (l : Ledger) :
    Shifted bound d { j with circuit.ledger := l } { k with circuit.ledger := l } where
  circuit := congrArg (fun c : Circuit => { c with ledger := l }) h.circuit
  nextId := h.nextId
  bound_le := h.bound_le

theorem unlogged {j' k' : Job} (h : Shifted bound d j k) (hj : j'.circuit = j.circuit)
    (hjs : j'.site = j.site) (hk : k'.circuit = k.circuit) (hks : k'.site = k.site) :
    Shifted bound d j' k' := by
  refine ⟨?_, ?_, ?_⟩
  · rw [hk, hj]
    exact h.circuit
  · rw [hks, hjs]
    exact h.nextId
  · rw [hjs]
    exact h.bound_le

theorem record (h : Shifted bound d j k) (m : Message) :
    Shifted bound d { j with circuit.ledger := j.circuit.ledger.record m }
      { k with circuit.ledger := k.circuit.ledger.record m } := by
  rw [h.ledger_eq]
  exact h.withLedger _

theorem forget (h : Shifted bound d j k) (ms : List Message) :
    Shifted bound d (j.forget ms) (k.forget ms) := by
  unfold Job.forget
  rw [h.ledger_eq]
  exact h.withLedger _

theorem inspectLoad (h : Shifted bound d j k) : Shifted bound d j.inspectLoad k.inspectLoad := by
  simp only [Job.inspectLoad, h.load_eq]
  split
  · exact h.forget _
  · exact (h.record .invalidLoad).unlogged (circuit_report _ j) (site_report _ j)
      (circuit_report _ k) (site_report _ k)

theorem adoptLayout (h : Shifted bound d j k) : Shifted bound d j.adoptLayout k.adoptLayout := by
  refine ⟨?_, h.nextId, h.bound_le⟩
  change k.circuit.unhoused.withLayout k.circuit.requiredLayout = _
  rw [h.requiredLayout_eq, h.circuit]
  rfl

theorem rederive (h : Shifted bound d j k) : Shifted bound d j.rederive k.rederive := by
  have hi := h.inspectLoad
  simp only [Job.rederive]
  generalize j.inspectLoad = j' at hi ⊢
  generalize k.inspectLoad = k' at hi ⊢
  rw [hi.requiredLayout_eq, hi.layout_eq, hi.isPlanned_eq]
  split
  · split
    · exact hi
    · exact hi.refit
  · exact hi.adoptLayout.refit

theorem moveTo (h : Shifted bound d j k) (r : Routing) :
    Shifted bound d (j.moveTo r) (k.moveTo r) where
  circuit := by
    rw [unhoused_moveTo, unhoused_moveTo, h.circuit]
    rfl
  nextId := by
    rw [nextId_moveTo, nextId_moveTo]
    exact h.nextId
  bound_le := by
    rw [nextId_moveTo]
    exact h.bound_le

theorem resize (h : Shifted bound d j k) (s : Size) :
    Shifted bound d (j.resize s) (k.resize s) where
  circuit := by
    rw [unhoused_resize, unhoused_resize, h.circuit]
    exact Circuit.resized_rename _ s _
  nextId := by
    rw [nextId_resize, nextId_resize]
    exact h.nextId
  bound_le := by
    rw [nextId_resize]
    exact h.bound_le

theorem conductor (h : Shifted bound d j k) (spec : ConductorSpec) :
    Shifted bound d
      { j with
        circuit.conductor := { spec with role := .hot, id := j.site.nextId }
        site := j.site.issue 1 }
      { k with
        circuit.conductor := { spec with role := .hot, id := k.site.nextId }
        site := k.site.issue 1 } where
  circuit := by
    have hid : k.site.nextId = shift bound d j.site.nextId := (h.shift_nextId 0).symm
    change { k.circuit.unhoused with
      conductor := { spec with role := .hot, id := k.site.nextId } } = _
    rw [h.circuit, hid]
    rfl
  nextId := (congrArg (· + 1) h.nextId).trans (Nat.add_right_comm _ d 1)
  bound_le := Nat.le_succ_of_le h.bound_le

theorem cable (h : Shifted bound d j k) (spec : CableSpec) :
    Shifted bound d
      { j with
        circuit.cable := { spec with conductors := j.circuit.layout.roles, id := j.site.nextId }
        site := j.site.issue 1 }
      { k with
        circuit.cable := { spec with conductors := k.circuit.layout.roles, id := k.site.nextId }
        site := k.site.issue 1 } where
  circuit := by
    have hid : k.site.nextId = shift bound d j.site.nextId := (h.shift_nextId 0).symm
    change { k.circuit.unhoused with
      cable := { spec with conductors := k.circuit.layout.roles, id := k.site.nextId } } = _
    rw [h.circuit, hid, h.layout_eq]
    rfl
  nextId := (congrArg (· + 1) h.nextId).trans (Nat.add_right_comm _ d 1)
  bound_le := Nat.le_succ_of_le h.bound_le

/-- To start at a later id makes no other difference to any change. -/
theorem coupled (bound d : Nat) : Coupled (Shifted bound d) where
  settings_eq h := h.settings_eq.symm
  routing_eq h := (Circuit.where_of_unhoused_eq h.circuit).1.symm
  unlogged := unlogged
  record m _ _ h := h.record m
  forget ms _ _ h := h.forget ms
  settings load wiring spread _ _ h :=
    ⟨congrArg (fun c : Circuit => { c with
      load := load
      wiring := wiring
      spread := spread }) h.circuit, h.nextId, h.bound_le⟩
  conductor spec _ _ h := h.conductor spec
  cable spec _ _ h := h.cable spec
  resize s _ _ h := h.resize s
  refit := refit
  rederive := rederive
  moveTo r _ _ h := h.moveTo r

/-- A circuit whose ids are all issued may be started on at any later id. -/
theorem of_issued {c : Circuit} {s t : Site} (hids : ∀ id ∈ c.ids, id < s.nextId)
    (hle : s.nextId ≤ t.nextId) :
    Shifted s.nextId (t.nextId - s.nextId) ⟨c, s, []⟩ ⟨c, t, []⟩ where
  circuit := (Circuit.rename_of_fixed fun id hid => shift_of_lt (hids id hid)).symm
  nextId := (Nat.add_sub_cancel' hle).symm
  bound_le := Nat.le_refl _

end Shifted

end Job

/-! ## Two circuits -/

/-- Exchanges the `k` ids from a bound on for the `l` ids after them, in order. -/
def exchange (bound k l : Nat) : Equiv.Perm Nat where
  toFun id :=
    if id < bound then id
    else if id < bound + k then id + l
    else if id < bound + k + l then id - k
    else id
  invFun id :=
    if id < bound then id
    else if id < bound + l then id + k
    else if id < bound + k + l then id - l
    else id
  left_inv id := by
    dsimp only
    split_ifs <;> omega
  right_inv id := by
    dsimp only
    split_ifs <;> omega

theorem exchange_of_outside {bound k l id : Nat} (h : id < bound ∨ bound + k + l ≤ id) :
    exchange bound k l id = id := by
  change (if id < bound then id else _) = id
  split_ifs <;> omega

theorem exchange_of_lt {bound k l id : Nat} (h : id < bound + k) :
    exchange bound k l id = shift bound l id := by
  change (if id < bound then id else _) = if id < bound then id else id + l
  split_ifs <;> omega

theorem exchange_shift {bound k l id : Nat} (h : id < bound + l) :
    exchange bound k l (shift bound k id) = id := by
  by_cases hid : id < bound
  · rw [shift_of_lt hid]
    exact exchange_of_outside (Or.inl hid)
  · rw [shift_of_le (Nat.le_of_not_lt hid)]
    change (if id + k < bound then id + k else _) = id
    split_ifs <;> omega

namespace Job.Shifted

variable {bound k l : Nat} {j j' : Job}

/-- Work that is done before other work, instead of after it, takes the ids in exchange. -/
theorem unhoused_eq_exchange (h : Shifted bound l j j')
    (hids : ∀ id ∈ j.circuit.ids, id < bound + k) :
    j'.circuit.unhoused = j.circuit.unhoused.rename (exchange bound k l) :=
  h.circuit.trans (Circuit.rename_congr fun id hid => (exchange_of_lt (hids id hid)).symm)

theorem unhoused_exchange_eq (h : Shifted bound k j j')
    (hids : ∀ id ∈ j.circuit.ids, id < bound + l) :
    j.circuit.unhoused = j'.circuit.unhoused.rename (exchange bound k l) := by
  rw [h.circuit, Circuit.rename_rename]
  exact (Circuit.rename_of_fixed fun id hid => exchange_shift (hids id hid)).symm

end Job.Shifted

namespace Installation

/-- Work on two circuits, one after the other. -/
theorem after_work_work {w : Installation} {m n : Nat} {a b : Circuit} (hmn : m ≠ n)
    (ha : w.circuit? m = some a) (hb : w.circuit? n = some b) (f g : Job → Job) :
    let j := f ⟨a, w.site, []⟩
    let k := g ⟨b, j.site, []⟩
    ((w.work m f).after.work n g).after =
      { w with
        site := k.site
        circuits := (w.circuits.set m (some j.circuit)).set n (some k.circuit) } := by
  intro j k
  have hb' : (w.work m f).after.circuit? n = some b := by
    rw [after_work ha]
    exact (join_set_of_ne _ hmn _).trans hb
  rw [after_work hb', after_work ha]

theorem join_set_set {cs : List (Option Circuit)} {m n : Nat} {a b : Circuit} (hmn : m ≠ n)
    (ha : cs[m]?.join = some a) (hb : cs[n]?.join = some b) (c d : Option Circuit) (x : Nat) :
    ((cs.set m c).set n d)[x]?.join = if x = m then c else if x = n then d else cs[x]?.join := by
  have hb' : (cs.set m c)[n]?.join = some b := (join_set_of_ne cs hmn c).trans hb
  by_cases hx : x = m
  · rw [if_pos hx, hx, join_set_of_ne _ (Ne.symm hmn)]
    exact join_set_self ha c
  · rw [if_neg hx]
    by_cases hx' : x = n
    · rw [if_pos hx', hx']
      exact join_set_self hb' d
    · rw [if_neg hx', join_set_of_ne _ (Ne.symm hx'), join_set_of_ne _ (Ne.symm hx)]

/-- Two changes of different circuits, made in either order, give the same installation up to an
exchange of the ids that they issue. -/
theorem renamed_work_work {w : Installation} (h : Apart w.site w.circuits) {m n : Nat}
    {a b : Circuit} (hmn : m ≠ n) (ha : w.circuit? m = some a) (hb : w.circuit? n = some b)
    (d e : Change Nat) :
    let v := ((w.work m (Job.apply d)).after.work n (Job.apply e)).after
    let u := ((w.work n (Job.apply e)).after.work m (Job.apply d)).after
    u.site.nextId = v.site.nextId ∧
      ∃ σ : Equiv.Perm Nat, (∀ id, id < w.site.nextId ∨ v.site.nextId ≤ id → σ id = id) ∧
        Renamed σ v u := by
  intro v u
  have hv : v = _ := after_work_work hmn ha hb (Job.apply d) (Job.apply e)
  have hu : u = _ := after_work_work (Ne.symm hmn) hb ha (Job.apply e) (Job.apply d)
  have hgrowna := (Job.Grown.preserved _).apply d _ (h.grown ha)
  have hgrownb := (Job.Grown.preserved _).apply e _ (h.grown hb)
  have hlatea := (Job.Shifted.coupled _ _).apply d
    (Job.Shifted.of_issued (h.issued m a ha) hgrownb.nextId_le)
  have hlateb := (Job.Shifted.coupled _ _).apply e
    (Job.Shifted.of_issued (h.issued n b hb) hgrowna.nextId_le)
  have hfit : ∀ r, u.site.fittings? r = v.site.fittings? r := by
    intro r
    simp only [hu, hv, Job.fittings?_apply]
  generalize Job.apply d ⟨a, w.site, []⟩ = ja at *
  generalize Job.apply e ⟨b, w.site, []⟩ = jb at *
  generalize Job.apply d ⟨a, jb.site, []⟩ = ja' at *
  generalize Job.apply e ⟨b, ja.site, []⟩ = jb' at *
  have hja : ja.site.nextId = w.site.nextId + (ja.site.nextId - w.site.nextId) :=
    (Nat.add_sub_cancel' hgrowna.nextId_le).symm
  have hjb : jb.site.nextId = w.site.nextId + (jb.site.nextId - w.site.nextId) :=
    (Nat.add_sub_cancel' hgrownb.nextId_le).symm
  have hvnext : v.site.nextId = jb'.site.nextId := by rw [hv]
  have hunext : u.site.nextId = ja'.site.nextId := by rw [hu]
  have hlea := hlatea.nextId
  have hleb := hlateb.nextId
  refine ⟨by omega, exchange w.site.nextId (ja.site.nextId - w.site.nextId)
    (jb.site.nextId - w.site.nextId), fun id hid => exchange_of_outside (by omega), ?_, hfit,
    ?_, ?_⟩
  · intro x
    have hvx : v.circuit? x =
        if x = m then some ja.circuit else if x = n then some jb'.circuit else w.circuit? x := by
      rw [hv]
      exact join_set_set hmn ha hb _ _ x
    have hux : u.circuit? x =
        if x = n then some jb.circuit else if x = m then some ja'.circuit else w.circuit? x := by
      rw [hu]
      exact join_set_set (Ne.symm hmn) hb ha _ _ x
    rw [hvx, hux]
    by_cases hxm : x = m
    · have hxn : x ≠ n := fun hxn => hmn (hxm.symm.trans hxn)
      simp only [if_pos hxm, if_neg hxn]
      refine congrArg some (hlatea.unhoused_eq_exchange ?_)
      rw [← hja]
      exact hgrowna.issued
    · by_cases hxn : x = n
      · simp only [if_neg hxm, if_pos hxn]
        refine congrArg some (hlateb.unhoused_exchange_eq ?_)
        rw [← hjb]
        exact hgrownb.issued
      · simp only [if_neg hxm, if_neg hxn]
        cases hc : w.circuit? x with
        | none => rfl
        | some c =>
          refine congrArg some (Circuit.rename_of_fixed fun id hid => ?_).symm
          exact exchange_of_outside (Or.inl (h.issued x c hc id hid))
  · rw [hv, hu]
  · rw [hv, hu]
    simp

/-- **Independence.** Where no one overwrites a raceway, a change of one circuit and a change of
another may be made in either order, also if both circuits run through one raceway or come to do so,
and whether or not the changes can be made as asked. The two outcomes are the same installation, up
to a renaming that concerns only the ids that are issued by the two changes. -/
theorem changes_of_two_circuits_commute (actions : List Action)
    (hactions : ∀ a ∈ actions, a.overwrites = false) (p q : Place) (m n : Nat) (a b : Circuit)
    (hm : (run {} actions).circuitAt p = .ok m) (hn : (run {} actions).circuitAt q = .ok n)
    (hmn : m ≠ n) (ha : (run {} actions).circuit? m = some a)
    (hb : (run {} actions).circuit? n = some b) (f g : Change Place) :
    let w := run {} actions
    let v := w.run [.change p f, .change q g]
    let u := w.run [.change q g, .change p f]
    ∃ σ : Equiv.Perm Nat, (∀ id, id < w.site.nextId ∨ v.site.nextId ≤ id → σ id = id) ∧
      u = v.rename σ := by
  intro w v u
  have haccount := accounted_of_run actions hactions
  have hv := accounted_run_of_kept actions [.change p f, .change q g] hactions
    (by simp [Action.overwrites]) (by simp)
  have hu := accounted_run_of_kept actions [.change q g, .change p f] hactions
    (by simp [Action.overwrites]) (by simp)
  have hcharts := charts_change w p f
  have hcharts' := charts_change w q g
  -- If one of the changes is refused, it is so in either order, and only the other one is made.
  have hrefused : u = v → ∃ σ : Equiv.Perm Nat,
      (∀ id, id < w.site.nextId ∨ v.site.nextId ≤ id → σ id = id) ∧ u = v.rename σ :=
    fun h => ⟨Equiv.refl Nat, fun _ _ => rfl, h.trans (rename_id hv).symm⟩
  cases hf : w.findChange f with
  | error e =>
    refine hrefused ?_
    change ((w.step (.change q g)).after.step (.change p f)).after =
      ((w.step (.change p f)).after.step (.change q g)).after
    rw [after_change_of_error hf, after_change_of_error ((findChange_congr hcharts' f).trans hf)]
  | ok d =>
    cases hg : w.findChange g with
    | error e =>
      refine hrefused ?_
      change ((w.step (.change q g)).after.step (.change p f)).after =
        ((w.step (.change p f)).after.step (.change q g)).after
      rw [after_change_of_error hg, after_change_of_error ((findChange_congr hcharts g).trans hg)]
    | ok e =>
      have hv' : v = ((w.work m (Job.apply d)).after.work n (Job.apply e)).after := by
        change ((w.step (.change p f)).after.step (.change q g)).after = _
        rw [after_change_of_ok ((findChange_congr hcharts g).trans hg)
          ((circuitAt_change w p f q).trans hn), after_change_of_ok hf hm]
      have hu' : u = ((w.work n (Job.apply e)).after.work m (Job.apply d)).after := by
        change ((w.step (.change q g)).after.step (.change p f)).after = _
        rw [after_change_of_ok ((findChange_congr hcharts' f).trans hf)
          ((circuitAt_change w q g p).trans hm), after_change_of_ok hg hn]
      obtain ⟨hnext, σ, hσ, hrenamed⟩ := renamed_work_work haccount.apart hmn ha hb d e
      rw [← hv', ← hu'] at hnext hrenamed
      rw [← hv'] at hσ
      refine ⟨σ, hσ, ?_⟩
      have hsame := hrenamed.eq_rename σ.injective hv hu fun r i hi =>
        hσ i.id (Or.inl (haccount.left_issued r i hi))
      rw [hnext] at hsame
      exact hsame

/-- Two circuits share a conduit. One of them gets a load of another system, and the other one a new
conductor. -/
theorem refits_in_one_conduit_commute :
    let w := run {} neighbours
    let enlarge : Action :=
      .change (.loose 0) (.updateLoad fun l => { l with system := .wye277x480 })
    let replace : Action := .change (.loose 1) (.replaceConductor default)
    let v := w.run [enlarge, replace]
    let u := w.run [replace, enlarge]
    (∀ a ∈ neighbours, a.overwrites = false) ∧ w.circuitAt (.loose 0) = .ok 0 ∧
      w.circuitAt (.loose 1) = .ok 1 ∧ (w.circuit? 0).isSome ∧ (w.circuit? 1).isSome ∧
      (u.circuit? 1).map Circuit.ids ≠ (v.circuit? 1).map Circuit.ids ∧
      ∃ σ : Equiv.Perm Nat, (∀ id, id < w.site.nextId ∨ v.site.nextId ≤ id → σ id = id) ∧
        u = v.rename σ :=
  ⟨by decide, by rfl, by rfl, by rfl, by rfl, by decide,
    changes_of_two_circuits_commute neighbours (by decide) (.loose 0) (.loose 1) 0 1 _ _ rfl rfl
      (by decide) rfl rfl _ _⟩

end Installation

end Raceways
