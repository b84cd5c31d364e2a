import Raceways.Proofs.Audit
import Raceways.Proofs.Tenure

/-!
What becomes of the items of a circuit that is taken down. They go with it, unless someone holds its
raceway; then they are left there for good, because no circuit ever has their ids again and nothing
but a circuit with the id of an item takes the item out.
-/

namespace Raceways

namespace Installation

/-! ## Taking a circuit down -/

/-- The installation after the circuit in a slot was taken down, while the given raceways were
held. -/
def dropping (slot n : Nat) (held : List SharedRaceway) (w : Installation) : Installation :=
  ({ w with looseCircuits := w.looseCircuits.set slot none }.takeDown n held).after

theorem after_dropCircuit {w : Installation} {slot n : Nat} {k b : Option Place}
    {held : List SharedRaceway} (hheld : w.findHeld k b = .ok held)
    (hn : w.circuitAt (.loose slot) = .ok n) :
    (w.step (.dropCircuit slot k b)).after = w.dropping slot n held := by
  simp only [step, attempt, hheld, hn, bind, Except.bind, pure, Except.pure]
  rfl

theorem dropping_eq {w : Installation} {n : Nat} {c : Circuit} (hc : w.circuit? n = some c)
    (slot : Nat) (held : List SharedRaceway) :
    w.dropping slot n held =
      { w with
        site := (c.dismantle held w.site).1
        circuits := w.circuits.set n none
        looseCircuits := w.looseCircuits.set slot none } := by
  have hc' : ({ w with looseCircuits := w.looseCircuits.set slot none } : Installation).circuit? n =
      some c := hc
  simp only [dropping, takeDown, hc']

/-- The ids of a circuit that is taken down are out of use. -/
theorem notMem_ids_dropping {w : Installation} (h : Apart w.site w.circuits) {n : Nat} {c : Circuit}
    (hc : w.circuit? n = some c) (slot : Nat) (held : List SharedRaceway) {id : Nat}
    (hid : id ∈ c.ids) : id ∉ (w.dropping slot n held).ids := by
  rw [dropping_eq hc, mem_ids_iff]
  rintro ⟨m, d, hd, hid'⟩
  obtain ⟨hm, hd⟩ := join_set_none_eq_some hd
  exact h.disjoint n m c d (Ne.symm hm) hc hd id hid hid'

theorem apart_dropping {w : Installation} (h : Apart w.site w.circuits) {n : Nat} {c : Circuit}
    (hc : w.circuit? n = some c) (slot : Nat) (held : List SharedRaceway) :
    Apart (w.dropping slot n held).site (w.dropping slot n held).circuits := by
  rw [dropping_eq hc]
  exact (h.vacate n).alter (Nat.le_of_eq (Circuit.nextId_dismantle held c w.site).symm)

theorem charted_dropping {w : Installation} (h : Charted w) {n : Nat} {c : Circuit}
    (hc : w.circuit? n = some c) (slot : Nat) (held : List SharedRaceway) :
    Charted (w.dropping slot n held) := by
  rw [dropping_eq hc]
  exact h.of_charts_eq rfl (Circuit.frame_dismantle held c w.site).kept

/-! ## Items that no circuit has -/

/-- Unless raceways are overwritten, the copies of items that are not of circuits stay. -/
theorem copy?_turn {w : Installation} {a : Action} {s : Site} {circuits : List (Option Circuit)}
    (t : Turn w a s circuits) (h : Apart w.site w.circuits) (ha : a.overwrites = false) {id : Nat}
    (hid : id ∉ w.ids) (hlt : id < w.site.nextId) (r : SharedRaceway) :
    s.copy? r id = w.site.copy? r id := by
  have hnot : ∀ n c, w.circuit? n = some c → id ∉ c.ids := fun n c hc hidc =>
    hid ((w.mem_ids_iff id).mpr ⟨n, c, hc, hidc⟩)
  cases t with
  | rest _ => rfl
  | build load nonlinear _ =>
    have hsame := (Circuit.frame_create load nonlinear w.site).far r not_false
    rw [Site.copy?, hsame, Site.copy?]
  | alter _ _ hs =>
    rw [ha] at hs
    rcases hs.contents? r with hsame | ⟨hnone, hnew⟩
    · rw [Site.copy?, hsame, Site.copy?]
    · simp [Site.copy?, hnone, hnew]
  | work p n c o _ _ hc _ _ _ =>
    refine (Job.framed_meet o ⟨c, w.site, []⟩).others r id ?_
    rintro (hold | hnew)
    · exact hnot n c hc (Circuit.mem_ids_of_mem_items hold)
    · rcases ((h.grown hc).meet o).kept_or_new id (Circuit.mem_ids_of_mem_items hnew) with hk | hk
      · exact hnot n c hc hk
      · exact Nat.lt_irrefl id (Nat.lt_of_lt_of_le hlt hk)
  | takeDown _ _ _ held n c _ _ _ hc =>
    exact (Circuit.frame_dismantle held c w.site).others r id fun hitem =>
      hnot n c hc (Circuit.mem_ids_of_mem_items hitem)

/-- They stay over any run that overwrites no raceway, since their ids never come into use again. -/
theorem copy?_run (w : Installation) (actions : List Action) (h : Apart w.site w.circuits)
    (ha : ∀ a ∈ actions, a.overwrites = false) {id : Nat} (hid : id ∉ w.ids)
    (hlt : id < w.site.nextId) (r : SharedRaceway) :
    id ∉ (w.run actions).ids ∧ (w.run actions).site.copy? r id = w.site.copy? r id := by
  induction actions generalizing w with
  | nil => exact ⟨hid, rfl⟩
  | cons a actions ih =>
    have t := turn_of_step w a
    have hle := nextId_le_turn t h
    have hid' : id ∉ (w.step a).after.ids := by
      intro hin
      obtain ⟨n, c, hc, hidc⟩ := ((w.step a).after.mem_ids_iff id).mp hin
      rcases kept_or_new_of_turn t h hc hidc with hold | hnew
      · exact hid hold
      · omega
    have hstep := copy?_turn t h (ha a List.mem_cons_self) hid hlt r
    rw [run_cons, ← hstep]
    exact ih _ (h.turn t) (fun b hb => ha b (List.mem_cons_of_mem _ hb)) hid'
      (Nat.lt_of_lt_of_le hlt hle)

/-- An item that no circuit has, in a raceway of the panel, fails every audit. -/
theorem audit_ne_ok_of_orphan {w : Installation} (hw : Charted w) {r : SharedRaceway}
    (ho : w.panel.Owns r) {id : Nat} (hid : id ∉ w.ids) (hcopy : (w.site.copy? r id).isSome) :
    w.audit ≠ .ok () := by
  intro hok
  have hhome : w.AtHome := by
    by_contra hnot
    obtain ⟨n, q, herr⟩ := audit_of_not_atHome hnot
    rw [herr] at hok
    cases hok
  obtain ⟨k, hk⟩ := w.panel.exists_shared?_of_owns ho
  have hmem : k ∈ w.panel.raceways := (w.panel.mem_raceways_iff k).mpr (by simp [hk])
  have hactual : id ∈ w.panel.actualIds w.site k := by
    obtain ⟨i, hi⟩ := Option.isSome_iff_exists.mp hcopy
    obtain ⟨cts, hcts, hfound⟩ := Option.bind_eq_some_iff.mp hi
    have hiid : i.id = id := (Item.key_eq_iff i id).mp (Ascending.key_of_find? hfound)
    have hin : i ∈ cts.toList := List.mem_of_find?_eq_some hfound
    unfold Panel.actualIds
    simp only [hk, Option.bind_some, hcts, Option.map_some, Option.getD_some]
    exact List.mem_map.mpr ⟨i, hin, hiid⟩
  have hnone : Panel.discrepancy k (w.expected k) (w.panel.actualIds w.site k) = none := by
    rw [audit_of_atHome hhome] at hok
    split at hok
    · cases hok
    · rename_i hall
      exact List.findSome?_eq_none_iff.mp hall k hmem
  obtain ⟨n, c, _, hc, _, hidc⟩ :=
    (mem_expected_iff hw hk id).mp (((Panel.discrepancy_eq_none_iff k _ _).mp hnone).1 id hactual)
  exact hid ((w.mem_ids_iff id).mpr ⟨n, c, hc, Circuit.mem_ids_of_mem_items hidc⟩)

/-- As long as no raceway is overwritten, a shared raceway has copies of the items of every circuit
that runs through it. -/
theorem copy?_of_routing (actions : List Action) (ha : ∀ a ∈ actions, a.overwrites = false)
    {n : Nat} {c : Circuit} (hc : (run {} actions).circuit? n = some c) {r : SharedRaceway}
    (hr : c.routing = .shared r) {i : Item} (hi : i ∈ c.items) :
    (run {} actions).site.copy? r i.id = some i := by
  have h := accounted_of_run actions ha
  obtain ⟨k, hk⟩ := Option.isSome_iff_exists.mp (h.routed n c r hc hr)
  have hin : i ∈ k.toList := (h.shared r k hk i).mpr (Or.inl ⟨n, c, hc, hr, hi⟩)
  rw [Site.copy?, hk, Option.bind_some]
  exact (Contents.mem_iff_find? k i).mp hin

/-! ## The circuit taken down -/

theorem copy?_updateContents_without (items : List Item) (s : Site) (r : SharedRaceway)
    (id : Nat) :
    (s.updateContents r (Contents.without items)).copy? r id =
      if id ∈ items.map Item.id then none else s.copy? r id := by
  rw [Site.copy?, Site.contents?_updateContents_self, Site.copy?]
  cases s.contents? r with
  | none => simp
  | some k =>
    simp only [Option.map_some, Option.bind_some]
    split
    · rename_i hid
      obtain ⟨a, ha, hk⟩ := List.mem_map.mp hid
      unfold Contents.without
      rw [Ascending.find?_eraseAll, if_pos ⟨a, ha, (Item.key_eq_iff a id).mpr hk⟩]
    · rename_i hid
      exact Contents.find?_without_of_not_mem items k id hid

/-- The copies of the circuit's items are taken out of its raceway, if no one holds it. -/
theorem copy?_dropping {w : Installation} {n : Nat} {c : Circuit} (hc : w.circuit? n = some c)
    (slot : Nat) {held : List SharedRaceway} {r : SharedRaceway} (hr : c.routing = .shared r)
    (hnot : r ∉ held) (id : Nat) :
    (w.dropping slot n held).site.copy? r id =
      if id ∈ c.items.map Item.id then none else w.site.copy? r id := by
  rw [dropping_eq hc, ← copy?_updateContents_without]
  simp [Circuit.dismantle, hr, Routing.shared?, hnot]

/-- All other raceways stay as they are. -/
theorem raceway?_dropping {w : Installation} {n : Nat} {c : Circuit} (hc : w.circuit? n = some c)
    (slot : Nat) (held : List SharedRaceway) {q : SharedRaceway} (hq : c.routing ≠ .shared q) :
    (w.dropping slot n held).site.raceway? q = w.site.raceway? q := by
  rw [dropping_eq hc]
  exact (Circuit.frame_dismantle held c w.site).raceway?_eq q hq

theorem site_dropping_of_held {w : Installation} {n : Nat} {c : Circuit}
    (hc : w.circuit? n = some c) (slot : Nat) {held : List SharedRaceway}
    (hall : ∀ r, c.routing = .shared r → r ∈ held) :
    (w.dropping slot n held).site = w.site := by
  rw [dropping_eq hc]
  cases hr : c.routing with
  | shared r => exact Circuit.site_dismantle_of_held hr (hall r hr)
  | _ => simp [Circuit.dismantle, hr, Routing.shared?]

/-- What was left behind stays, and no circuit has it, over any run that overwrites no raceway. -/
theorem left_behind_run {w : Installation} (h : Apart w.site w.circuits) {n : Nat} {c : Circuit}
    (hc : w.circuit? n = some c) (slot : Nat) {held : List SharedRaceway} {r : SharedRaceway}
    (hr : c.routing = .shared r) (hheld : r ∈ held) (later : List Action)
    (hlater : ∀ a ∈ later, a.overwrites = false) {i : Item} (hi : i ∈ c.items) :
    i.id ∉ ((w.dropping slot n held).run later).ids ∧
      ((w.dropping slot n held).run later).site.copy? r i.id = w.site.copy? r i.id := by
  have hsame : (w.dropping slot n held).site = w.site :=
    site_dropping_of_held hc slot fun q hq => by
      rw [hr] at hq
      cases hq
      exact hheld
  have hlt : i.id < (w.dropping slot n held).site.nextId := by
    rw [hsame]
    exact h.issued n c hc i.id (Circuit.item_id_mem hi)
  rw [← hsame]
  exact copy?_run _ later (apart_dropping h hc slot held) hlater
    (notMem_ids_dropping h hc slot held (Circuit.item_id_mem hi)) hlt r

/-- **Taking a circuit down.** If no one holds the shared raceway of the circuit, whatever else is
held, exactly the items of the circuit are taken out of it; in all other cases no raceway changes.
Nothing changes besides, but that the circuit is gone. If someone held the raceway, then over any
run that overwrites no raceway what was left of the items stays in it as it was, and no audit of the
panel that owns the raceway passes again. All items are left, unless the raceway was overwritten
before the circuit was taken down. -/
theorem items_left_behind_stay (actions : List Action) (slot n : Nat) (c : Circuit)
    (held : List SharedRaceway) (hc : (run {} actions).circuit? n = some c) :
    let w := run {} actions
    let v := w.dropping slot n held
    let intact := ∀ a ∈ actions, a.overwrites = false
    (∀ k b, w.findHeld k b = .ok held → w.circuitAt (.loose slot) = .ok n →
      (w.step (.dropCircuit slot k b)).after = v) ∧
    v = { w with
      site := v.site
      circuits := w.circuits.set n none
      looseCircuits := w.looseCircuits.set slot none } ∧
    v.site.nextId = w.site.nextId ∧
    (∀ r, v.site.fittings? r = w.site.fittings? r) ∧
    (∀ r, c.routing = .shared r → r ∉ held → ∀ id,
      v.site.copy? r id = if id ∈ c.items.map Item.id then none else w.site.copy? r id) ∧
    (∀ q, c.routing ≠ .shared q → v.site.raceway? q = w.site.raceway? q) ∧
    ((∀ r, c.routing = .shared r → r ∈ held) → v.site = w.site) ∧
    ∀ r, c.routing = .shared r → r ∈ held →
      ∀ later : List Action, (∀ a ∈ later, a.overwrites = false) →
        let u := v.run later
        (∀ i ∈ c.items, u.site.copy? r i.id = w.site.copy? r i.id) ∧
        (intact → ∀ i ∈ c.items, u.site.copy? r i.id = some i) ∧
        (u.panel.Owns r → intact ∨ (∃ i ∈ c.items, (w.site.copy? r i.id).isSome) →
          u.audit ≠ .ok ()) := by
  intro w v intact
  have hv : v = _ := dropping_eq hc slot held
  have hsite : v.site = (c.dismantle held w.site).1 := by rw [hv]
  refine ⟨fun k b => after_dropCircuit, ?_, ?_, ?_,
    fun r hr hnot => copy?_dropping hc slot hr hnot, fun q => raceway?_dropping hc slot held,
    site_dropping_of_held hc slot, ?_⟩
  · rw [hsite]
    exact hv
  · rw [hsite]
    exact Circuit.nextId_dismantle held c w.site
  · rw [hsite]
    exact (Circuit.frame_dismantle held c w.site).fittings
  · intro r hr hheld later hlater u
    have hkept : ∀ i ∈ c.items, i.id ∉ u.ids ∧ u.site.copy? r i.id = w.site.copy? r i.id :=
      fun i hi => left_behind_run (apart_run actions) hc slot hr hheld later hlater hi
    have hthere : intact → ∀ i ∈ c.items, w.site.copy? r i.id = some i :=
      fun ha i hi => copy?_of_routing actions ha hc hr hi
    refine ⟨fun i hi => (hkept i hi).2, fun ha i hi => (hkept i hi).2.trans (hthere ha i hi), ?_⟩
    intro ho hleft
    have hsome : ∃ i ∈ c.items, (w.site.copy? r i.id).isSome := by
      rcases hleft with ha | hsome
      · obtain ⟨i, hi⟩ :=
          List.exists_mem_of_ne_nil _ (lived_of_run actions n c hc).shaped.items_ne_nil
        exact ⟨i, hi, by simp [hthere ha i hi]⟩
      · exact hsome
    obtain ⟨i, hi, hcopy⟩ := hsome
    have hcharted : Charted u := run_induction (P := Charted) (fun _ a h => h.step a) v later
      (charted_dropping (charted_run actions) hc slot held)
    refine audit_ne_ok_of_orphan hcharted ho (hkept i hi).1 ?_
    rw [(hkept i hi).2]
    exact hcopy

/-- Two loose circuits come to share a conduit of the panel. -/
def tenants : List Action :=
  let load : Load := { system := .ln120, ampacity := 16, verdict := some true }
  let shared : Change Place := .route (.sharedConduit (some (.panel 0)))
  [.newConduit {} true, .newCircuit load false false, .newCircuit load false false,
    .change (.loose 0) shared, .change (.loose 1) shared]

/-- One of them is taken down while someone holds the conduit, and the other one is moved out and
taken down as well. The conduit keeps the items of the first. Had no one held the conduit, they
would have gone. -/
theorem orphans_outlast_neighbour :
    let w := run {} tenants
    let u := (w.dropping 0 0 [.conduit 0]).run [.change (.loose 1) (.setSets 2),
      .dropCircuit 1 none none]
    (∀ a ∈ tenants, a.overwrites = false) ∧ w.circuitAt (.loose 0) = .ok 0 ∧
      ∃ c, w.circuit? 0 = some c ∧ c.routing = .shared (.conduit 0) ∧
        (∀ i ∈ c.items, u.site.copy? (.conduit 0) i.id = some i) ∧
        u.panel.Owns (.conduit 0) ∧ u.audit ≠ .ok () ∧
        (w.step (.dropCircuit 0 (some (.panel 0)) none)).after = w.dropping 0 0 [.conduit 0] ∧
        (w.step (.dropCircuit 0 none none)).after = w.dropping 0 0 [] ∧
        ∀ id, (w.dropping 0 0 []).site.copy? (.conduit 0) id =
          if id ∈ c.items.map Item.id then none else w.site.copy? (.conduit 0) id := by
  intro w u
  have hn : w.circuitAt (.loose 0) = .ok 0 := by rfl
  have hintact : ∀ a ∈ tenants, a.overwrites = false := by decide
  have hlater : ∀ a ∈ [Action.change (.loose 1) (.setSets 2), .dropCircuit 1 none none],
      a.overwrites = false := by decide
  obtain ⟨hleave, -, -, -, -, -, -, hheld⟩ := items_left_behind_stay tenants 0 0 _ [.conduit 0] rfl
  obtain ⟨hdrop, -, -, -, hgone, -, -, -⟩ := items_left_behind_stay tenants 0 0 _ [] rfl
  obtain ⟨-, hall, haudit⟩ := hheld (.conduit 0) rfl (by decide) _ hlater
  have howns : u.panel.Owns (.conduit 0) := by unfold Panel.Owns; decide
  exact ⟨hintact, hn, _, rfl, rfl, hall hintact, howns, haudit howns (Or.inl hintact),
    hleave (some (.panel 0)) none rfl hn, hdrop none none rfl hn,
    hgone (.conduit 0) rfl (by decide)⟩

end Installation

end Raceways
