import Raceways.Proofs.Coupling
import Raceways.Proofs.Rewiring

/-!
Conductors in another size. The size is kept with the pattern, with the items, and with the copies
of these in the raceway, which may be shared. The copies are put in once more without being taken
out, and because they have the ids of the old ones this comes to resizing them where they are.
-/

namespace Raceways

/-! ## Items and contents in another size -/

namespace Item

theorem withWireSize_withWireSize (s t : Size) (i : Item) :
    (i.withWireSize s).withWireSize t = i.withWireSize t := by
  cases i <;> rfl

theorem carryingCount_withWireSize (s : Size) (i : Item) :
    (i.withWireSize s).carryingCount = i.carryingCount := by
  cases i <;> rfl

/-- The item in another size if it has one of the ids, and else as it is. -/
def withWireSizeIn (ids : List Nat) (s : Size) (i : Item) : Item :=
  if i.id ∈ ids then i.withWireSize s else i

theorem id_withWireSizeIn (ids : List Nat) (s : Size) (i : Item) :
    (i.withWireSizeIn ids s).id = i.id := by
  unfold withWireSizeIn
  split
  · exact i.id_withWireSize s
  · rfl

theorem carryingCount_withWireSizeIn (ids : List Nat) (s : Size) (i : Item) :
    (i.withWireSizeIn ids s).carryingCount = i.carryingCount := by
  unfold withWireSizeIn
  split
  · exact i.carryingCount_withWireSize s
  · rfl

end Item

namespace Contents

/-- The contents in their order, with the items of some ids in another size. -/
def resized (ids : List Nat) (s : Size) (k : Contents) : Contents :=
  ⟨k.toList.map (Item.withWireSizeIn ids s), by
    refine List.pairwise_map.mpr (k.ascending.imp fun {i j} h => ?_)
    unfold Item.key
    rwa [i.id_withWireSizeIn, j.id_withWireSizeIn]⟩

theorem mem_resized (ids : List Nat) (s : Size) (k : Contents) (i : Item) :
    i ∈ (k.resized ids s).toList ↔
      (∃ x, (x ∈ k.toList ∧ x.id ∈ ids) ∧ x.withWireSize s = i) ∨ i ∈ k.toList ∧ i.id ∉ ids := by
  unfold resized Item.withWireSizeIn
  rw [List.mem_map]
  constructor
  · rintro ⟨x, hx, rfl⟩
    split
    · rename_i hid
      exact Or.inl ⟨x, ⟨hx, hid⟩, rfl⟩
    · rename_i hid
      exact Or.inr ⟨hx, hid⟩
  · rintro (⟨x, ⟨hx, hid⟩, rfl⟩ | ⟨hi, hid⟩)
    · exact ⟨x, hx, if_pos hid⟩
    · exact ⟨i, hi, if_neg hid⟩

theorem counts_resized (ids : List Nat) (s : Size) (k : Contents) :
    (k.resized ids s).size = k.size ∧ (k.resized ids s).carryingCount = k.carryingCount := by
  refine ⟨List.length_map _, ?_⟩
  rw [carryingCount_eq_sum, carryingCount_eq_sum]
  unfold resized
  rw [List.map_map]
  exact congrArg List.sum (List.map_congr_left fun i _ => i.carryingCount_withWireSizeIn ids s)

/-- To put items in once more, in another size, is to resize them in place. -/
theorem adding_withWireSize {items : List Item} {k : Contents} (hn : (items.map Item.id).Nodup)
    (h : ∀ i, i ∈ k.toList ∧ i.id ∈ items.map Item.id ↔ i ∈ items) (s : Size) :
    k.adding (items.map (Item.withWireSize s)) = k.resized (items.map Item.id) s := by
  have hids : (items.map (Item.withWireSize s)).map Item.id = items.map Item.id := by
    simp [Function.comp_def]
  refine Ascending.ext_mem fun i => ?_
  rw [mem_adding _ _ (by rwa [hids]), hids, mem_resized, List.mem_map]
  exact or_congr_left (exists_congr fun x => and_congr_left fun _ => (h x).symm)

end Contents

/-! ## A circuit in another size -/

namespace Circuit

/-- Whether a circuit is as another one was, but for the size of its conductors. What its private
raceways hold is not looked at. The items are as they would have been made. -/
structure ResizedTo (c : Circuit) (s : Size) (d : Circuit) : Prop where
  same : { d with conduit := c.conduit, bundle := c.bundle } = c.resized s
  sized : ∀ x, Item.conductor x ∈ d.items → x.size = s
  remade : ∃ next, d.items = d.plannedItems next

theorem resized_resized (s t : Size) (c : Circuit) : (c.resized s).resized t = c.resized t := by
  unfold resized
  simp only [List.map_map, Function.comp_def, Item.withWireSize_withWireSize]

/-- A circuit with conductors has no others than those of its pattern's size. -/
theorem Shaped.size_of_mem {c : Circuit} (h : c.Shaped) (hw : c.wiring = .conductors) {i : Item}
    (hi : i ∈ c.items) : ∃ x, i = .conductor x ∧ x.size = c.conductor.size := by
  have hshape := h.inShape
  unfold InShape at hshape
  simp only [hw] at hshape
  obtain ⟨id, role, rfl⟩ := hshape.2.1 i hi
  exact ⟨_, rfl, rfl⟩

theorem Shaped.map_withWireSize_of_cables {c : Circuit} (h : c.Shaped) (hw : c.wiring = .cables)
    (s : Size) : c.items.map (Item.withWireSize s) = c.items := by
  have hshape := h.inShape
  unfold InShape at hshape
  simp only [hw] at hshape
  refine (List.map_congr_left fun i hi => ?_).trans (List.map_id _)
  obtain ⟨id, rfl⟩ := hshape.2.1 i hi
  rfl

end Circuit

/-! ## Conductors to come -/

/-- Whether an occurrence gives the circuit another conductor for its pattern. -/
def Occurrence.altersConductor : Occurrence → Bool
  | .change c => c.altersConductor
  | _ => false

namespace Job

theorem conductor_maintained (x : Conductor) : Maintained fun j => j.circuit.conductor = x where
  note _ _ h := h
  ledger _ _ h := h
  settings _ _ _ _ h := h
  layout _ _ h := h
  cable _ _ h := h
  refit j h := by
    obtain ⟨k, b, hc⟩ := circuit_refit j
    rw [hc]
    exact h
  moveTo r j h := by
    obtain ⟨k, b, hc⟩ := circuit_moveTo r j
    rw [hc]
    exact h

theorem conductor_meet {o : Occurrence} (ho : o.altersConductor = false) (j : Job) :
    (j.meet o).circuit.conductor = j.circuit.conductor := by
  cases o with
  | change c => exact (conductor_maintained j.circuit.conductor).apply ho j rfl
  | _ => rfl

end Job

namespace Circuit

theorem conductor_after (c : Circuit) {history : List (Site × Occurrence)}
    (h : ∀ e ∈ history, e.2.altersConductor = false) :
    (c.after history).conductor = c.conductor := by
  induction history generalizing c with
  | nil => rfl
  | cons e history ih =>
    obtain ⟨s, o⟩ := e
    have hrest := ih (Job.meet o ⟨c, s, []⟩).circuit fun e he => h e (List.mem_cons_of_mem _ he)
    exact hrest.trans (Job.conductor_meet (h (s, o) List.mem_cons_self) ⟨c, s, []⟩)

/-- However long a circuit has had cables, its conductors come in the size that was last given. -/
theorem Shaped.conductors_after {c : Circuit} (h : c.Shaped) {later : List (Site × Occurrence)}
    (hl : ∀ e ∈ later, e.2.altersConductor = false) (site : Site) :
    let e := c.after (later ++ [(site, .change (.useWiring .conductors))])
    e.items ≠ [] ∧ ∀ i ∈ e.items, ∃ x, i = .conductor x ∧ x.size = c.conductor.size := by
  intro e
  have he : e.Shaped := (shaped_after h _).1
  have hconductor : e.conductor = c.conductor := c.conductor_after fun o ho => by
    rcases List.mem_append.mp ho with ho | ho
    · exact hl o ho
    · rw [List.mem_singleton.mp ho]
      rfl
  have hwiring : e.wiring = .conductors := by
    have hlast : e = (Job.useWiring .conductors ⟨c.after later, site, []⟩).circuit :=
      after_append c later _
    rw [hlast]
    exact Job.wiring_useWiring _ _
  refine ⟨he.items_ne_nil, fun i hi => ?_⟩
  rw [← hconductor]
  exact he.size_of_mem hwiring hi

end Circuit

/-! ## The work of resizing -/

namespace Job

variable {j₀ j : Job} {others : Routing → Item → Prop}

/-- What becomes of the raceways in reach: nothing but that the copies of the items are resized
where they are, in the raceway that the circuit runs through. -/
structure ResizedWithin (j : Job) (s : Size) (k : Job) : Prop where
  fittings : k.fittings = j.fittings
  elsewhere : ∀ q, q ≠ j.circuit.routing → k.within? q = j.within? q
  inPlace : k.within? j.circuit.routing =
    (j.within? j.circuit.routing).map (Contents.resized (j.circuit.items.map Item.id) s)
  copied : j.circuit.routing ≠ .freeAir →
    ∃ new, k.within? j.circuit.routing = some new ∧ ∀ i ∈ k.circuit.items, i ∈ new.toList
  counts : ∀ q old new, j.within? q = some old → k.within? q = some new →
    new.size = old.size ∧ new.carryingCount = old.carryingCount

/-- Where there are no copies of the items, nothing is resized. -/
theorem ResizedWithin.mem_iff {k : Job} {s : Size} (h : j.ResizedWithin s k) {i : Item}
    (hi : i.id ∉ j.circuit.items.map Item.id) {q : Routing} {old new : Contents}
    (hold : j.within? q = some old) (hnew : k.within? q = some new) :
    i ∈ new.toList ↔ i ∈ old.toList := by
  by_cases hq : q = j.circuit.routing
  · rw [hq] at hold hnew
    rw [h.inPlace, hold] at hnew
    cases hnew
    rw [Contents.mem_resized]
    constructor
    · rintro (⟨x, ⟨-, hx⟩, rfl⟩ | ⟨hold, -⟩)
      · rw [x.id_withWireSize] at hi
        exact absurd hx hi
      · exact hold
    · exact fun hold => Or.inr ⟨hold, hi⟩
  · rw [h.elsewhere q hq, hold] at hnew
    cases hnew
    rfl

theorem kit_resize (s : Size) (j : Job) : (j.resize s).circuit.kit = (j.circuit.resized s).kit := by
  obtain ⟨k, b, hc⟩ := circuit_resize s j
  rw [hc]
  rfl

theorem ledger_resize (s : Size) (j : Job) : (j.resize s).circuit.ledger = j.circuit.ledger := by
  obtain ⟨k, b, hc⟩ := circuit_resize s j
  rw [hc]

theorem items_resize (s : Size) (j : Job) :
    (j.resize s).circuit.items = j.circuit.items.map (Item.withWireSize s) := by
  obtain ⟨k, b, hc⟩ := circuit_resize s j
  rw [hc]

theorem resizedTo_resize (h : j.circuit.Shaped) (s : Size) :
    j.circuit.ResizedTo s (j.resize s).circuit := by
  refine ⟨?_, fun x hx => ?_, (settles_resize s h).shaped.made⟩
  · obtain ⟨k, b, hc⟩ := circuit_resize s j
    rw [hc]
    rfl
  · rw [items_resize] at hx
    obtain ⟨i, -, hi⟩ := List.mem_map.mp hx
    cases i with
    | conductor y =>
      cases hi
      rfl
    | cable y => cases hi

/-- What of a raceway has the ids of the circuit is the circuit's. -/
theorem Lodged.mem_own_iff (h : Lodged j₀ others j) (hs : Strange j₀ others) {old : Contents}
    (hold : j.within? j.circuit.routing = some old) (i : Item) :
    i ∈ old.toList ∧ i.id ∈ j.circuit.items.map Item.id ↔ i ∈ j.circuit.items := by
  rw [h.holds _ old hold i]
  constructor
  · rintro ⟨ho | ⟨-, hi⟩, hid⟩
    · exact absurd hid (not_mem_items hs h.toGrown ho)
    · exact hi
  · exact fun hi => ⟨Or.inr ⟨rfl, hi⟩, List.mem_map_of_mem hi⟩

theorem Lodged.within?_resize (h : Lodged j₀ others j) (hs : Strange j₀ others) (s : Size)
    (q : Routing) :
    (j.resize s).within? q =
      if j.circuit.routing = q then
        (j.within? q).map (Contents.resized (j.circuit.items.map Item.id) s)
      else j.within? q := by
  let k : Job := { j with circuit := j.circuit.resized s }
  have hbefore : k.within? q = j.within? q := by cases q <;> rfl
  have hresize : j.resize s = k.updateRaceway
      (Contents.adding (j.circuit.items.map (Item.withWireSize s))) := rfl
  rw [hresize, within?_updateRaceway, hbefore]
  -- nothing is taken out first: what has the ids of the items already is the items themselves
  change (if j.circuit.routing = q then _ else _) = _
  split
  · rename_i hq
    cases hold : j.within? q with
    | none => rfl
    | some old =>
      rw [← hq] at hold
      exact congrArg some (Contents.adding_withWireSize h.nodup (h.mem_own_iff hs hold) s)
  · rfl

theorem Lodged.resizedWithin_resize (h : Lodged j₀ others j) (hs : Strange j₀ others)
    (hthere : j.circuit.routing ≠ .freeAir → (j.within? j.circuit.routing).isSome) (s : Size) :
    j.ResizedWithin s (j.resize s) where
  fittings := (fittings_preserved j).resize s j rfl
  elsewhere q hq := (h.within?_resize hs s q).trans (if_neg hq.symm)
  inPlace := (h.within?_resize hs s _).trans (if_pos rfl)
  copied hr := by
    obtain ⟨old, hold⟩ := Option.isSome_iff_exists.mp (hthere hr)
    have hnew := (h.within?_resize hs s j.circuit.routing).trans (if_pos rfl)
    rw [hold] at hnew
    exact ⟨_, hnew, fun i hi =>
      ((h.resize hs s).holds _ _ hnew i).mpr (Or.inr ⟨routing_resize s j, hi⟩)⟩
  counts q old new hold hnew := by
    rw [h.within?_resize hs, hold] at hnew
    split at hnew <;> cases hnew
    · exact Contents.counts_resized _ s old
    · exact ⟨rfl, rfl⟩

/-- Of two sizes in a row, the second remains. -/
theorem Lodged.resize_resize (h : Lodged j₀ others j) (hs : Strange j₀ others) (s t : Size) :
    let k : Job := ⟨(j.resize s).circuit, (j.resize s).site, []⟩
    (k.resize t).circuit = (j.resize t).circuit ∧ (k.resize t).site = (j.resize t).site := by
  intro k
  have hfirst : Lodged j₀ others (j.resize s) := h.resize hs s
  have hk : Lodged j₀ others k := ⟨hfirst.toGrown.ids_eq rfl rfl, hfirst.holds⟩
  have hfit : k.fittings = j.fittings := (fittings_preserved j).resize s j rfl
  -- among the same others, the kit decides what the raceways hold
  refine (hk.resize hs t).eq_of_kit_eq (h.resize hs t) ?_ ?_ ?_ ?_ ?_
  · rw [(fittings_preserved k).resize t k rfl, hfit, (fittings_preserved j).resize t j rfl]
  · have hthere : (k.circuit.resized t).kit = ((j.circuit.resized s).resized t).kit :=
      congrArg (fun c : Circuit => c.resized t) (kit_resize s j)
    rw [kit_resize, kit_resize, hthere, Circuit.resized_resized]
  · exact (routing_resize t k).trans ((routing_resize s j).trans (routing_resize t j).symm)
  · exact (ledger_resize t k).trans ((ledger_resize s j).trans (ledger_resize t j).symm)
  · exact (nextId_resize t k).trans ((nextId_resize s j).trans (nextId_resize t j).symm)

/-- Nothing comes of another size for conductors that are not there, but for the pattern. -/
theorem Lodged.resize_of_cables (h : Lodged j₀ others j) (hs : Strange j₀ others)
    (hshaped : j.circuit.Shaped) (hw : j.circuit.wiring = .cables) (s : Size) :
    (j.resize s).circuit = { j.circuit with conductor.size := s } ∧ (j.resize s).site = j.site := by
  let k : Job := { j with circuit.conductor.size := s }
  have hk : Lodged j₀ others k := by
    refine ⟨h.toGrown.ids_eq rfl rfl, fun q c hq => h.holds q c ?_⟩
    rw [← hq]
    cases q <;> rfl
  refine (h.resize hs s).eq_of_kit_eq (k := k) hk ((fittings_preserved j).resize s j rfl) ?_
    (routing_resize s j) (ledger_resize s j) (nextId_resize s j)
  rw [kit_resize]
  unfold Circuit.resized
  rw [hshaped.map_withWireSize_of_cables hw s]

end Job

namespace Installation

/-- There is a raceway where a circuit runs, unless that is free air. -/
theorem Accounted.isSome_within? {site : Site} {circuits : List (Option Circuit)}
    {left : SharedRaceway → Item → Prop} (h : Accounted site circuits left) {n : Nat} {c : Circuit}
    (hc : circuits[n]?.join = some c) (hr : c.routing ≠ .freeAir) :
    (Job.within? ⟨c, site, []⟩ c.routing).isSome := by
  cases hq : c.routing with
  | freeAir => exact absurd hq hr
  | shared r => exact h.routed n c r hc hq
  | _ => rfl

/-- **Resizing is exact and in place.** Let no raceway be overwritten. If the conductors of a
circuit get another size, no id is issued, and nothing changes but this size: with the pattern, with
the items, and with their copies in the raceway that the circuit runs through, in which the items of
others stay. The items are as if they had been made anew in this size. If the circuit has cables,
the pattern alone is resized, and the conductors that come for the cables one day have this size. A
size that was given just before makes no difference. -/
theorem resizing_in_place (actions : List Action) (ha : ∀ a ∈ actions, a.overwrites = false)
    (p : Place) (n : Nat) (c : Circuit) (hn : (run {} actions).circuitAt p = .ok n)
    (hc : (run {} actions).circuit? n = some c) (s : Size) :
    let w := run {} actions
    let w' := w.run [.change p (.resize s)]
    let j : Job := ⟨c, w.site, []⟩
    ∃ d, w' = { w with site := w'.site, circuits := w.circuits.set n (some d) } ∧
      w'.site.nextId = w.site.nextId ∧ c.ResizedTo s d ∧ j.ResizedWithin s ⟨d, w'.site, []⟩ ∧
      (∀ m e, m ≠ n → w.circuit? m = some e → ∀ i ∈ e.items, ∀ q old new,
        j.within? q = some old → Job.within? ⟨d, w'.site, []⟩ q = some new →
          (i ∈ new.toList ↔ i ∈ old.toList)) ∧
      (c.wiring = .cables → d = { c with conductor.size := s } ∧ w'.site = w.site) ∧
      (∀ later : List (Site × Occurrence), (∀ e ∈ later, e.2.altersConductor = false) →
        ∀ site, let e := d.after (later ++ [(site, .change (.useWiring .conductors))])
          e.items ≠ [] ∧ ∀ i ∈ e.items, ∃ x, i = .conductor x ∧ x.size = s) ∧
      ∀ t, w.run [.change p (.resize t), .change p (.resize s)] = w' := by
  intro w w' j
  have haccount := accounted_of_run actions ha
  have hstrange := haccount.strange hc
  have hlodged : Job.Lodged j _ j := haccount.lodged hc
  have hshaped : j.circuit.Shaped := (lived_of_run actions n c hc).shaped
  have hw' : w' = { w with
      site := (j.resize s).site
      circuits := w.circuits.set n (some (j.resize s).circuit) } :=
    (after_change_of_ok (c := .resize s) rfl hn).trans (after_work hc (Job.resize s))
  have hwithin : j.ResizedWithin s ⟨(j.resize s).circuit, w'.site, []⟩ := by
    rw [hw']
    obtain ⟨hfittings, helse, hplace, hcopied, hcounts⟩ :=
      hlodged.resizedWithin_resize hstrange (haccount.isSome_within? hc) s
    exact ⟨hfittings, helse, hplace, hcopied, hcounts⟩
  refine ⟨(j.resize s).circuit, ?_, ?_, Job.resizedTo_resize hshaped s, ?_, ?_, ?_, ?_, ?_⟩
  · rw [hw']
  · rw [hw']
    exact Job.nextId_resize s j
  · exact hwithin
  · intro m e hm he i hi q old new hold hnew
    have hapart : i.id ∉ c.ids :=
      haccount.apart.disjoint m n e c hm he hc i.id (Circuit.item_id_mem hi)
    exact hwithin.mem_iff (fun hid => hapart (Circuit.mem_ids_of_mem_items hid)) hold hnew
  · intro hw
    rw [hw']
    exact hlodged.resize_of_cables hstrange hshaped hw s
  · intro later hl site
    have hsize : (j.resize s).circuit.conductor.size = s := by
      obtain ⟨k, b, hd⟩ := Job.circuit_resize s j
      rw [hd]
    have hcome := (Job.settles_resize s hshaped).shaped.conductors_after hl site
    rwa [hsize] at hcome
  · intro t
    let k : Job := ⟨(j.resize t).circuit, (j.resize t).site, []⟩
    obtain ⟨hcircuit, hsite⟩ := hlodged.resize_resize hstrange t s
    have hrun : w.run [.change p (.resize t), .change p (.resize s)] = { w with
        site := (k.resize s).site
        circuits := w.circuits.set n (some (k.resize s).circuit) } :=
      run_change_change (d := .resize t) (e := .resize s) hn hc rfl rfl
    rw [hrun, hw', hcircuit, hsite]

/-- One of two circuits in a conduit gets larger conductors, after smaller ones were tried. -/
theorem neighbour_keeps_size :
    let w := run {} neighbours
    let w' := w.run [.change (.loose 0) (.resize .awg14), .change (.loose 0) (.resize .awg10)]
    ((∀ a ∈ neighbours, a.overwrites = false) ∧ w.circuitAt (.loose 0) = .ok 0 ∧
      ∃ c, w.circuit? 0 = some c) ∧
    w'.site.nextId = w.site.nextId ∧
      ∃ new, w'.site.contents? (.conduit 0) = some new ∧
        new.toList.map (fun i => (i.id, i.size)) =
          [(2, .awg10), (3, .awg10), (4, .awg10), (6, .awg12), (7, .awg12), (8, .awg12)] := by
  intro w w'
  have ha : ∀ a ∈ neighbours, a.overwrites = false := by decide
  obtain ⟨c, hc, hids, hrouting⟩ : ∃ c, w.circuit? 0 = some c ∧
      c.items.map Item.id = [2, 3, 4] ∧ c.routing = .shared (.conduit 0) := ⟨_, rfl, rfl, rfl⟩
  obtain ⟨old, hold, hsizes⟩ : ∃ old, w.site.contents? (.conduit 0) = some old ∧
      (old.resized [2, 3, 4] .awg10).toList.map (fun i => (i.id, i.size)) =
        [(2, .awg10), (3, .awg10), (4, .awg10), (6, .awg12), (7, .awg12), (8, .awg12)] :=
    ⟨_, rfl, by decide +kernel⟩
  obtain ⟨d, -, hnext, -, hwithin, -, -, -, hlast⟩ :=
    resizing_in_place neighbours ha (.loose 0) 0 c rfl hc .awg10
  have hw' : w' = w.run [.change (.loose 0) (.resize .awg10)] := hlast .awg14
  have hnew := hwithin.inPlace
  dsimp only at hnew
  rw [hrouting, hids, ← hw'] at hnew
  rw [← hw'] at hnext
  exact ⟨⟨ha, rfl, c, hc⟩, hnext, _, hnew.trans (congrArg (Option.map _) hold), hsizes⟩

end Installation

end Raceways
