import Raceways.Proofs.Census
import Raceways.Proofs.Itinerary
import Raceways.Proofs.Redistribution

/-!
From conductors to cables and back. The items are made anew twice, in between they are others in
kind and number, and the warnings about the practice come and go. In the end all is as before, up to
the ids of the items after the first, if the circuit knows its load.
-/

namespace Raceways

/-! ## Circuits that know their load -/

namespace Circuit

/-- Whether a circuit has come about with no change of its load that it was not told of. -/
def Aware (c : Circuit) : Prop :=
  ∃ load nonlinear site history,
    Unpoked history ∧ c = (create load nonlinear site).circuit.after history

theorem aware_create (load : Load) (nonlinear : Bool) (site : Site) :
    (create load nonlinear site).circuit.Aware :=
  ⟨load, nonlinear, site, [], fun _ he => absurd he List.not_mem_nil, rfl⟩

theorem Aware.meet {c : Circuit} (h : c.Aware) (s : Site) {o : Occurrence}
    (ho : ∀ f, o ≠ .poke f) : (Job.meet o ⟨c, s, []⟩).circuit.Aware := by
  obtain ⟨load, nonlinear, site, history, hp, rfl⟩ := h
  refine ⟨load, nonlinear, site, history ++ [(s, o)], fun e he => ?_,
    (after_append _ history [(s, o)]).symm⟩
  rcases List.mem_append.mp he with he | he
  · exact hp e he
  · rw [List.mem_singleton.mp he]
    exact ho

theorem Aware.lived {c : Circuit} (h : c.Aware) : c.Lived := by
  obtain ⟨load, nonlinear, site, history, -, rfl⟩ := h
  exact ⟨load, nonlinear, site, history, rfl⟩

theorem Aware.upToDate {c : Circuit} (h : c.Aware) : c.UpToDate := by
  obtain ⟨load, nonlinear, site, history, hp, rfl⟩ := h
  obtain ⟨hs, hu⟩ := shaped_create load nonlinear site
  exact (shaped_after hs history).2 hp hu

theorem Aware.stands {c : Circuit} (h : c.Aware) :
    ∃ failure miscounted, Stands c True failure miscounted := by
  obtain ⟨load, nonlinear, site, history, hp, rfl⟩ := h
  exact ⟨_, _, (stands_after load nonlinear site history).congr (fun _ => hp) Iff.rfl⟩

end Circuit

namespace Installation

/-- Whether an action changes the load of a circuit without its knowing. -/
def Pokes (w : Installation) (a : Action) (n : Nat) : Prop :=
  ∃ p f, a = .pokeLoad p f ∧ w.circuitAt p = .ok n

theorem aware_of_turn {w : Installation} {a : Action} {s : Site}
    {circuits : List (Option Circuit)} (t : Turn w a s circuits) {n : Nat}
    (h : ∀ c, w.circuit? n = some c → c.Aware) (hpoke : ¬ w.Pokes a n) (c : Circuit)
    (hc : circuits[n]?.join = some c) : c.Aware := by
  cases t with
  | rest _ => exact h c hc
  | build load nonlinear _ =>
    rcases (replaced_append _ _).eq_or hc with ⟨_, rfl⟩ | ⟨_, hc⟩
    · exact Circuit.aware_create load nonlinear w.site
    · exact h c hc
  | alter _ _ _ => exact h c hc
  | work p m d o _ hm hd _ _ _ ho =>
    rcases (replaced_set hd _).eq_or hc with ⟨rfl, rfl⟩ | ⟨_, hc⟩
    · exact (h d hd).meet w.site fun f hf => hpoke ⟨p, f, ho f hf, hm⟩
    · exact h c hc
  | takeDown _ _ _ _ _ _ _ _ _ _ => exact h c (join_set_none_eq_some hc).2

/-- A circuit that was never poked knows its load. -/
theorem aware_of_run (actions : List Action) (n : Nat)
    (hpoke : ∀ s ∈ scenes {} actions, ¬ s.1.Pokes s.2 n) (c : Circuit)
    (hc : (run {} actions).circuit? n = some c) : c.Aware := by
  induction actions using List.reverseRecOn generalizing c with
  | nil => cases hc
  | append_singleton past a ih =>
    rw [scenes_append] at hpoke
    rw [run_append] at hc
    have hpast := ih fun s hs => hpoke s (List.mem_append_left _ hs)
    have hlast := hpoke (run {} past, a) (List.mem_append_right _ List.mem_cons_self)
    exact aware_of_turn (turn_of_step (run {} past) a) hpast hlast c hc

/-- Two changes of one circuit, one after the other. -/
theorem run_change_change {w : Installation} {p : Place} {n : Nat} {c : Circuit}
    (hn : w.circuitAt p = .ok n) (hc : w.circuit? n = some c) {x y : Change Place}
    {d e : Change Nat} (hx : w.findChange x = .ok d) (hy : w.findChange y = .ok e) :
    let j := Job.apply d ⟨c, w.site, []⟩
    let k := Job.apply e ⟨j.circuit, j.site, []⟩
    w.run [.change p x, .change p y] =
      { w with
        site := k.site
        circuits := w.circuits.set n (some k.circuit) } := by
  intro j k
  have hfirst : (w.step (.change p x)).after = (w.work n (Job.apply d)).after :=
    after_change_of_ok hx hn
  have hy' : (w.step (.change p x)).after.findChange y = .ok e :=
    (findChange_congr (charts_change w p x) y).trans hy
  have hn' : (w.step (.change p x)).after.circuitAt p = .ok n :=
    (circuitAt_change w p x p).trans hn
  have hc' : (w.step (.change p x)).after.circuit? n = some j.circuit := by
    rw [hfirst, circuit?_work, if_pos rfl, hc]
    rfl
  change ((w.step (.change p x)).after.step (.change p y)).after = _
  rw [after_change_of_ok hy' hn', after_work hc', hfirst, after_work hc]
  dsimp only
  rw [List.set_set]

end Installation

/-! ## There and back -/

namespace Circuit

/-- Whether a circuit is as another one was, but for the ids of its items after the first. What its
private raceways hold is not looked at. -/
structure Reinstated (c d : Circuit) : Prop where
  same : { d with items := c.items, conduit := c.conduit, bundle := c.bundle } = c
  first : d.items[0]? = c.items[0]?
  alike : d.items.map (Item.withId 0) = c.items.map (Item.withId 0)

end Circuit

/-- What is on record is known from how the circuit runs, is wired and is loaded. -/
theorem Stands.ledger_eq {c d : Circuit} {failure : Option Message} {miscounted : Prop}
    (hc : Stands c True failure miscounted) (hd : Stands d True failure miscounted)
    (hrouting : d.routing = c.routing) (hwiring : d.wiring = c.wiring) (hload : d.load = c.load) :
    d.ledger = c.ledger := by
  obtain ⟨invalid, hs, hi⟩ := hc.record
  obtain ⟨invalid', hs', hi'⟩ := hd.record
  have hsame : invalid' = invalid := by
    rw [propext (hi' trivial), propext (hi trivial), hload]
  have hmode : d.mode = c.mode := congrArg Routing.mode hrouting
  rw [hsame, hmode, hwiring] at hs'
  exact hs'.unique hs

namespace Job

open Circuit

/-- The other wiring, and then the old one again. -/
def switchedBack (v : Wiring) (j : Job) : Job :=
  let there := j.useWiring v
  Job.useWiring j.circuit.wiring ⟨there.circuit, there.site, []⟩

variable {j : Job} {v : Wiring}

theorem routing_useWiring (v : Wiring) (j : Job) :
    (j.useWiring v).circuit.routing = j.circuit.routing :=
  routing_meet (.change (.useWiring v)) j

theorem wiring_useWiring (v : Wiring) (j : Job) : (j.useWiring v).circuit.wiring = v := by
  unfold useWiring
  split
  · rename_i hv
    exact hv.symm
  · let k : Job := { j with circuit.wiring := v }
    have hreview : k.rederive.reviewPractice.circuit.wiring = k.rederive.circuit.wiring :=
      congrArg (·.2.1) (settings_reviewPractice k.rederive)
    exact hreview.trans (wiring_rederive k)

/-- The other wiring always needs other items. -/
theorem kit_useWiring (h : j.circuit.Shaped) (hup : j.circuit.UpToDate)
    (hv : v ≠ j.circuit.wiring) :
    (j.useWiring v).circuit.kit =
      ({ j.circuit with
        wiring := v
        items := ({ j.circuit with wiring := v } : Circuit).plannedItems j.site.nextId } :
          Circuit).kit := by
  have hplanned : ¬ ({ j.circuit with wiring := v } : Circuit).isPlanned := by
    intro hp
    have hold : j.circuit.items.map Item.role = j.circuit.plan := of_decide_eq_true h.isPlanned
    have hnew : j.circuit.items.map Item.role = ({ j.circuit with wiring := v } : Circuit).plan :=
      of_decide_eq_true hp
    exact hv (wiring_eq_of_plan_eq (hnew.symm.trans hold) h.even h.even h.hot h.hot)
  have hread := kit_rederive_of_upToDate (j := { j with circuit.wiring := v }) hup
  rw [if_neg hplanned] at hread
  rw [useWiring, if_neg hv, kit_reviewPractice, hread]

theorem kit_switchedBack (h : j.circuit.Shaped) (hup : j.circuit.UpToDate)
    (hv : v ≠ j.circuit.wiring) :
    ∃ n, (j.switchedBack v).circuit.kit =
      ({ j.circuit with items := j.circuit.plannedItems n } : Circuit).kit := by
  obtain ⟨hshaped, hknows⟩ := settles_useWiring v h
  have hthere := kit_useWiring h hup hv
  have hback := kit_useWiring (j := ⟨(j.useWiring v).circuit, (j.useWiring v).site, []⟩)
    (v := j.circuit.wiring) hshaped (hknows hup) (by rw [wiring_useWiring]; exact hv.symm)
  refine ⟨(j.useWiring v).site.nextId, hback.trans ?_⟩
  -- the second list of items is made after the same patterns as the first one was
  have hrestored := congrArg (fun c : Circuit => ({ c with
    wiring := j.circuit.wiring
    items := ({ c with wiring := j.circuit.wiring } : Circuit).plannedItems
      (j.useWiring v).site.nextId } : Circuit)) hthere
  exact hrestored

theorem routing_switchedBack (v : Wiring) (j : Job) :
    (j.switchedBack v).circuit.routing = j.circuit.routing :=
  (routing_useWiring _ _).trans (routing_useWiring v j)

theorem ledger_switchedBack (h : j.circuit.Shaped) (hup : j.circuit.UpToDate)
    (hv : v ≠ j.circuit.wiring) {failure : Option Message} {miscounted : Prop}
    (hs : Stands j.circuit True failure miscounted) :
    (j.switchedBack v).circuit.ledger = j.circuit.ledger := by
  obtain ⟨n, hkit⟩ := kit_switchedBack h hup hv
  have hthere := hs.useWiring v
  have hback : Stands (j.switchedBack v).circuit True failure miscounted :=
    Stands.useWiring (j := ⟨(j.useWiring v).circuit, (j.useWiring v).site, []⟩) hthere _
  have hsettings : (j.switchedBack v).circuit.settings = j.circuit.settings := by
    have he := congrArg Circuit.settings hkit
    exact he
  exact hs.ledger_eq hback (routing_switchedBack v j) (congrArg (·.2.1) hsettings)
    (congrArg (·.1) hsettings)

theorem reinstated_switchedBack (h : j.circuit.Shaped) (hup : j.circuit.UpToDate)
    (hv : v ≠ j.circuit.wiring) {failure : Option Message} {miscounted : Prop}
    (hs : Stands j.circuit True failure miscounted) :
    j.circuit.Reinstated (j.switchedBack v).circuit := by
  obtain ⟨n, hkit⟩ := kit_switchedBack h hup hv
  obtain ⟨m, hmade⟩ := h.made
  have hitems : (j.switchedBack v).circuit.items = j.circuit.plannedItems n := by
    have he := congrArg Circuit.items hkit
    exact he
  refine ⟨?_, ?_, ?_⟩
  · have hrest := congrArg (fun c : Circuit => { c with items := j.circuit.items }) hkit
    exact eq_of_kit_eq hrest (routing_switchedBack v j) rfl rfl (ledger_switchedBack h hup hv hs)
  · rw [hitems, hmade]
    rfl
  · rw [hitems, hmade]
    exact j.circuit.map_withId_plannedItems 0 n m

theorem fittings_switchedBack (v : Wiring) (j : Job) :
    (j.switchedBack v).fittings = j.fittings := by
  have hthere : (j.useWiring v).fittings = j.fittings := (fittings_preserved j).useWiring v j rfl
  let there : Job := ⟨(j.useWiring v).circuit, (j.useWiring v).site, []⟩
  have hback : (there.useWiring j.circuit.wiring).fittings = there.fittings :=
    (fittings_preserved there).useWiring _ there rfl
  exact hback.trans hthere

theorem Lodged.switchedBack {j₀ : Job} {others : Routing → Item → Prop}
    (h : Lodged j₀ others j) (hs : Strange j₀ others) (v : Wiring) :
    Lodged j₀ others (j.switchedBack v) := by
  have hkept := Lodged.preserved hs
  have hthere := hkept.useWiring v j h
  exact hkept.useWiring _ ⟨(j.useWiring v).circuit, (j.useWiring v).site, []⟩
    ⟨hthere.toGrown.ids_eq rfl rfl, hthere.holds⟩

end Job

/-! ## What the raceways hold in the end -/

theorem Item.carryingCount_withId (k : Nat) (i : Item) :
    (i.withId k).carryingCount = i.carryingCount := by
  cases i <;> rfl

namespace Contents

theorem perm_append_of_mem_iff {k : Contents} {items rest : List Item} (hitems : items.Nodup)
    (hrest : rest.Nodup) (hapart : ∀ i ∈ items, i ∉ rest)
    (h : ∀ i, i ∈ k.toList ↔ i ∈ items ∨ i ∈ rest) : k.toList.Perm (items ++ rest) := by
  have hnodup : (items ++ rest).Nodup := List.nodup_append'.mpr ⟨hitems, hrest, hapart⟩
  refine (List.perm_ext_iff_of_nodup k.nodup_toList hnodup).mpr fun i => ?_
  rw [List.mem_append, h]

/-- Contents count the same if some items are exchanged for others of the same kinds. -/
theorem counts_eq_of_exchange {old new : Contents} {out into : List Item} (hout : out.Nodup)
    (hinto : into.Nodup) (hthere : ∀ i ∈ out, i ∈ old.toList)
    (hapart : ∀ i ∈ into, i ∈ old.toList → i ∈ out)
    (hnew : ∀ i, i ∈ new.toList ↔ i ∈ into ∨ i ∈ old.toList ∧ i ∉ out)
    (hlike : into.map (Item.withId 0) = out.map (Item.withId 0)) :
    new.size = old.size ∧ new.carryingCount = old.carryingCount := by
  classical
  obtain ⟨rest, hmem, hrest⟩ :
      ∃ rest : List Item, (∀ i, i ∈ rest ↔ i ∈ old.toList ∧ i ∉ out) ∧ rest.Nodup :=
    ⟨old.toList.filter fun i => i ∉ out, fun i => by simp, old.nodup_toList.filter _⟩
  have hperm : old.toList.Perm (out ++ rest) := by
    refine perm_append_of_mem_iff hout hrest (fun i hi hr => ((hmem i).mp hr).2 hi) fun i => ?_
    rw [hmem]
    constructor
    · intro hi
      by_cases ho : i ∈ out
      · exact Or.inl ho
      · exact Or.inr ⟨hi, ho⟩
    · rintro (hi | ⟨hi, -⟩)
      · exact hthere i hi
      · exact hi
  have hperm' : new.toList.Perm (into ++ rest) := by
    refine perm_append_of_mem_iff hinto hrest (fun i hi hr => ?_) fun i => ?_
    · obtain ⟨hiold, hnot⟩ := (hmem i).mp hr
      exact hnot (hapart i hi hiold)
    · rw [hmem, hnew]
  have hlength : into.length = out.length := by
    have he := congrArg List.length hlike
    rwa [List.length_map, List.length_map] at he
  have hcarrying : into.map Item.carryingCount = out.map Item.carryingCount := by
    have he := congrArg (List.map Item.carryingCount) hlike
    simpa [Function.comp_def, Item.carryingCount_withId] using he
  obtain ⟨hsize, hcount⟩ := counts_of_perm hperm
  obtain ⟨hsize', hcount'⟩ := counts_of_perm hperm'
  rw [hsize, hcount, hsize', hcount']
  simp only [List.length_append, List.map_append, hlength, hcarrying, and_self]

end Contents

namespace Job

variable {j₀ j k : Job} {others : Routing → Item → Prop}

/-- Where two jobs are lodged among the same others and run through the same raceway, one has its
items in the place of those of the other. -/
theorem Lodged.mem_within?_iff (h : Lodged j₀ others j) (h' : Lodged j₀ others k)
    (hs : Strange j₀ others) (hrouting : k.circuit.routing = j.circuit.routing) {q : Routing}
    {old new : Contents} (hold : j.within? q = some old) (hnew : k.within? q = some new)
    (i : Item) :
    i ∈ new.toList ↔
      j.circuit.routing = q ∧ i ∈ k.circuit.items ∨ i ∈ old.toList ∧ i ∉ j.circuit.items := by
  have hstrange : others q i → i ∉ j.circuit.items := fun ho hi =>
    not_mem_items hs h.toGrown ho (List.mem_map_of_mem hi)
  rw [h'.holds q new hnew i, h.holds q old hold i]
  unfold Owns
  rw [hrouting]
  constructor
  · rintro (ho | hi)
    · exact Or.inr ⟨Or.inl ho, hstrange ho⟩
    · exact Or.inl hi
  · rintro (hi | ⟨ho | ⟨-, hi⟩, hnot⟩)
    · exact Or.inr hi
    · exact Or.inl ho
    · exact absurd hi hnot

theorem Lodged.counts_within?_eq (h : Lodged j₀ others j) (h' : Lodged j₀ others k)
    (hs : Strange j₀ others) (hrouting : k.circuit.routing = j.circuit.routing)
    (hlike : k.circuit.items.map (Item.withId 0) = j.circuit.items.map (Item.withId 0))
    {q : Routing} {old new : Contents} (hold : j.within? q = some old)
    (hnew : k.within? q = some new) :
    new.size = old.size ∧ new.carryingCount = old.carryingCount := by
  by_cases hq : j.circuit.routing = q
  · refine Contents.counts_eq_of_exchange (List.Nodup.of_map Item.id h.nodup)
      (List.Nodup.of_map Item.id h'.nodup) (fun i hi => ?_) (fun i hi hiold => ?_) (fun i => ?_)
      hlike
    · exact (h.holds q old hold i).mpr (Or.inr ⟨hq, hi⟩)
    · rcases (h.holds q old hold i).mp hiold with ho | ⟨-, hi⟩
      · exact absurd (List.mem_map_of_mem hi) (not_mem_items hs h'.toGrown ho)
      · exact hi
    · rw [h.mem_within?_iff h' hs hrouting hold hnew, and_iff_right hq]
  · have hsame : new = old := by
      refine Ascending.ext_mem fun i => ?_
      rw [h.holds q old hold i, h'.holds q new hnew i]
      unfold Owns
      rw [hrouting]
      simp [hq]
    rw [hsame]
    exact ⟨rfl, rfl⟩

end Job

namespace Installation

/-- **To cables and back.** Let a circuit know its load, and no raceway be overwritten. If it is
switched to the other wiring and back, it is as before, its record included, but for the ids of its
items after the first. The raceway that it runs through holds these items in the place of the old
ones, next to those of others, so that it counts as before. Nothing else has changed about any
raceway or any other circuit. -/
theorem switching_back_restores (actions : List Action)
    (ha : ∀ a ∈ actions, a.overwrites = false) (p : Place) (n : Nat) (c : Circuit)
    (hn : (run {} actions).circuitAt p = .ok n) (hc : (run {} actions).circuit? n = some c)
    (hpoke : ∀ s ∈ scenes {} actions, ¬ s.1.Pokes s.2 n) (v : Wiring) (hv : v ≠ c.wiring) :
    let w := run {} actions
    let w' := w.run [.change p (.useWiring v), .change p (.useWiring c.wiring)]
    (∀ m, m ≠ n → w'.circuit? m = w.circuit? m) ∧
    ∃ d, w'.circuit? n = some d ∧ c.Reinstated d ∧
      Job.fittings ⟨d, w'.site, []⟩ = Job.fittings ⟨c, w.site, []⟩ ∧
      ∀ q old, Job.within? ⟨c, w.site, []⟩ q = some old →
        ∃ new, Job.within? ⟨d, w'.site, []⟩ q = some new ∧
          (∀ i, i ∈ new.toList ↔
            c.routing = q ∧ i ∈ d.items ∨ i ∈ old.toList ∧ i ∉ c.items) ∧
          new.size = old.size ∧ new.carryingCount = old.carryingCount := by
  intro w w'
  have haware : c.Aware := aware_of_run actions n hpoke c hc
  obtain ⟨failure, miscounted, hstands⟩ := haware.stands
  have haccount := accounted_of_run actions ha
  have hstrange := haccount.strange hc
  have hlodged := haccount.lodged hc
  let j : Job := ⟨c, w.site, []⟩
  let k : Job := j.switchedBack v
  have hw' : w' = { w with
      site := k.site
      circuits := w.circuits.set n (some k.circuit) } :=
    run_change_change (d := .useWiring v) (e := .useWiring c.wiring) hn hc rfl rfl
  have hk : Job.Lodged j _ k := hlodged.switchedBack hstrange v
  have hreinstated : c.Reinstated k.circuit :=
    Job.reinstated_switchedBack (j := j) haware.lived.shaped haware.upToDate hv hstands
  refine ⟨fun m hm => ?_, k.circuit, ?_, hreinstated, ?_, fun q old hold => ?_⟩
  · rw [hw']
    exact join_set_of_ne _ (Ne.symm hm) _
  · rw [hw']
    exact join_set_self hc _
  · rw [hw']
    exact Job.fittings_switchedBack v j
  · have hsome : (k.within? q).isSome := by
      rw [Job.isSome_within?_eq (Job.fittings_switchedBack v j) q, hold]
      rfl
    obtain ⟨new, hnew⟩ := Option.isSome_iff_exists.mp hsome
    have hmem := hlodged.mem_within?_iff hk hstrange (Job.routing_switchedBack v j) hold hnew
    refine ⟨new, ?_, hmem, ?_⟩
    · rw [hw']
      exact hnew
    · exact hlodged.counts_within?_eq hk hstrange (Job.routing_switchedBack v j)
        hreinstated.alike hold hnew

/-- Somebody asks for fewer conduits of a circuit that shares one. -/
def miscounting : List Action := neighbours ++ [.change (.loose 0) .narrow]

/-- The error about the conduits is there before and after, and the shared conduit holds the six
conductors of both circuits. -/
theorem miscount_outlasts_cables :
    let w := run {} miscounting
    let w' := w.run [.change (.loose 0) (.useWiring .cables),
      .change (.loose 0) (.useWiring .conductors)]
    ((∀ a ∈ miscounting, a.overwrites = false) ∧ w.circuitAt (.loose 0) = .ok 0 ∧
      ∀ s ∈ scenes {} miscounting, ¬ s.1.Pokes s.2 0) ∧
    ∃ c d, w.circuit? 0 = some c ∧ w'.circuit? 0 = some d ∧ c.wiring = .conductors ∧
      c.Reinstated d ∧ d.ledger.has (-6) ∧
      ∃ new, w'.site.contents? (.conduit 0) = some new ∧ new.size = 6 := by
  intro w w'
  have ha : ∀ a ∈ miscounting, a.overwrites = false := by decide
  have hplace : w.circuitAt (.loose 0) = .ok 0 := rfl
  have hpoke : ∀ s ∈ scenes {} miscounting, ¬ s.1.Pokes s.2 0 := by
    rintro s hs ⟨p, f, hpoke, -⟩
    have hmem := mem_of_mem_scenes hs
    rw [hpoke] at hmem
    simp [miscounting, neighbours] at hmem
  obtain ⟨c, hc, hwiring, herror⟩ :
      ∃ c, w.circuit? 0 = some c ∧ c.wiring = .conductors ∧ c.ledger.has (-6) := ⟨_, rfl, rfl, rfl⟩
  obtain ⟨old, hold, hsize⟩ : ∃ old, w.site.contents? (.conduit 0) = some old ∧ old.size = 6 :=
    ⟨_, rfl, by decide +kernel⟩
  obtain ⟨-, d, hd, hreinstated, -, hholds⟩ := switching_back_restores miscounting ha (.loose 0) 0 c
    hplace hc hpoke .cables (by rw [hwiring]; decide)
  rw [hwiring] at hd hholds
  obtain ⟨new, hnew, -, hcount, -⟩ := hholds (.shared (.conduit 0)) old hold
  simp only [Job.within?] at hnew
  have hledger : d.ledger = c.ledger := by
    have he := congrArg Circuit.ledger hreinstated.same
    exact he
  refine ⟨⟨ha, hplace, hpoke⟩, c, d, hc, hd, hwiring, hreinstated, ?_, new, hnew,
    hcount.trans hsize⟩
  rw [hledger]
  exact herror

end Installation

end Raceways
