import Mathlib.Data.Sum.Basic
import Raceways.Proofs.Chronicle

/-!
One route after another. Once a circuit is asked to go somewhere, it and its raceways are as if it
had never been asked to go anywhere else before. What was said of the circuit is the same, because
the first request has already read the load; so it is enough to look at where the items are, and
they are where the circuit runs and nowhere else.
-/

namespace Raceways

namespace Site

/-- A site is known by its raceways and the ids it has issued. -/
theorem ext_raceway? {s t : Site} (hr : ∀ r, s.raceway? r = t.raceway? r)
    (hn : s.nextId = t.nextId) : s = t := by
  have hconduits : s.conduits = t.conduits := List.ext_getElem? fun n =>
    Option.map_injective Sum.inl_injective (hr (.conduit n))
  have hbundles : s.bundles = t.bundles := List.ext_getElem? fun n =>
    Option.map_injective Sum.inr_injective (hr (.bundle n))
  cases s
  cases t
  cases hconduits
  cases hbundles
  cases hn
  rfl

end Site

namespace Circuit

theorem eq_of_kit_eq {c d : Circuit} (hkit : c.kit = d.kit) (hrouting : c.routing = d.routing)
    (hconduit : c.conduit = d.conduit) (hbundle : c.bundle = d.bundle)
    (hledger : c.ledger = d.ledger) : c = d := by
  have hc : c = { c.kit with
    routing := c.routing, conduit := c.conduit, bundle := c.bundle, ledger := c.ledger } := rfl
  rw [hc, hkit, hrouting, hconduit, hbundle, hledger]
  rfl

end Circuit

namespace Job

/-! ## Where the items are decides what is in the raceways -/

/-- What is said of the raceways in reach, apart from what is in them. -/
def fittings (j : Job) : ConduitSpec × Float × (SharedRaceway → Option (ConduitSpec ⊕ Float)) :=
  (j.circuit.conduit.toConduitSpec, j.circuit.bundle.distance, j.site.fittings?)

theorem fittings_updateRaceway (f : Contents → Contents) (j : Job) :
    (j.updateRaceway f).fittings = j.fittings := by
  unfold updateRaceway fittings
  split
  · rfl
  · rfl
  · rfl
  · simp only [Prod.mk.injEq, true_and]
    exact funext fun r => Site.fittings?_updateContents _ r f j.site

theorem fittings_issue (n : Nat) (j : Job) :
    ({ j with site := j.site.issue n } : Job).fittings = j.fittings := by
  unfold fittings
  simp only [Prod.mk.injEq, true_and]
  exact funext fun r => Site.fittings?_issue j.site n r

/-- Changes of a circuit leave all raceways as they are said to be. -/
theorem fittings_preserved (j₀ : Job) : Preserved fun j => j.fittings = j₀.fittings where
  note _ _ h := h
  ledger _ _ h := h
  settings _ _ _ _ h := h
  layout _ _ h := h
  conductor _ j h := (fittings_issue 1 j).trans h
  cable _ j h := (fittings_issue 1 j).trans h
  resize _ _ h := (fittings_updateRaceway _ _).trans h
  refit j h := by
    have hout : j.vacate.fittings = j.fittings := fittings_updateRaceway _ j
    have hnew : j.vacate.replaceItems.fittings = j.vacate.fittings := fittings_issue _ j.vacate
    exact (fittings_updateRaceway _ j.vacate.replaceItems).trans (hnew.trans (hout.trans h))
  moveTo r j h := by
    have hout : j.vacate.fittings = j.fittings := fittings_updateRaceway _ j
    exact (fittings_updateRaceway _ { j.vacate with circuit.routing := r }).trans (hout.trans h)

theorem fittings?_apply (c : Change Nat) (j : Job) (r : SharedRaceway) :
    (j.apply c).site.fittings? r = j.site.fittings? r :=
  congrFun (congrArg (·.2.2) ((fittings_preserved j).apply c j rfl)) r

/-- The same raceways are in reach where they are said to be the same. -/
theorem isSome_within?_eq {j k : Job} (hfit : j.fittings = k.fittings) (q : Routing) :
    (j.within? q).isSome = (k.within? q).isSome := by
  cases q with
  | shared r =>
    simp only [within?, ← Site.isSome_fittings?]
    exact congrArg (fun f => (f.2.2 r).isSome) hfit
  | _ => rfl

namespace Lodged

variable {j₀ j k : Job} {others : Routing → Item → Prop}

/-- With the same others, the same items in the same place come to the same contents. -/
theorem within?_eq (h : Lodged j₀ others j) (h' : Lodged j₀ others k)
    (hfit : j.fittings = k.fittings) (hrouting : j.circuit.routing = k.circuit.routing)
    (hitems : j.circuit.items = k.circuit.items) (q : Routing) : j.within? q = k.within? q := by
  have hthere := isSome_within?_eq hfit q
  cases hj : j.within? q with
  | none =>
    cases hk : k.within? q with
    | none => rfl
    | some d => simp [hj, hk] at hthere
  | some c =>
    cases hk : k.within? q with
    | none => simp [hj, hk] at hthere
    | some d =>
      refine congrArg some (Ascending.ext_mem fun i => ?_)
      rw [h.holds q c hj i, h'.holds q d hk i]
      unfold Owns
      rw [hrouting, hitems]

/-- Whatever was done to a circuit, its kit, where it runs, what is on record and which ids are
issued leave nothing open. -/
theorem eq_of_kit_eq (h : Lodged j₀ others j) (h' : Lodged j₀ others k)
    (hfit : j.fittings = k.fittings) (hkit : j.circuit.kit = k.circuit.kit)
    (hrouting : j.circuit.routing = k.circuit.routing)
    (hledger : j.circuit.ledger = k.circuit.ledger)
    (hnext : j.site.nextId = k.site.nextId) :
    j.circuit = k.circuit ∧ j.site = k.site := by
  have hitems : j.circuit.items = k.circuit.items := by
    change j.circuit.kit.items = k.circuit.kit.items
    rw [hkit]
  have hwithin := h.within?_eq h' hfit hrouting hitems
  simp only [fittings, Prod.mk.injEq] at hfit
  obtain ⟨hspec, hdistance, hshared⟩ := hfit
  constructor
  · refine Circuit.eq_of_kit_eq hkit hrouting ?_ ?_ hledger
    · exact (Conduit.eq_iff _ _).mpr ⟨hspec, Option.some.inj (hwithin .privateConduit)⟩
    · exact (Bundle.eq_iff _ _).mpr ⟨hdistance, Option.some.inj (hwithin .privateBundle)⟩
  · refine Site.ext_raceway? (fun r => ?_) hnext
    exact (Site.raceway?_eq_iff _ _ r).mpr ⟨congrFun hshared r, hwithin (.shared r)⟩

end Lodged

/-! ## What a request settles -/

theorem kit_route (t : Target Nat) (j : Job) :
    (j.route t).circuit.kit = j.prepareMove.circuit.kit := by
  simp only [route, kit_reviewPractice]
  split
  · exact kit_moveTo _ _
  · exact kit_giveUp _ _

theorem nextId_route (t : Target Nat) (j : Job) :
    (j.route t).site.nextId = j.prepareMove.site.nextId := by
  have hreview : ∀ k : Job, k.reviewPractice.site = k.site := fun k =>
    congrArg Prod.fst (lodging_reviewPractice k)
  simp only [route, hreview]
  split
  · exact nextId_moveTo _ _
  · rw [giveUp, nextId_moveTo, site_report]

/-- Nothing is refitted when the load is read again and asks for what there is. -/
theorem rederive_of_settled {j : Job} (hs : j.circuit.Shaped) (hu : j.circuit.UpToDate) :
    j.rederive = j.inspectLoad := by
  have hkit := kit_inspectLoad j
  have hlayout : j.inspectLoad.circuit.requiredLayout = j.inspectLoad.circuit.layout :=
    (hu.of_kit_eq hkit).symm
  simp only [rederive, hlayout, ↓reduceIte, (hs.of_kit_eq hkit).isPlanned]

theorem kit_prepareMove_of_settled {j : Job} (hs : j.circuit.Shaped) (hu : j.circuit.UpToDate) :
    j.prepareMove.circuit.kit = j.circuit.kit := by
  have hsame : (j.forget Message.aboutRouting).circuit.kit = j.circuit.kit := rfl
  unfold prepareMove
  rw [rederive_of_settled (hs.of_kit_eq hsame) (hu.of_kit_eq hsame), kit_inspectLoad, hsame]

theorem nextId_prepareMove_of_settled {j : Job} (hs : j.circuit.Shaped)
    (hu : j.circuit.UpToDate) : j.prepareMove.site.nextId = j.site.nextId := by
  have hsame : (j.forget Message.aboutRouting).circuit.kit = j.circuit.kit := rfl
  unfold prepareMove
  rw [rederive_of_settled (hs.of_kit_eq hsame) (hu.of_kit_eq hsame)]
  exact congrArg (·.1.nextId) (lodging_inspectLoad (j.forget Message.aboutRouting))

/-- A circuit that was asked to go somewhere is in shape, and its layout is that of its load. -/
theorem settled_route (t : Target Nat) {j : Job} (h : j.circuit.Shaped) :
    (j.route t).circuit.Shaped ∧ (j.route t).circuit.UpToDate := by
  have hr : (j.forget Message.aboutRouting).circuit.Resettled := h.resettled.of_kit_eq rfl
  obtain ⟨hs, hu⟩ := settled_rederive hr
  exact ⟨hs.of_kit_eq (kit_route t j), hu.of_kit_eq (kit_route t j)⟩

/-- A second request makes up for the first one. -/
theorem route_route {j₀ j : Job} {others : Routing → Item → Prop} {S : Message → Prop}
    (h : Lodged j₀ others j) (hstrange : Strange j₀ others) (hshaped : j.circuit.Shaped)
    (htold : j.Says S) (s t : Target Nat) :
    let k : Job := ⟨(j.route s).circuit, (j.route s).site, []⟩
    (k.route t).circuit = (j.route t).circuit ∧ (k.route t).site = (j.route t).site := by
  intro k
  have hkept := Lodged.preserved hstrange
  have hfirst : Lodged j₀ others (j.route s) := hkept.route s j h
  have hk : Lodged j₀ others k := ⟨hfirst.toGrown.ids_eq rfl rfl, hfirst.holds⟩
  have hfit : (k.route t).fittings = (j.route t).fittings := by
    have hone : k.fittings = j.fittings := (fittings_preserved j).route s j rfl
    rw [(fittings_preserved k).route t k rfl, hone, (fittings_preserved j).route t j rfl]
  have hsettled : k.circuit.Shaped ∧ k.circuit.UpToDate := settled_route s hshaped
  obtain ⟨hs, hu⟩ := hsettled
  have hsets : k.circuit.spread.sets = j.circuit.spread.sets :=
    congrArg (fun x => x.2.2.sets) (settings_route s j)
  refine (hkept.route t k hk).eq_of_kit_eq (hkept.route t j h) hfit ?_ ?_ ?_ ?_
  · rw [kit_route t k, kit_prepareMove_of_settled hs hu, kit_route t j]
    exact kit_route s j
  · rw [routing_route, routing_route, hsets]
  · have hload : k.circuit.load = j.circuit.load := congrArg (·.1) (settings_route s j)
    have hwiring : k.circuit.wiring = j.circuit.wiring := congrArg (·.2.1) (settings_route s j)
    have hlast := Says.route (j := k) (htold.route s) t
    rw [hsets, hload, hwiring] at hlast
    exact hlast.unique (htold.route t)
  · rw [nextId_route t k, nextId_prepareMove_of_settled hs hu, nextId_route t j]
    exact nextId_route s j

end Job

/-- A circuit says nothing but messages. -/
theorem Circuit.Lived.told {c : Circuit} (h : c.Lived) : ∃ S, c.ledger.Says S := by
  obtain ⟨load, nonlinear, site, history, rfl⟩ := h
  obtain ⟨invalid, hs, _⟩ := (stands_after load nonlinear site history).record
  exact ⟨_, hs⟩

namespace Installation

/-! ## Requests in an installation -/

theorem circuitAt_work (w : Installation) (n : Nat) (f : Job → Job) (p : Place) :
    (w.work n f).after.circuitAt p = w.circuitAt p := by
  unfold work
  split <;> rfl

/-- Targets are found by the directories alone. -/
theorem findTarget_congr {w v : Installation} (h : v.charts = w.charts) (t : Target Place) :
    v.findTarget t = w.findTarget t := by
  simp only [charts, Prod.mk.injEq] at h
  obtain ⟨⟨hc, hlc⟩, hb, hlb⟩ := h
  have hconduit : ∀ p, v.conduitAt p = w.conduitAt p := fun p => by
    cases p <;> simp only [conduitAt, hc, hlc]
  have hbundle : ∀ p, v.bundleAt p = w.bundleAt p := fun p => by
    cases p <;> simp only [bundleAt, hb, hlb]
  cases t with
  | sharedConduit name => cases name <;> simp only [findTarget, hconduit]
  | sharedBundle name => cases name <;> simp only [findTarget, hbundle]
  | _ => rfl

/-- So are changes, which lead to places only as targets. -/
theorem findChange_congr {w v : Installation} (h : v.charts = w.charts) (c : Change Place) :
    v.findChange c = w.findChange c := by
  cases c with
  | route t => rw [findChange, findTarget_congr h, findChange]
  | _ => rfl

/-- A change comes to work on the circuit, or to nothing if a place is not found. -/
theorem after_change (w : Installation) (p : Place) (c : Change Place) :
    (w.step (.change p c)).after =
      match w.findChange c, w.circuitAt p with
      | .ok d, .ok n => (w.work n (Job.apply d)).after
      | _, _ => w := by
  cases hc : w.findChange c with
  | error e => simp [step, attempt, hc, bind, Except.bind]
  | ok d =>
    cases hn : w.circuitAt p with
    | error e => simp [step, attempt, hc, hn, bind, Except.bind]
    | ok n => simp [step, attempt, hc, hn, bind, Except.bind, pure, Except.pure]

theorem after_request (w : Installation) (p : Place) (t : Target Place) :
    (w.step (.change p (.route t))).after =
      match w.findTarget t, w.circuitAt p with
      | .ok d, .ok n => (w.work n (Job.route d)).after
      | _, _ => w := by
  rw [after_change]
  cases ht : w.findTarget t with
  | error e => simp [findChange, ht, Except.map]
  | ok d =>
    simp only [findChange, ht, Except.map]
    cases w.circuitAt p <;> rfl

theorem charts_change (w : Installation) (p : Place) (c : Change Place) :
    (w.step (.change p c)).after.charts = w.charts := by
  rw [after_change]
  split
  · exact charts_work _ _ _
  · rfl

theorem after_change_of_error {w : Installation} {c : Change Place} {e : Refusal}
    (h : w.findChange c = .error e) (p : Place) : (w.step (.change p c)).after = w := by
  rw [after_change, h]

theorem after_change_of_ok {w : Installation} {c : Change Place} {d : Change Nat} {p : Place}
    {n : Nat} (h : w.findChange c = .ok d) (hn : w.circuitAt p = .ok n) :
    (w.step (.change p c)).after = (w.work n (Job.apply d)).after := by
  rw [after_change, h, hn]

theorem circuitAt_change (w : Installation) (p : Place) (c : Change Place) (q : Place) :
    (w.step (.change p c)).after.circuitAt q = w.circuitAt q := by
  rw [after_change]
  split
  · exact circuitAt_work _ _ _ _
  · rfl

theorem after_work {w : Installation} {n : Nat} {c : Circuit} (hc : w.circuit? n = some c)
    (f : Job → Job) :
    (w.work n f).after =
      { w with
        site := (f ⟨c, w.site, []⟩).site
        circuits := w.circuits.set n (some (f ⟨c, w.site, []⟩).circuit) } := by
  simp only [work, hc]

/-- Work that makes up for the work before it does so in the installation. -/
theorem work_work {w : Installation} {n : Nat} {f g : Job → Job}
    (h : ∀ c, w.circuit? n = some c →
      let j := f ⟨c, w.site, []⟩
      (g ⟨j.circuit, j.site, []⟩).circuit = (g ⟨c, w.site, []⟩).circuit ∧
        (g ⟨j.circuit, j.site, []⟩).site = (g ⟨c, w.site, []⟩).site) :
    ((w.work n f).after.work n g).after = (w.work n g).after := by
  cases hc : w.circuit? n with
  | none => simp only [work, hc]
  | some c =>
    obtain ⟨hcircuit, hsite⟩ := h c hc
    have hfirst : (w.work n f).after.circuit? n = some (f ⟨c, w.site, []⟩).circuit := by
      rw [after_work hc]
      exact join_set_self hc _
    rw [after_work hfirst, after_work hc, after_work hc]
    dsimp only
    rw [hcircuit, hsite, List.set_set]

/-- Where no one overwrites a raceway, a second request makes up for the first. -/
theorem request_request (actions : List Action) (ha : ∀ a ∈ actions, a.overwrites = false)
    (p : Place) (s t : Target Place) {d : Target Nat} :
    let w := run {} actions
    w.findTarget t = .ok d →
      ((w.step (.change p (.route s))).after.step (.change p (.route t))).after =
        (w.step (.change p (.route t))).after := by
  intro w ht
  have ht' : (w.step (.change p (.route s))).after.findTarget t = .ok d :=
    (findTarget_congr (charts_change w p (.route s)) t).trans ht
  rw [after_request _ p t, after_request w p t, ht', ht, after_request w p s]
  cases hs : w.findTarget s with
  | error e => rfl
  | ok b =>
    cases hn : w.circuitAt p with
    | error e => simp only [hn]
    | ok n =>
      simp only [circuitAt_work, hn]
      refine work_work fun c hc => ?_
      have hlived : c.Lived := lived_of_run actions n c hc
      have haccount := accounted_of_run actions ha
      obtain ⟨S, htold⟩ := hlived.told
      exact Job.route_route (haccount.lodged hc) (haccount.strange hc) hlived.shaped htold b d

/-- However many requests there were, only the last one shows. -/
theorem run_requests (actions : List Action) (ha : ∀ a ∈ actions, a.overwrites = false)
    (p : Place) (earlier : List (Target Place)) (t : Target Place) {d : Target Nat} :
    let w := run {} actions
    w.findTarget t = .ok d →
      w.run ((earlier ++ [t]).map fun x => .change p (.route x)) =
        (w.step (.change p (.route t))).after := by
  induction earlier generalizing actions with
  | nil => exact fun _ => rfl
  | cons s earlier ih =>
    intro w ht
    have hrun : (w.step (.change p (.route s))).after =
        run {} (actions ++ [.change p (.route s)]) := by
      rw [run_append]
      rfl
    have ht' : (w.step (.change p (.route s))).after.findTarget t = .ok d :=
      (findTarget_congr (charts_change w p (.route s)) t).trans ht
    have hrest := ih (actions ++ [.change p (.route s)]) ?_
    · rw [← hrun] at hrest
      exact (hrest ht').trans (request_request actions ha p s t ht)
    · intro a h
      rcases List.mem_append.mp h with h | h
      · exact ha a h
      · rw [List.mem_singleton.mp h]
        rfl

theorem circuit?_request {w : Installation} {p : Place} {t : Target Place} {d : Target Nat}
    {n : Nat} {c : Circuit} (ht : w.findTarget t = .ok d) (hn : w.circuitAt p = .ok n)
    (hc : w.circuit? n = some c) :
    (w.step (.change p (.route t))).after.circuit? n =
      some (Job.route d ⟨c, w.site, []⟩).circuit := by
  rw [after_request, ht, hn]
  dsimp only
  rw [after_work hc]
  exact join_set_self hc _

/-- **The last request decides.** However often a circuit is asked to go somewhere, and whether it
can go there or not, the whole installation comes to be as if there had been only the last request,
and the circuit runs where this one leads. So a request may be repeated, and a detour leaves no
trace. -/
theorem last_request_decides (actions : List Action)
    (ha : ∀ a ∈ actions, a.overwrites = false) (p : Place) (earlier : List (Target Place))
    (t : Target Place) (d : Target Nat) (ht : (run {} actions).findTarget t = .ok d) :
    let w := run {} actions
    let v := w.run ((earlier ++ [t]).map fun x => .change p (.route x))
    v = w.run [.change p (.route t)] ∧
      ∀ n c, w.circuitAt p = .ok n → w.circuit? n = some c →
        ∃ c', v.circuit? n = some c' ∧ c'.routing = d.destination c.spread.sets := by
  intro w v
  have hlast : v = (w.step (.change p (.route t))).after := run_requests actions ha p earlier t ht
  refine ⟨hlast, fun n c hn hc => ⟨_, ?_, Job.routing_route d ⟨c, w.site, []⟩⟩⟩
  rw [hlast]
  exact circuit?_request ht hn hc

/-- One of two circuits that share a conduit gets a load of another system, unnoticed. -/
def stale : List Action :=
  neighbours ++ [.pokeLoad (.loose 0) fun l => { l with system := .wye277x480 }]

/-- The circuit leaves its conduit for its bundle, is asked to go to no conduit in particular, and
comes back. -/
theorem detour_leaves_no_trace :
    let w := run {} stale
    let away : List (Target Place) := [.privateBundle, .sharedConduit none]
    let back : Target Place := .sharedConduit (some (.loose 0))
    let v := w.run ((away ++ [back]).map fun x => .change (.loose 0) (.route x))
    (∀ a ∈ stale, a.overwrites = false) ∧ w.findTarget back = .ok (.sharedConduit (some 0)) ∧
      w.circuitAt (.loose 0) = .ok 0 ∧ v = w.run [.change (.loose 0) (.route back)] ∧
      ∃ c, v.circuit? 0 = some c ∧ c.routing = .shared (.conduit 0) := by
  have hfound : (run {} stale).findTarget (.sharedConduit (some (.loose 0))) =
      .ok (.sharedConduit (some 0)) := by rfl
  have hplace : (run {} stale).circuitAt (.loose 0) = .ok 0 := by rfl
  obtain ⟨hsame, hroute⟩ := last_request_decides stale (by decide) (.loose 0)
    [.privateBundle, .sharedConduit none] _ _ hfound
  exact ⟨by decide, hfound, hplace, hsame, hroute 0 _ hplace rfl⟩

end Installation

end Raceways
