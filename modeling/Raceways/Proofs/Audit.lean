import Raceways.Proofs.Membership
import Raceways.Proofs.Routes
import Raceways.Proofs.Shape

/-!
What an audit of the panel comes to. As long as no raceway is overwritten it misses nothing, and it
passes exactly if the circuits of the panel and its raceways keep to each other and nothing was left
behind.
-/

namespace Raceways

namespace Panel

/-! ## The comparison of ids -/

theorem leastMissing_eq_none_iff (ids others : List Nat) :
    leastMissing ids others = none ↔ ∀ id ∈ ids, id ∈ others := by
  simp [leastMissing]

theorem discrepancy_eq_none_iff (k : RacewayId) (expected actual : List Nat) :
    discrepancy k expected actual = none ↔
      (∀ id ∈ actual, id ∈ expected) ∧ ∀ id ∈ expected, id ∈ actual := by
  rw [← leastMissing_eq_none_iff actual, ← leastMissing_eq_none_iff expected]
  unfold discrepancy
  cases leastMissing actual expected <;> simp

/-- Where nothing is missing, no audit says so. -/
theorem discrepancy_ne_missing {k : RacewayId} {expected actual : List Nat}
    (h : ∀ id ∈ expected, id ∈ actual) (l : RacewayId) (id : Nat) :
    discrepancy k expected actual ≠ some (.missing l id) := by
  have hnone := (leastMissing_eq_none_iff expected actual).mpr h
  unfold discrepancy
  cases leastMissing actual expected <;> simp [hnone]

end Panel

namespace Installation

variable {w : Installation} {left : SharedRaceway → Item → Prop}

/-- The circuits of the panel, by their numbers on the site. -/
def Enrolled (w : Installation) (n : Nat) : Prop := some n ∈ w.panel.circuits

theorem knows_of_owns {r : SharedRaceway} (h : w.panel.Owns r) : w.Knows r := by
  cases r with
  | conduit n => exact Or.inl h
  | bundle n => exact Or.inl h

/-- What an audit expects in the raceways of the panel, given its routes. -/
def expected (w : Installation) (k : RacewayId) : List Nat :=
  Panel.expectedIds ⟨(w.panel.roster w.circuits).filterMap w.panel.route?⟩
    (w.panel.roster w.circuits) k

theorem mem_roster_iff (w : Installation) (c : Circuit) :
    (∃ id, (id, c) ∈ w.panel.roster w.circuits) ↔
      ∃ n, w.Enrolled n ∧ w.circuit? n = some c := by
  constructor
  · rintro ⟨id, h⟩
    obtain ⟨n, hn, hc⟩ := Panel.mem_roster.mp h
    exact ⟨n, List.mem_of_getElem? hn, hc⟩
  · rintro ⟨n, hn, hc⟩
    obtain ⟨id, hid⟩ := List.mem_iff_getElem?.mp hn
    exact ⟨id, Panel.mem_roster.mpr ⟨n, hid, hc⟩⟩

/-- The ids of the items of a panel's circuits are expected where these run. -/
theorem mem_expected_iff (hw : Charted w) {k : RacewayId} {r : SharedRaceway}
    (hk : w.panel.shared? k = some r) (x : Nat) :
    x ∈ w.expected k ↔ ∃ n c, w.Enrolled n ∧ w.circuit? n = some c ∧ c.routing = .shared r ∧
      x ∈ c.items.map Item.id := by
  have hthrough : ∀ id c, (id, c) ∈ w.panel.roster w.circuits →
      (id ∈ RouteMap.circuitsThrough ⟨(w.panel.roster w.circuits).filterMap w.panel.route?⟩ k ↔
        c.routing = .shared r) :=
    fun _ _ hc => Panel.mem_circuitsThrough_iff hw.conduits hw.bundles hk hc
  unfold expected Panel.expectedIds
  rw [List.mem_flatMap]
  constructor
  · rintro ⟨⟨id, c⟩, hmem, hx⟩
    obtain ⟨hc, hid⟩ := List.mem_filter.mp hmem
    obtain ⟨n, hn, hcn⟩ := (w.mem_roster_iff c).mp ⟨id, hc⟩
    exact ⟨n, c, hn, hcn, (hthrough id c hc).mp (of_decide_eq_true hid), hx⟩
  · rintro ⟨n, c, hn, hcn, hr, hx⟩
    obtain ⟨id, hc⟩ := (w.mem_roster_iff c).mpr ⟨n, hn, hcn⟩
    exact ⟨(id, c), List.mem_filter.mpr ⟨hc, decide_eq_true ((hthrough id c hc).mpr hr)⟩, hx⟩

/-- What a raceway of the panel holds, as an audit looks at it. -/
theorem mem_actualIds_iff (hw : Charted w) (h : Accounted w.site w.circuits left) {k : RacewayId}
    {r : SharedRaceway} (hk : w.panel.shared? k = some r) (x : Nat) :
    x ∈ w.panel.actualIds w.site k ↔
      ∃ i, (Present w.circuits r i ∨ left r i) ∧ i.id = x := by
  have hknown := knows_of_owns (Panel.owns_of_shared? hk)
  obtain ⟨cts, hcts⟩ := Option.isSome_iff_exists.mp (hw.known r hknown)
  have hactual : w.panel.actualIds w.site k = cts.ids := by
    unfold Panel.actualIds
    simp [hk, hcts]
  rw [hactual]
  unfold Contents.ids
  rw [List.mem_map]
  exact exists_congr fun i => and_congr_left fun _ => h.shared r cts hcts i

/-- What is expected in a raceway of the panel is there. -/
theorem expected_subset_actual (hw : Charted w) (h : Accounted w.site w.circuits left)
    {k : RacewayId} (hk : k ∈ w.panel.raceways) (x : Nat) (hx : x ∈ w.expected k) :
    x ∈ w.panel.actualIds w.site k := by
  obtain ⟨r, hr⟩ := Option.isSome_iff_exists.mp ((w.panel.mem_raceways_iff k).mp hk)
  obtain ⟨n, c, _, hc, hroute, hx⟩ := (mem_expected_iff hw hr x).mp hx
  obtain ⟨i, hi, rfl⟩ := List.mem_map.mp hx
  exact (mem_actualIds_iff hw h hr i.id).mpr ⟨i, Or.inl ⟨n, c, hc, hroute, hi⟩, rfl⟩

/-! ## The audit -/

/-- The circuits of the panel run through no shared raceways but its own. -/
def AtHome (w : Installation) : Prop :=
  ∀ n c r, w.Enrolled n → w.circuit? n = some c → c.routing = .shared r → w.panel.Owns r

theorem audit_of_not_atHome (h : ¬ w.AtHome) :
    ∃ id r, w.audit = .error (.foreignRaceway id r) := by
  unfold AtHome at h
  push Not at h
  obtain ⟨n, c, r, hn, hc, hr, ho⟩ := h
  obtain ⟨id, hid⟩ := (w.mem_roster_iff c).mpr ⟨n, hn, hc⟩
  obtain ⟨m, q, herr⟩ := w.panel.routesOf_eq_error _ id c r hid hr ho
  exact ⟨m, q, by simp [audit, Panel.audit, Panel.routeMap, herr, Except.map]⟩

/-- If the circuits of the panel are at home, its raceways are compared. -/
theorem audit_of_atHome (h : w.AtHome) :
    w.audit =
      match w.panel.raceways.findSome? fun k =>
        Panel.discrepancy k (w.expected k) (w.panel.actualIds w.site k) with
      | some e => .error e
      | none => .ok () := by
  have hroutes : w.panel.routesOf (w.panel.roster w.circuits) =
      .ok ((w.panel.roster w.circuits).filterMap w.panel.route?) := by
    refine w.panel.routesOf_eq_ok _ ?_
    rintro ⟨id, c⟩ hid r hr
    obtain ⟨n, hn, hc⟩ := (w.mem_roster_iff c).mp ⟨id, hid⟩
    exact h n c r hn hc hr
  simp only [audit, Panel.audit, Panel.routeMap, hroutes, Except.map]
  rfl

theorem audit_ne_missing (hw : Charted w) (h : Accounted w.site w.circuits left) (k : RacewayId)
    (id : Nat) : w.audit ≠ .error (.missing k id) := by
  intro herr
  by_cases hhome : w.AtHome
  · rw [audit_of_atHome hhome] at herr
    split at herr
    · rename_i e he
      cases herr
      obtain ⟨l, hl, hd⟩ := List.exists_of_findSome?_eq_some he
      exact Panel.discrepancy_ne_missing (expected_subset_actual hw h hl) k id hd
    · cases herr
  · obtain ⟨m, r, herr'⟩ := audit_of_not_atHome hhome
    rw [herr'] at herr
    cases herr

/-- An audit passes exactly if the circuits are at home and no raceway holds too much. -/
theorem audit_eq_ok_iff_subset (hw : Charted w) (h : Accounted w.site w.circuits left) :
    w.audit = .ok () ↔
      w.AtHome ∧ ∀ k ∈ w.panel.raceways, ∀ x ∈ w.panel.actualIds w.site k, x ∈ w.expected k := by
  by_cases hhome : w.AtHome
  · have hcompare : w.audit = .ok () ↔ ∀ k ∈ w.panel.raceways,
        Panel.discrepancy k (w.expected k) (w.panel.actualIds w.site k) = none := by
      rw [audit_of_atHome hhome, ← List.findSome?_eq_none_iff]
      split <;> simp [*]
    rw [hcompare, and_iff_right hhome]
    refine forall₂_congr fun k hk => ?_
    rw [Panel.discrepancy_eq_none_iff, and_iff_left (expected_subset_actual hw h hk)]
  · refine iff_of_false ?_ fun hall => hhome hall.1
    obtain ⟨m, r, herr⟩ := audit_of_not_atHome hhome
    rw [herr]
    intro he
    cases he

/-- No live circuit outside the panel runs through one of its raceways. -/
def Undisturbed (w : Installation) : Prop :=
  ∀ n c r, ¬ w.Enrolled n → w.circuit? n = some c → c.routing = .shared r → ¬ w.panel.Owns r

/-- If no raceway of the panel holds too much, all that is in them is of circuits of the panel. -/
theorem enrolled_of_subset (hw : Charted w) (h : Accounted w.site w.circuits left)
    (hall : ∀ k ∈ w.panel.raceways, ∀ x ∈ w.panel.actualIds w.site k, x ∈ w.expected k)
    {r : SharedRaceway} (ho : w.panel.Owns r) {i : Item}
    (hi : Present w.circuits r i ∨ left r i) :
    ∃ n c, w.Enrolled n ∧ w.circuit? n = some c ∧ i.id ∈ c.ids := by
  obtain ⟨k, hk⟩ := w.panel.exists_shared?_of_owns ho
  have hmem : k ∈ w.panel.raceways := (w.panel.mem_raceways_iff k).mpr (by simp [hk])
  have hactual := (mem_actualIds_iff hw h hk i.id).mpr ⟨i, hi, rfl⟩
  obtain ⟨n, c, hn, hc, _, hid⟩ := (mem_expected_iff hw hk i.id).mp (hall k hmem i.id hactual)
  exact ⟨n, c, hn, hc, Circuit.mem_ids_of_mem_items hid⟩

theorem undisturbed_of_subset (hw : Charted w) (h : Accounted w.site w.circuits left)
    (hitems : ∀ n c, w.circuit? n = some c → c.items ≠ [])
    (hall : ∀ k ∈ w.panel.raceways, ∀ x ∈ w.panel.actualIds w.site k, x ∈ w.expected k) :
    w.Undisturbed ∧ ∀ r, w.panel.Owns r → ∀ i, ¬ left r i := by
  constructor
  · intro n c r hn hc hr ho
    obtain ⟨i, hi⟩ := List.exists_mem_of_ne_nil _ (hitems n c hc)
    obtain ⟨m, d, hm, hd, hid⟩ := enrolled_of_subset hw h hall ho (Or.inl ⟨n, c, hc, hr, hi⟩)
    have hnm : n ≠ m := fun he => hn (he ▸ hm)
    exact h.apart.disjoint n m c d hnm hc hd i.id (Circuit.item_id_mem hi) hid
  · intro r ho i hl
    obtain ⟨m, d, _, hd, hid⟩ := enrolled_of_subset hw h hall ho (Or.inr hl)
    exact h.left_apart r i hl m d hd hid

theorem subset_of_undisturbed (hw : Charted w) (h : Accounted w.site w.circuits left)
    (hout : w.Undisturbed) (hleft : ∀ r, w.panel.Owns r → ∀ i, ¬ left r i) (k : RacewayId)
    (hk : k ∈ w.panel.raceways) (x : Nat) (hx : x ∈ w.panel.actualIds w.site k) :
    x ∈ w.expected k := by
  obtain ⟨r, hr⟩ := Option.isSome_iff_exists.mp ((w.panel.mem_raceways_iff k).mp hk)
  have ho := Panel.owns_of_shared? hr
  obtain ⟨i, ⟨n, c, hc, hcr, hi⟩ | hl, rfl⟩ := (mem_actualIds_iff hw h hr x).mp hx
  · have hn : w.Enrolled n := by
      by_contra hn
      exact hout n c r hn hc hcr ho
    have hid : i.id ∈ c.items.map Item.id := List.mem_map.mpr ⟨i, hi, rfl⟩
    exact (mem_expected_iff hw hr i.id).mpr ⟨n, c, hn, hc, hcr, hid⟩
  · exact absurd hl (hleft r ho i)

/-- A raceway of the panel holds too much exactly if a circuit outside the panel runs through it or
something was left behind there. -/
theorem subset_iff_undisturbed (hw : Charted w) (h : Accounted w.site w.circuits left)
    (hitems : ∀ n c, w.circuit? n = some c → c.items ≠ []) :
    (∀ k ∈ w.panel.raceways, ∀ x ∈ w.panel.actualIds w.site k, x ∈ w.expected k) ↔
      w.Undisturbed ∧ ∀ r, w.panel.Owns r → ∀ i, ¬ left r i :=
  ⟨undisturbed_of_subset hw h hitems, fun hu => subset_of_undisturbed hw h hu.1 hu.2⟩

/-- **Audits are exact.** After any run that overwrites no raceway, an audit passes exactly if all
circuits of the panel that are in shared raceways are in the panel's own, no other live circuit runs
through one of these, and none of these still holds an item that was left behind. No audit ever says
that an item is missing. -/
theorem audit_eq_ok_iff (actions : List Action) (ha : ∀ a ∈ actions, a.overwrites = false) :
    let w := run {} actions
    (w.audit = .ok () ↔
      (∀ n c r, w.Enrolled n → w.circuit? n = some c → c.routing = .shared r → w.panel.Owns r) ∧
        (∀ n c r, ¬ w.Enrolled n → w.circuit? n = some c → c.routing = .shared r →
          ¬ w.panel.Owns r) ∧
        ∀ r k, w.panel.Owns r → w.site.contents? r = some k →
          ∀ i ∈ k.toList, i ∉ leftBehind {} actions r) ∧
      ∀ k id, w.audit ≠ .error (.missing k id) := by
  intro w
  have hw : Charted w := charted_run actions
  have h := accounted_of_run actions ha
  have hitems : ∀ n c, w.circuit? n = some c → c.items ≠ [] :=
    fun n c hc => (lived_of_run actions n c hc).shaped.items_ne_nil
  have hleft : (∀ r, w.panel.Owns r → ∀ i, i ∉ leftBehind {} actions r) ↔
      ∀ r k, w.panel.Owns r → w.site.contents? r = some k →
        ∀ i ∈ k.toList, i ∉ leftBehind {} actions r := by
    constructor
    · exact fun hl r _ ho _ i _ => hl r ho i
    · intro hl r ho i hi
      obtain ⟨k, hk⟩ := Option.isSome_iff_exists.mp (h.left_there r i hi)
      exact hl r k ho hk i ((h.shared r k hk i).mpr (Or.inr hi)) hi
  refine ⟨?_, audit_ne_missing hw h⟩
  rw [audit_eq_ok_iff_subset hw h, subset_iff_undisturbed hw h hitems, hleft]
  exact Iff.rfl

/-- A loose circuit goes into a conduit of the panel, where a circuit of the panel is. -/
def trespass : List Action :=
  let load : Load := { system := .ln120, ampacity := 16, verdict := some true }
  let shared : Change Place := .route (.sharedConduit (some (.panel 0)))
  [.newConduit {} true, .newCircuit load false true, .newCircuit load false false,
    .change (.panel 0) shared, .change (.loose 0) shared]

theorem audit_fails_after_trespass :
    (∀ a ∈ trespass, a.overwrites = false) ∧ (run {} trespass).audit ≠ .ok () ∧
      ∀ k id, (run {} trespass).audit ≠ .error (.missing k id) := by
  have h := audit_eq_ok_iff trespass (by decide)
  refine ⟨by decide, fun hok => ?_, h.2⟩
  exact (h.1.mp hok).2.1 1 _ (.conduit 0) (by unfold Enrolled; decide) rfl rfl
    (by unfold Panel.Owns; decide)

end Installation

end Raceways
