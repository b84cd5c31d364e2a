import Mathlib.Order.Bounds.Basic
import Raceways.Proofs.Audit

/-!
What an audit says, whatever the raceways hold. It names the first thing that is wrong: circuits
before raceways, conduits before bundles, each in order of their ids, and in one raceway an item too
many before one that is missing.
-/

namespace Raceways

/-! ## The first in order -/

/-- Where a list is in order, a search finds what is found at its first element that gives
anything. -/
theorem findSome?_eq_some_iff_first {α β : Type} {before : α → α → Prop}
    (hasymm : ∀ a b, before a b → ¬ before b a) {l : List α} (hl : l.Pairwise before)
    (f : α → Option β) (b : β) :
    l.findSome? f = some b ↔ ∃ a ∈ l, f a = some b ∧ ∀ c ∈ l, before c a → f c = none := by
  constructor
  · intro h
    obtain ⟨l₁, a, l₂, rfl, ha, hnone⟩ := List.findSome?_eq_some_iff.mp h
    refine ⟨a, by simp, ha, fun c hc hca => ?_⟩
    rcases List.mem_append.mp hc with hc | hc
    · exact hnone c hc
    · have hafter := (List.pairwise_append.mp hl).2.1
      rcases List.mem_cons.mp hc with rfl | hc
      · exact absurd hca (hasymm c c hca)
      · exact absurd hca (hasymm a c (List.rel_of_pairwise_cons hafter hc))
  · rintro ⟨a, ha, hb, hnone⟩
    obtain ⟨l₁, l₂, rfl⟩ := List.append_of_mem ha
    have hcross := (List.pairwise_append.mp hl).2.2
    exact List.findSome?_eq_some_iff.mpr ⟨l₁, a, l₂, rfl, hb,
      fun c hc => hnone c (by simp [hc]) (hcross c hc a (by simp))⟩

namespace RacewayId

/-- The order in which raceways are looked at: conduits before bundles, each by their ids. -/
def Before : RacewayId → RacewayId → Prop
  | conduit a, conduit b => a < b
  | conduit _, bundle _ => True
  | bundle _, conduit _ => False
  | bundle a, bundle b => a < b

theorem Before.asymm : ∀ k l : RacewayId, k.Before l → ¬ l.Before k
  | conduit _, conduit _, h => Nat.lt_asymm h
  | conduit _, bundle _, _ => id
  | bundle _, conduit _, h => h.elim
  | bundle _, bundle _, h => Nat.lt_asymm h

end RacewayId

namespace Panel

theorem pairwise_raceways (p : Panel) : p.raceways.Pairwise RacewayId.Before := by
  unfold raceways
  rw [List.pairwise_append, List.pairwise_map, List.pairwise_map]
  refine ⟨List.pairwise_lt_range, List.pairwise_lt_range, fun k hk l hl => ?_⟩
  obtain ⟨a, -, rfl⟩ := List.mem_map.mp hk
  obtain ⟨b, -, rfl⟩ := List.mem_map.mp hl
  trivial

theorem pairwise_roster (p : Panel) (circuits : List (Option Circuit)) :
    (p.roster circuits).Pairwise fun e e' => e.1 < e'.1 := by
  have hids : (p.circuits.zipIdx.map Prod.snd).Pairwise (· < ·) := by
    rw [List.zipIdx_map_snd]
    exact List.pairwise_lt_range' 1
  unfold roster
  rw [List.pairwise_filterMap]
  refine (List.pairwise_map.mp hids).imp fun {e e'} hlt a ha b hb => ?_
  obtain ⟨c, -, rfl⟩ := Option.map_eq_some_iff.mp ha
  obtain ⟨d, -, rfl⟩ := Option.map_eq_some_iff.mp hb
  exact hlt

/-! ## What is wrong with a raceway -/

theorem leastMissing_eq_some_iff (ids others : List Nat) (x : Nat) :
    leastMissing ids others = some x ↔ IsLeast ({x | x ∈ ids} \ {x | x ∈ others}) x := by
  unfold leastMissing
  rw [List.min?_eq_some_iff]
  simp [IsLeast, lowerBounds]

/-- What is wrong with a raceway that holds other items than are due there. -/
inductive Fault (held due : Set Nat) (k : RacewayId) : PanelError → Prop
  | stray {x : Nat} (least : IsLeast (held \ due) x) : Fault held due k (.stray k x)
  | missing {x : Nat} (nothingStray : held ⊆ due) (least : IsLeast (due \ held) x) :
      Fault held due k (.missing k x)

theorem discrepancy_eq_some_iff (k : RacewayId) (expected actual : List Nat) (e : PanelError) :
    discrepancy k expected actual = some e ↔
      Fault {x | x ∈ actual} {x | x ∈ expected} k e := by
  unfold discrepancy
  constructor
  · intro h
    split at h
    · rename_i x hx
      cases h
      exact .stray ((leastMissing_eq_some_iff _ _ _).mp hx)
    · rename_i hnone
      obtain ⟨x, hx, rfl⟩ := Option.map_eq_some_iff.mp h
      exact .missing ((leastMissing_eq_none_iff _ _).mp hnone)
        ((leastMissing_eq_some_iff _ _ _).mp hx)
  · intro h
    cases h with
    | stray least => rw [(leastMissing_eq_some_iff _ _ _).mpr least]
    | missing nothingStray least =>
      rw [(leastMissing_eq_none_iff _ _).mpr nothingStray,
        (leastMissing_eq_some_iff _ _ _).mpr least]
      rfl

/-- Only which ids there are counts in a comparison. -/
theorem discrepancy_congr {k : RacewayId} {expected expected' actual : List Nat}
    (h : ∀ x, x ∈ expected ↔ x ∈ expected') :
    discrepancy k expected actual = discrepancy k expected' actual := by
  have hsets : {x | x ∈ expected} = {x | x ∈ expected'} := Set.ext h
  ext e
  rw [discrepancy_eq_some_iff, discrepancy_eq_some_iff, hsets]

/-! ## An audit that looks circuits up -/

variable {p : Panel} {circuits : List (Option Circuit)}

theorem lookUp_of_mem_roster {id : Nat} {c : Circuit} (h : (id, c) ∈ p.roster circuits) :
    p.lookUp circuits id = .ok c := by
  obtain ⟨n, hn, hc⟩ := mem_roster.mp h
  simp [lookUp, hn, hc]

theorem itemIds_of_roster {ids : List Nat} (h : ∀ id ∈ ids, ∃ c, (id, c) ∈ p.roster circuits) :
    ∃ l, p.itemIds circuits ids = .ok l ∧
      ∀ x, x ∈ l ↔ ∃ id ∈ ids, ∃ c, (id, c) ∈ p.roster circuits ∧ x ∈ c.items.map Item.id := by
  induction ids with
  | nil => exact ⟨[], rfl, by simp⟩
  | cons id ids ih =>
    obtain ⟨c, hc⟩ := h id List.mem_cons_self
    obtain ⟨l, hl, hmem⟩ := ih fun id hid => h id (List.mem_cons_of_mem _ hid)
    refine ⟨c.items.map Item.id ++ l, ?_, fun x => ?_⟩
    · rw [itemIds, lookUp_of_mem_roster hc, hl]
      rfl
    · rw [List.mem_append, hmem, List.exists_mem_cons_iff]
      refine or_congr_left ⟨fun hx => ⟨c, hc, hx⟩, ?_⟩
      rintro ⟨d, hd, hx⟩
      rwa [eq_of_mem_roster hc hd]

/-- What is collected by look-ups is what is expected. -/
theorem exists_itemIds {m : RouteMap} (hm : m.routes = (p.roster circuits).filterMap p.route?)
    (k : RacewayId) :
    ∃ l, p.itemIds circuits (m.circuitsThrough k) = .ok l ∧
      ∀ x, x ∈ l ↔ x ∈ expectedIds m (p.roster circuits) k := by
  have hthrough : ∀ id ∈ m.circuitsThrough k, ∃ c, (id, c) ∈ p.roster circuits := by
    intro id hid
    obtain ⟨⟨n, l⟩, he, rfl⟩ := List.mem_map.mp hid
    have hroute := (List.mem_filter.mp he).1
    rw [hm] at hroute
    obtain ⟨⟨i, c⟩, hc, hr⟩ := List.mem_filterMap.mp hroute
    obtain ⟨rfl, -⟩ := (p.route?_eq_some_iff i c n l).mp hr
    exact ⟨c, hc⟩
  obtain ⟨l, hl, hmem⟩ := itemIds_of_roster hthrough
  refine ⟨l, hl, fun x => (hmem x).trans ?_⟩
  simp only [expectedIds, List.mem_flatMap, List.mem_filter, decide_eq_true_eq, Prod.exists]
  constructor
  · rintro ⟨id, hid, c, hc, hx⟩
    exact ⟨id, c, ⟨hc, hid⟩, hx⟩
  · rintro ⟨id, c, ⟨hc, hid⟩, hx⟩
    exact ⟨id, hid, c, hc, hx⟩

theorem compare_eq {m : RouteMap} (hm : m.routes = (p.roster circuits).filterMap p.route?)
    (site : Site) (l : List RacewayId) :
    p.compare circuits site m l =
      match l.findSome? fun k =>
        discrepancy k (expectedIds m (p.roster circuits) k) (p.actualIds site k) with
      | some e => .error e
      | none => .ok () := by
  induction l with
  | nil => rfl
  | cons k l ih =>
    obtain ⟨ids, hids, hmem⟩ := exists_itemIds hm k
    rw [compare, hids, List.findSome?_cons]
    change (match discrepancy k ids (p.actualIds site k) with
      | some e => .error e
      | none => p.compare circuits site m l : Except PanelError Unit) = _
    rw [discrepancy_congr hmem]
    cases discrepancy k (expectedIds m (p.roster circuits) k) (p.actualIds site k) with
    | some e => rfl
    | none => exact ih

/-- The circuits of a route map are all found. -/
theorem auditByLookUp_eq (p : Panel) (circuits : List (Option Circuit)) (site : Site) :
    p.auditByLookUp circuits site = p.audit circuits site := by
  unfold auditByLookUp audit routeMap
  rw [routesOf_eq]
  cases (p.roster circuits).findSome? p.foreign? with
  | some e => rfl
  | none => exact compare_eq rfl site p.raceways

end Panel

/-- The ids of the items that a shared raceway holds. -/
def Site.held (s : Site) (r : SharedRaceway) : Set Nat :=
  {x | ∃ k, s.contents? r = some k ∧ x ∈ k.ids}

namespace Installation

/-- Whether the circuit with an id of the panel runs through a raceway that is not the panel's. -/
def Foreign (w : Installation) (id : Nat) (r : SharedRaceway) : Prop :=
  ∃ n c, w.panel.circuits[id]? = some (some n) ∧ w.circuit? n = some c ∧
    c.routing = .shared r ∧ ¬ w.panel.Owns r

/-- The ids of the items of the panel's circuits that run through a shared raceway. -/
def due (w : Installation) (r : SharedRaceway) : Set Nat :=
  {x | ∃ n c, w.Enrolled n ∧ w.circuit? n = some c ∧ c.routing = .shared r ∧
    x ∈ c.items.map Item.id}

/-- What is wrong first with the panel, if its raceways hold what they hold at the given site. -/
inductive Complaint (w : Installation) (site : Site) : PanelError → Prop
  | foreign {id : Nat} {r : SharedRaceway} (away : w.Foreign id r)
      (least : ∀ id' r', w.Foreign id' r' → id ≤ id') :
      Complaint w site (.foreignRaceway id r)
  | fault {k : RacewayId} {r : SharedRaceway} {e : PanelError}
      (home : ∀ id' r', ¬ w.Foreign id' r') (raceway : w.panel.shared? k = some r)
      (first : ∀ k' r', k'.Before k → w.panel.shared? k' = some r' → site.held r' = w.due r')
      (fault : Panel.Fault (site.held r) (w.due r) k e) :
      Complaint w site e

theorem setOf_mem_expected {w : Installation} (hw : Charted w) {k : RacewayId} {r : SharedRaceway}
    (hk : w.panel.shared? k = some r) : {x | x ∈ w.expected k} = w.due r :=
  Set.ext fun x => mem_expected_iff hw hk x

theorem setOf_mem_actualIds {p : Panel} {k : RacewayId} {r : SharedRaceway}
    (hk : p.shared? k = some r) (site : Site) : {x | x ∈ p.actualIds site k} = site.held r := by
  ext x
  simp only [Panel.actualIds, Site.held, hk, Option.bind_some, Set.mem_ofPred_eq]
  cases site.contents? r <;> simp

variable {w : Installation}

theorem foreign_iff (id : Nat) (r : SharedRaceway) :
    w.Foreign id r ↔ ∃ c, (id, c) ∈ w.panel.roster w.circuits ∧
      w.panel.foreign? (id, c) = some (.foreignRaceway id r) := by
  simp only [Foreign, Panel.mem_roster, Panel.foreign?_eq_some_iff,
    PanelError.foreignRaceway.injEq, true_and]
  constructor
  · rintro ⟨n, c, hn, hc, hr, ho⟩
    exact ⟨c, ⟨n, hn, hc⟩, r, hr, ho, rfl⟩
  · rintro ⟨c, ⟨n, hn, hc⟩, q, hr, ho, rfl⟩
    exact ⟨n, c, hn, hc, hr, ho⟩

theorem exists_foreign {id : Nat} {c : Circuit} {e : PanelError}
    (hc : (id, c) ∈ w.panel.roster w.circuits) (he : w.panel.foreign? (id, c) = some e) :
    ∃ r, w.Foreign id r ∧ e = .foreignRaceway id r := by
  obtain ⟨r, -, -, rfl⟩ := (w.panel.foreign?_eq_some_iff id c e).mp he
  exact ⟨r, (foreign_iff id r).mpr ⟨c, hc, he⟩, rfl⟩

theorem findSome?_foreign?_eq_some_iff (w : Installation) (e : PanelError) :
    (w.panel.roster w.circuits).findSome? w.panel.foreign? = some e ↔
      ∃ id r, w.Foreign id r ∧ (∀ id' r', w.Foreign id' r' → id ≤ id') ∧
        e = .foreignRaceway id r := by
  rw [findSome?_eq_some_iff_first (fun _ _ => Nat.lt_asymm) (w.panel.pairwise_roster w.circuits)]
  constructor
  · rintro ⟨⟨id, c⟩, hc, he, hfirst⟩
    obtain ⟨r, hr, rfl⟩ := exists_foreign hc he
    refine ⟨id, r, hr, fun id' r' hr' => ?_, rfl⟩
    by_contra hlt
    obtain ⟨d, hd, hsome⟩ := (foreign_iff id' r').mp hr'
    have hnone := hfirst (id', d) hd (not_le.mp hlt)
    exact Option.some_ne_none _ (hsome.symm.trans hnone)
  · rintro ⟨id, r, hr, hleast, rfl⟩
    obtain ⟨c, hc, he⟩ := (foreign_iff id r).mp hr
    refine ⟨(id, c), hc, he, fun ⟨id', d⟩ hd hlt => ?_⟩
    refine Option.eq_none_iff_forall_ne_some.mpr fun e' he' => ?_
    obtain ⟨r', hr', -⟩ := exists_foreign hd he'
    exact absurd (hleast id' r' hr') (not_le.mpr hlt)

theorem findSome?_foreign?_eq_none_iff (w : Installation) :
    (w.panel.roster w.circuits).findSome? w.panel.foreign? = none ↔ ∀ id r, ¬ w.Foreign id r := by
  rw [List.findSome?_eq_none_iff]
  constructor
  · intro h id r hr
    obtain ⟨c, hc, he⟩ := (foreign_iff id r).mp hr
    exact Option.some_ne_none _ (he.symm.trans (h (id, c) hc))
  · rintro h ⟨id, c⟩ hc
    refine Option.eq_none_iff_forall_ne_some.mpr fun e he => ?_
    obtain ⟨r, hr, -⟩ := exists_foreign hc he
    exact h id r hr

/-! ## The raceways of the panel -/

/-- What an audit finds wrong with a raceway of the panel. -/
def fault? (w : Installation) (site : Site) (k : RacewayId) : Option PanelError :=
  Panel.discrepancy k (w.expected k) (w.panel.actualIds site k)

theorem fault?_eq_some_iff (hw : Charted w) {k : RacewayId} {r : SharedRaceway}
    (hk : w.panel.shared? k = some r) (site : Site) (e : PanelError) :
    w.fault? site k = some e ↔ Panel.Fault (site.held r) (w.due r) k e := by
  unfold fault?
  rw [Panel.discrepancy_eq_some_iff, setOf_mem_expected hw hk, setOf_mem_actualIds hk]

theorem fault?_eq_none_iff (hw : Charted w) {k : RacewayId} {r : SharedRaceway}
    (hk : w.panel.shared? k = some r) (site : Site) :
    w.fault? site k = none ↔ site.held r = w.due r := by
  rw [← setOf_mem_expected hw hk, ← setOf_mem_actualIds hk, Set.Subset.antisymm_iff]
  exact Panel.discrepancy_eq_none_iff _ _ _

theorem findSome?_fault?_eq_some_iff (hw : Charted w) (site : Site) (e : PanelError) :
    w.panel.raceways.findSome? (w.fault? site) = some e ↔
      ∃ k r, w.panel.shared? k = some r ∧
        (∀ k' r', k'.Before k → w.panel.shared? k' = some r' → site.held r' = w.due r') ∧
        Panel.Fault (site.held r) (w.due r) k e := by
  rw [findSome?_eq_some_iff_first RacewayId.Before.asymm w.panel.pairwise_raceways]
  constructor
  · rintro ⟨k, hk, he, hfirst⟩
    obtain ⟨r, hr⟩ := Option.isSome_iff_exists.mp ((w.panel.mem_raceways_iff k).mp hk)
    refine ⟨k, r, hr, fun k' r' hbefore hr' => ?_, (fault?_eq_some_iff hw hr site e).mp he⟩
    have hk' : k' ∈ w.panel.raceways := (w.panel.mem_raceways_iff k').mpr (by simp [hr'])
    exact (fault?_eq_none_iff hw hr' site).mp (hfirst k' hk' hbefore)
  · rintro ⟨k, r, hr, hfirst, hfault⟩
    have hk : k ∈ w.panel.raceways := (w.panel.mem_raceways_iff k).mpr (by simp [hr])
    refine ⟨k, hk, (fault?_eq_some_iff hw hr site e).mpr hfault, fun k' hk' hbefore => ?_⟩
    obtain ⟨r', hr'⟩ := Option.isSome_iff_exists.mp ((w.panel.mem_raceways_iff k').mp hk')
    exact (fault?_eq_none_iff hw hr' site).mpr (hfirst k' r' hbefore hr')

theorem findSome?_fault?_eq_none_iff (hw : Charted w) (site : Site) :
    w.panel.raceways.findSome? (w.fault? site) = none ↔
      ∀ k r, w.panel.shared? k = some r → site.held r = w.due r := by
  rw [List.findSome?_eq_none_iff]
  constructor
  · intro h k r hr
    have hk : k ∈ w.panel.raceways := (w.panel.mem_raceways_iff k).mpr (by simp [hr])
    exact (fault?_eq_none_iff hw hr site).mp (h k hk)
  · intro h k hk
    obtain ⟨r, hr⟩ := Option.isSome_iff_exists.mp ((w.panel.mem_raceways_iff k).mp hk)
    exact (fault?_eq_none_iff hw hr site).mpr (h k r hr)

/-! ## The verdict -/

/-- An audit first looks for circuits away from home, and then at one raceway after another. -/
theorem audit_eq_findSome? (w : Installation) (site : Site) :
    w.panel.audit w.circuits site =
      match (w.panel.roster w.circuits).findSome? w.panel.foreign? with
      | some e => .error e
      | none =>
        match w.panel.raceways.findSome? (w.fault? site) with
        | some e => .error e
        | none => .ok () := by
  unfold Panel.audit Panel.routeMap
  rw [Panel.routesOf_eq]
  cases (w.panel.roster w.circuits).findSome? w.panel.foreign? <;> rfl

theorem audit_eq_error_iff (hw : Charted w) (site : Site) (e : PanelError) :
    w.panel.audit w.circuits site = .error e ↔ w.Complaint site e := by
  rw [audit_eq_findSome?]
  cases hforeign : (w.panel.roster w.circuits).findSome? w.panel.foreign? with
  | some e' =>
    obtain ⟨id, r, haway, hleast, rfl⟩ := (w.findSome?_foreign?_eq_some_iff e').mp hforeign
    constructor
    · intro h
      cases h
      exact .foreign haway hleast
    · intro h
      cases h with
      | foreign away least =>
        -- both circuits are the first away from home
        have hsame := (w.findSome?_foreign?_eq_some_iff _).mpr ⟨_, _, away, least, rfl⟩
        rw [hforeign] at hsame
        exact congrArg Except.error (Option.some.inj hsame)
      | fault home => exact absurd haway (home id r)
  | none =>
    have hhome := (w.findSome?_foreign?_eq_none_iff).mp hforeign
    have hfault := findSome?_fault?_eq_some_iff hw site e
    have herror : (match w.panel.raceways.findSome? (w.fault? site) with
        | some e => .error e
        | none => .ok () : Except PanelError Unit) = .error e ↔
        w.panel.raceways.findSome? (w.fault? site) = some e := by
      cases w.panel.raceways.findSome? (w.fault? site) <;> simp
    refine (herror.trans hfault).trans ?_
    constructor
    · rintro ⟨k, r, hr, hfirst, h⟩
      exact .fault hhome hr hfirst h
    · intro h
      cases h with
      | foreign away => exact absurd away (hhome _ _)
      | fault _ raceway first fault => exact ⟨_, _, raceway, first, fault⟩

theorem audit_eq_ok_iff_forall (hw : Charted w) (site : Site) :
    w.panel.audit w.circuits site = .ok () ↔
      (∀ id r, ¬ w.Foreign id r) ∧
        ∀ k r, w.panel.shared? k = some r → site.held r = w.due r := by
  rw [audit_eq_findSome?, ← findSome?_foreign?_eq_none_iff, ← findSome?_fault?_eq_none_iff hw]
  cases (w.panel.roster w.circuits).findSome? w.panel.foreign? with
  | some e => simp
  | none => cases w.panel.raceways.findSome? (w.fault? site) <;> simp

theorem Complaint.kind {site : Site} {e : PanelError} (h : w.Complaint site e) :
    ((∃ id r, w.Foreign id r) ∧ e.kind = "RacewayNotFound") ∨
      (∀ id r, ¬ w.Foreign id r) ∧ e.kind = "Internal" := by
  cases h with
  | foreign away => exact Or.inl ⟨⟨_, _, away⟩, rfl⟩
  | fault home _ _ fault => cases fault <;> exact Or.inr ⟨home, rfl⟩

/-- **Audits tell what is wrong first.** Whatever the raceways hold, an audit passes exactly if no
circuit of the panel is away from home and every raceway of the panel holds just what is due there.
Otherwise it names the first thing that is wrong. Though it looks its circuits up by their ids, it
always finds them. -/
theorem audit_tells_first_wrong (actions : List Action) (site : Site) :
    let w := run {} actions
    let verdict := w.panel.auditByLookUp w.circuits site
    (verdict = .ok () ↔
      (∀ id r, ¬ w.Foreign id r) ∧
        ∀ k r, w.panel.shared? k = some r → site.held r = w.due r) ∧
    (∀ e, verdict = .error e ↔ w.Complaint site e) ∧
    (∀ e, verdict = .error e →
      ((∃ id r, w.Foreign id r) ∧ e.kind = "RacewayNotFound") ∨
        (∀ id r, ¬ w.Foreign id r) ∧ e.kind = "Internal") ∧
    (∀ id, verdict ≠ .error (.circuitNotFound id)) ∧
    verdict = w.panel.audit w.circuits site := by
  intro w verdict
  have hw : Charted w := charted_run actions
  have heq : verdict = w.panel.audit w.circuits site :=
    Panel.auditByLookUp_eq w.panel w.circuits site
  have herror : ∀ e, verdict = .error e ↔ w.Complaint site e := by
    rw [heq]
    exact audit_eq_error_iff hw site
  have hkind : ∀ e, verdict = .error e →
      ((∃ id r, w.Foreign id r) ∧ e.kind = "RacewayNotFound") ∨
        (∀ id r, ¬ w.Foreign id r) ∧ e.kind = "Internal" :=
    fun e he => ((herror e).mp he).kind
  refine ⟨?_, herror, hkind, fun id he => ?_, heq⟩
  · rw [heq]
    exact audit_eq_ok_iff_forall hw site
  · rcases hkind _ he with ⟨-, hk⟩ | ⟨-, hk⟩ <;> simp [PanelError.kind] at hk

/-- A circuit in the second conduit of a panel, which somebody then empties. -/
def burgled : List Action :=
  let load : Load := { system := .ln120, ampacity := 16, verdict := some true }
  [.newConduit {} true, .newConduit {} true, .newCircuit load false true,
    .change (.panel 0) (.route (.sharedConduit (some (.panel 1)))), .overwriteConduit (.panel 1) {}]

/-- The first conductor is missed first. -/
theorem audit_of_burgled :
    let w := run {} burgled
    w.panel.auditByLookUp w.circuits w.site = .error (.missing (.conduit 1) 2) ∧
      w.Complaint w.site (.missing (.conduit 1) 2) := by
  intro w
  have hmissing : w.panel.auditByLookUp w.circuits w.site = .error (.missing (.conduit 1) 2) := by
    decide +kernel
  exact ⟨hmissing, ((audit_tells_first_wrong burgled w.site).2.1 _).mp hmissing⟩

end Installation

end Raceways
