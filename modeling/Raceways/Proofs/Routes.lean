import Mathlib.Data.List.Nodup
import Raceways.Panel.Audit

/-!
Which raceways a panel owns, and what its route map and its audit look at. The route map is made
exactly if every circuit of the panel that is in a shared raceway is in one of the panel's own.
-/

namespace Raceways

namespace Panel

/-! ## The roster -/

theorem mem_roster {p : Panel} {circuits : List (Option Circuit)} {id : Nat} {c : Circuit} :
    (id, c) ∈ p.roster circuits ↔
      ∃ n, p.circuits[id]? = some (some n) ∧ circuits[n]?.join = some c := by
  unfold roster
  rw [List.mem_filterMap]
  constructor
  · rintro ⟨⟨number, k⟩, hk, h⟩
    obtain ⟨d, hd, he⟩ := Option.map_eq_some_iff.mp h
    cases he
    obtain ⟨n, rfl, hn⟩ := Option.bind_eq_some_iff.mp hd
    exact ⟨n, List.mk_mem_zipIdx_iff_getElem?.mp hk, hn⟩
  · rintro ⟨n, hn, hc⟩
    refine ⟨(some n, id), List.mk_mem_zipIdx_iff_getElem?.mpr hn, ?_⟩
    simp [hc]

/-- An id stands for one circuit. -/
theorem eq_of_mem_roster {p : Panel} {circuits : List (Option Circuit)} {id : Nat} {c d : Circuit}
    (hc : (id, c) ∈ p.roster circuits) (hd : (id, d) ∈ p.roster circuits) : c = d := by
  obtain ⟨n, hn, hc⟩ := mem_roster.mp hc
  obtain ⟨m, hm, hd⟩ := mem_roster.mp hd
  rw [hn] at hm
  cases hm
  rw [hc] at hd
  exact Option.some.inj hd

/-! ## Raceways by their ids -/

def Owns (p : Panel) : SharedRaceway → Prop
  | .conduit n => n ∈ p.conduits
  | .bundle n => n ∈ p.bundles

theorem isSome_idOf?_iff (p : Panel) (r : SharedRaceway) : (p.idOf? r).isSome ↔ p.Owns r := by
  cases r <;> simp [idOf?, Owns]

theorem idOf?_eq_none_iff (p : Panel) (r : SharedRaceway) : p.idOf? r = none ↔ ¬ p.Owns r := by
  rw [← isSome_idOf?_iff]
  cases p.idOf? r <;> simp

theorem idxOf?_eq_some_iff_of_nodup {l : List Nat} (h : l.Nodup) (n id : Nat) :
    l.idxOf? n = some id ↔ l[id]? = some n := by
  rw [List.idxOf?_eq_some_iff]
  constructor
  · rintro ⟨hlt, heq, _⟩
    rw [List.getElem?_eq_getElem hlt, heq]
  · intro hid
    obtain ⟨hlt, heq⟩ := List.getElem?_eq_some_iff.mp hid
    refine ⟨hlt, heq, fun m hm hm' => ?_⟩
    have := h.getElem_inj_iff.mp (hm'.trans heq.symm)
    omega

/-- If no raceway is listed twice, ids and raceways correspond. -/
theorem idOf?_eq_some_iff {p : Panel} (hc : p.conduits.Nodup) (hb : p.bundles.Nodup)
    (r : SharedRaceway) (k : RacewayId) : p.idOf? r = some k ↔ p.shared? k = some r := by
  cases r with
  | conduit n =>
    cases k with
    | conduit id => simp [idOf?, shared?, idxOf?_eq_some_iff_of_nodup hc]
    | bundle id => simp [idOf?, shared?]
  | bundle n =>
    cases k with
    | conduit id => simp [idOf?, shared?]
    | bundle id => simp [idOf?, shared?, idxOf?_eq_some_iff_of_nodup hb]

theorem owns_of_shared? {p : Panel} {k : RacewayId} {r : SharedRaceway}
    (h : p.shared? k = some r) : p.Owns r := by
  cases k with
  | conduit id =>
    obtain ⟨n, hn, rfl⟩ := Option.map_eq_some_iff.mp h
    exact List.mem_of_getElem? hn
  | bundle id =>
    obtain ⟨n, hn, rfl⟩ := Option.map_eq_some_iff.mp h
    exact List.mem_of_getElem? hn

theorem exists_shared?_of_owns (p : Panel) {r : SharedRaceway} (h : p.Owns r) :
    ∃ k, p.shared? k = some r := by
  cases r with
  | conduit n =>
    obtain ⟨id, hid⟩ := List.mem_iff_getElem?.mp h
    exact ⟨.conduit id, by simp [shared?, hid]⟩
  | bundle n =>
    obtain ⟨id, hid⟩ := List.mem_iff_getElem?.mp h
    exact ⟨.bundle id, by simp [shared?, hid]⟩

theorem mem_raceways_iff (p : Panel) (k : RacewayId) :
    k ∈ p.raceways ↔ (p.shared? k).isSome := by
  cases k <;> simp [raceways, shared?]

/-! ## The route map -/

/-- The route of a circuit to a raceway of the panel. -/
def route? (p : Panel) (e : Nat × Circuit) : Option (Nat × RacewayId) :=
  (e.2.routing.shared?.bind p.idOf?).map fun k => (e.1, k)

theorem shared?_eq_some_iff (q : Routing) (r : SharedRaceway) :
    q.shared? = some r ↔ q = .shared r := by
  cases q <;> simp [Routing.shared?]

theorem route?_eq_some_iff (p : Panel) (id : Nat) (c : Circuit) (n : Nat) (k : RacewayId) :
    p.route? (id, c) = some (n, k) ↔
      n = id ∧ ∃ r, c.routing = .shared r ∧ p.idOf? r = some k := by
  simp only [route?, Option.map_eq_some_iff, Option.bind_eq_some_iff, shared?_eq_some_iff,
    Prod.mk.injEq]
  constructor
  · rintro ⟨_, ⟨r, hr, hk⟩, rfl, rfl⟩
    exact ⟨rfl, r, hr, hk⟩
  · rintro ⟨rfl, r, hr, hk⟩
    exact ⟨k, ⟨r, hr, hk⟩, rfl, rfl⟩

/-- The circuits through a raceway, as the route map has them, are those that run through it. -/
theorem mem_circuitsThrough_iff {p : Panel} (hc : p.conduits.Nodup) (hb : p.bundles.Nodup)
    {circuits : List (Option Circuit)} {k : RacewayId} {r : SharedRaceway}
    (hk : p.shared? k = some r) {id : Nat} {c : Circuit} (h : (id, c) ∈ p.roster circuits) :
    id ∈ RouteMap.circuitsThrough ⟨(p.roster circuits).filterMap p.route?⟩ k ↔
      c.routing = .shared r := by
  have hroute : p.route? (id, c) = some (id, k) ↔ c.routing = .shared r := by
    rw [route?_eq_some_iff]
    constructor
    · rintro ⟨_, q, hq, hqk⟩
      rw [(idOf?_eq_some_iff hc hb q k).mp hqk] at hk
      cases hk
      exact hq
    · exact fun hr => ⟨rfl, r, hr, (idOf?_eq_some_iff hc hb r k).mpr hk⟩
  rw [← hroute]
  unfold RouteMap.circuitsThrough
  rw [List.mem_map]
  constructor
  · rintro ⟨⟨m, l⟩, he, rfl⟩
    obtain ⟨hm, hl⟩ := List.mem_filter.mp he
    have hlk : l = k := of_decide_eq_true hl
    subst hlk
    obtain ⟨⟨n, d⟩, hd, hr⟩ := List.mem_filterMap.mp hm
    obtain ⟨rfl, _⟩ := (p.route?_eq_some_iff n d m l).mp hr
    rw [eq_of_mem_roster h hd]
    exact hr
  · intro hr
    have hm : (id, k) ∈ (p.roster circuits).filterMap p.route? :=
      List.mem_filterMap.mpr ⟨_, h, hr⟩
    exact ⟨(id, k), List.mem_filter.mpr ⟨hm, decide_eq_true rfl⟩, rfl⟩

/-- What there is to say of a circuit that runs through a raceway of somebody else. -/
def foreign? (p : Panel) (e : Nat × Circuit) : Option PanelError :=
  e.2.routing.shared?.bind fun r =>
    if p.idOf? r = none then some (.foreignRaceway e.1 r) else none

theorem foreign?_eq_some_iff (p : Panel) (id : Nat) (c : Circuit) (e : PanelError) :
    p.foreign? (id, c) = some e ↔
      ∃ r, c.routing = .shared r ∧ ¬ p.Owns r ∧ e = .foreignRaceway id r := by
  simp only [foreign?, Option.bind_eq_some_iff, shared?_eq_some_iff, idOf?_eq_none_iff,
    Option.ite_none_right_eq_some, Option.some.injEq]
  exact exists_congr fun r => and_congr_right fun _ => and_congr_right fun _ => eq_comm

/-- The route map is refused for the first circuit that is away from home. -/
theorem routesOf_eq (p : Panel) (l : List (Nat × Circuit)) :
    p.routesOf l =
      match l.findSome? p.foreign? with
      | some e => .error e
      | none => .ok (l.filterMap p.route?) := by
  induction l with
  | nil => rfl
  | cons e l ih =>
    obtain ⟨id, c⟩ := e
    rw [routesOf, List.findSome?_cons, List.filterMap_cons]
    cases hr : c.routing.shared? with
    | none => simp [foreign?, route?, hr, ih]
    | some r =>
      cases hk : p.idOf? r with
      | none => simp [foreign?, hr, hk]
      | some k =>
        simp only [foreign?, route?, hr, hk, ih, Option.bind_some, reduceCtorEq, ↓reduceIte,
          Option.map_some]
        cases l.findSome? p.foreign? <;> rfl

/-- All routes are found if no circuit runs through a raceway of somebody else. -/
theorem routesOf_eq_ok (p : Panel) (l : List (Nat × Circuit))
    (h : ∀ e ∈ l, ∀ r, e.2.routing = .shared r → p.Owns r) :
    p.routesOf l = .ok (l.filterMap p.route?) := by
  have hnone : l.findSome? p.foreign? = none := by
    rw [List.findSome?_eq_none_iff]
    rintro ⟨id, c⟩ hc
    refine Option.eq_none_iff_forall_ne_some.mpr fun e he => ?_
    obtain ⟨r, hr, ho, -⟩ := (p.foreign?_eq_some_iff id c e).mp he
    exact ho (h (id, c) hc r hr)
  rw [routesOf_eq, hnone]

/-- The route map is refused if a circuit runs through a raceway of somebody else. -/
theorem routesOf_eq_error (p : Panel) (l : List (Nat × Circuit)) (id : Nat) (c : Circuit)
    (r : SharedRaceway) (hc : (id, c) ∈ l) (hr : c.routing = .shared r) (ho : ¬ p.Owns r) :
    ∃ n q, p.routesOf l = .error (.foreignRaceway n q) := by
  cases hf : l.findSome? p.foreign? with
  | none =>
    have hsome := (p.foreign?_eq_some_iff id c _).mpr ⟨r, hr, ho, rfl⟩
    exact absurd (List.findSome?_eq_none_iff.mp hf (id, c) hc) (hsome ▸ Option.some_ne_none _)
  | some e =>
    obtain ⟨⟨n, d⟩, -, he⟩ := List.exists_of_findSome?_eq_some hf
    obtain ⟨q, -, -, rfl⟩ := (p.foreign?_eq_some_iff n d e).mp he
    exact ⟨n, q, by rw [routesOf_eq, hf]⟩

end Panel

end Raceways
