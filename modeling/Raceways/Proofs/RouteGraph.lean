import Mathlib.Algebra.BigOperators.Group.Finset.Basic
import Mathlib.Algebra.GroupWithZero.Nat
import Mathlib.Data.List.Sort
import Raceways.Panel.RouteGraph
import Raceways.Proofs.Itinerary
import Raceways.Proofs.Verdict

/-!
The graph of a panel's routes says what its route map says, whatever lawful graph it is drawn in. An
edge is drawn for each route, its nodes found through the index, and the index knows each node by
one number.
-/

namespace Raceways

open LabelledGraph LawfulLabelledGraph

namespace RouteGraph

theorem place?_cons {G : Type} (g : RouteGraph G) (u v : RouteNode) (i : Nat) (graph : G) :
    ({ g with graph := graph, index := (v, i) :: g.index } : RouteGraph G).place? u =
      if v = u then some i else g.place? u := by
  by_cases h : v = u <;> simp [place?, h]

variable {G : Type} [LabelledGraph RouteNode G]

/-- What an edge joins. -/
def ends (g : RouteGraph G) (e : Nat × Nat) : Option RouteNode × Option RouteNode :=
  (label? g.graph e.1, label? g.graph e.2)

/-- What the edge of a route is to join. -/
def endsOf (r : Nat × RacewayId) : Option RouteNode × Option RouteNode :=
  (some (.circuit r.1), some (.raceway r.2))

/-- A graph has just these routes, drawn one after the other. -/
structure Draws (g : RouteGraph G) (routes : List (Nat × RacewayId)) : Prop where
  indexed : ∀ v i, g.place? v = some i ↔ label? g.graph i = some v
  drawn : (edges g.graph).map g.ends = routes.map endsOf

variable {g : RouteGraph G} {routes : List (Nat × RacewayId)}

theorem Draws.exists_route (h : g.Draws routes) {e : Nat × Nat} (he : e ∈ edges g.graph) :
    ∃ r ∈ routes, g.ends e = endsOf r := by
  have hmem := List.mem_map_of_mem (f := g.ends) he
  rw [h.drawn] at hmem
  obtain ⟨r, hr, heq⟩ := List.mem_map.mp hmem
  exact ⟨r, hr, heq.symm⟩

/-- Nodes are the same where their numbers are. -/
theorem Draws.number_eq_iff (h : g.Draws routes) {u v : RouteNode} {i j : Nat}
    (hi : label? g.graph i = some u) (hj : label? g.graph j = some v) : i = j ↔ u = v := by
  constructor
  · rintro rfl
    exact Option.some.inj (hi.symm.trans hj)
  · rintro rfl
    rw [← h.indexed] at hi hj
    exact Option.some.inj (hi.symm.trans hj)

theorem Draws.place?_of_mem (h : g.Draws routes) {r : Nat × RacewayId} (hr : r ∈ routes) :
    g.place? (.circuit r.1) ≠ none ∧ g.place? (.raceway r.2) ≠ none := by
  have hmem := List.mem_map_of_mem (f := endsOf) hr
  rw [← h.drawn] at hmem
  obtain ⟨e, -, he⟩ := List.mem_map.mp hmem
  obtain ⟨hc, hk⟩ := Prod.mk.inj he
  rw [(h.indexed _ _).mpr hc, (h.indexed _ _).mpr hk]
  exact ⟨Option.some_ne_none _, Option.some_ne_none _⟩

/-- A graph that grows keeps its labels, so its edges join what they joined. -/
theorem Draws.map_ends_eq (h : g.Draws routes) (g' : RouteGraph G)
    (hkept : ∀ i v, label? g.graph i = some v → label? g'.graph i = some v) :
    (edges g.graph).map g'.ends = routes.map endsOf := by
  rw [← h.drawn]
  refine List.map_congr_left fun e he => ?_
  obtain ⟨r, -, hr⟩ := h.exists_route he
  obtain ⟨hc, hk⟩ := Prod.mk.inj hr
  rw [hr]
  exact Prod.ext (hkept _ _ hc) (hkept _ _ hk)

theorem map_filter_of_map_eq {α β γ : Type} {f : α → γ} {f' : β → γ} {p : α → Bool} {q : β → Bool}
    (hpq : ∀ a b, f a = f' b → p a = q b) :
    ∀ {l : List α} {l' : List β}, l.map f = l'.map f' → (l.filter p).map f = (l'.filter q).map f'
  | [], [], _ => rfl
  | a :: l, b :: l', h => by
    obtain ⟨hab, hl⟩ := List.cons_eq_cons.mp h
    have ih := map_filter_of_map_eq hpq hl
    rw [List.filter_cons, List.filter_cons, hpq a b hab]
    cases q b with
    | true => exact List.cons_eq_cons.mpr ⟨hab, ih⟩
    | false => exact ih

/-- Where some of the edges end, the routes that they are drawn for end. -/
theorem Draws.perm_ends (h : g.Draws routes) {p : Nat × Nat → Bool} {q : Nat × RacewayId → Bool}
    (hpq : ∀ e r, g.ends e = endsOf r → p e = q r)
    (side : Option RouteNode × Option RouteNode → Option RouteNode) {num : Nat × Nat → Nat}
    (hnum : ∀ e, label? g.graph (num e) = side (g.ends e)) {l : List Nat}
    (hl : l.Perm (((edges g.graph).filter p).map num)) :
    (l.map (label? g.graph)).Perm ((routes.filter q).map fun r => side (endsOf r)) := by
  have hsides := congrArg (List.map side) (map_filter_of_map_eq hpq h.drawn)
  rw [List.map_map, List.map_map] at hsides
  refine (hl.map _).trans (.of_eq ?_)
  rw [List.map_map]
  exact (List.map_congr_left fun e _ => hnum e).trans hsides

/-! ## Drawing routes -/

variable [LawfulLabelledGraph RouteNode G]

theorem draws_empty : (empty : RouteGraph G).Draws [] := by
  constructor
  · intro v i
    change none = some i ↔ label? (LabelledGraph.empty : G) i = some v
    simp [label?_empty]
  · exact congrArg (List.map _) edges_empty

theorem Draws.addNode (h : g.Draws routes) (v : RouteNode) :
    (g.addNode v).1.Draws routes ∧
      label? (g.addNode v).1.graph (g.addNode v).2 = some v ∧
      ∀ i u, label? g.graph i = some u → label? (g.addNode v).1.graph i = some u := by
  unfold RouteGraph.addNode
  cases hv : g.place? v with
  | some i => exact ⟨h, (h.indexed v i).mp hv, fun _ _ => id⟩
  | none =>
    have hkept : ∀ i u, label? g.graph i = some u →
        label? (LabelledGraph.addNode g.graph v).1 i = some u :=
      fun _ _ hi => label?_addNode_of_eq_some hi v
    refine ⟨⟨fun u i => ?_, ?_⟩, by simp [label?_addNode], hkept⟩
    · rw [place?_cons, label?_addNode]
      by_cases hi : i = (LabelledGraph.addNode g.graph v).2
      · subst hi
        by_cases hu : v = u
        · simp [hu]
        · have hnone : g.place? u ≠ some (LabelledGraph.addNode g.graph v).2 := by
            rw [Ne, h.indexed, label?_number_addNode]
            exact nofun
          simp [hu, hnone]
      · by_cases hu : v = u
        · have hnone : label? g.graph i ≠ some v := by
            rw [Ne, ← h.indexed, hv]
            exact nofun
          simp [← hu, hi, hnone, Ne.symm hi]
        · rw [if_neg hu, if_neg hi, h.indexed]
    · rw [edges_addNode]
      exact h.map_ends_eq _ hkept

theorem Draws.addRoute (h : g.Draws routes) {id : Nat} (hid : id ∉ routes.map Prod.fst)
    (k : RacewayId) : (g.addRoute id k).Draws (routes ++ [(id, k)]) := by
  obtain ⟨h₁, hi, -⟩ := h.addNode (.circuit id)
  obtain ⟨h₂, hj, hkept⟩ := h₁.addNode (.raceway k)
  unfold RouteGraph.addRoute
  generalize hg₁ : g.addNode (.circuit id) = g₁ at *
  generalize hg₂ : g₁.1.addNode (.raceway k) = g₂ at *
  have hends : g₂.1.ends (g₁.2, g₂.2) = endsOf (id, k) := Prod.ext (hkept _ _ hi) hj
  -- the circuit has no edge yet
  have hnew : (g₁.2, g₂.2) ∉ edges g₂.1.graph := by
    intro he
    obtain ⟨r, hr, heq⟩ := h₂.exists_route he
    rw [hends] at heq
    obtain ⟨hc, -⟩ := Prod.mk.inj heq
    cases hc
    exact hid (List.mem_map_of_mem hr)
  have hsource : label? g₂.1.graph g₁.2 ≠ none := by
    rw [hkept _ _ hi]
    exact nofun
  have htarget : label? g₂.1.graph g₂.2 ≠ none := by
    rw [hj]
    exact nofun
  have hlabels := label?_addEdge hsource htarget
  simp only [hg₂]
  constructor
  · intro v i
    rw [hlabels]
    exact h₂.indexed v i
  · have hold := h₂.map_ends_eq { g₂.1 with graph := addEdge g₂.1.graph g₁.2 g₂.2 }
      fun i v hv => (hlabels i).trans hv
    rw [edges_addEdge hsource htarget, if_neg hnew, List.map_append, List.map_append, hold,
      List.map_singleton, List.map_singleton, ← hends]
    simp only [ends, hlabels]

/-! ## Questions about routes -/

/-- Where the edges out of a circuit lead. -/
theorem Draws.outgoing (h : g.Draws routes) {id i : Nat}
    (hi : label? g.graph i = some (.circuit id)) :
    ((outgoing g.graph i).map (label? g.graph)).Perm
      ((routes.filter (fun r => r.1 = id)).map fun r => some (.raceway r.2)) := by
  refine h.perm_ends (fun e r he => ?_) Prod.snd (fun _ => rfl) (outgoing_perm g.graph i)
  obtain ⟨hc, -⟩ := Prod.mk.inj he
  rw [decide_eq_decide, h.number_eq_iff hc hi, RouteNode.circuit.injEq]

/-- Where the edges into a raceway come from. -/
theorem Draws.incoming (h : g.Draws routes) {k : RacewayId} {j : Nat}
    (hj : label? g.graph j = some (.raceway k)) :
    ((incoming g.graph j).map (label? g.graph)).Perm
      ((routes.filter (fun r => r.2 = k)).map fun r => some (.circuit r.1)) := by
  refine h.perm_ends (fun e r he => ?_) Prod.fst (fun _ => rfl) (incoming_perm g.graph j)
  obtain ⟨-, hk⟩ := Prod.mk.inj he
  rw [decide_eq_decide, h.number_eq_iff hk hj, RouteNode.raceway.injEq]

/-- In a list with one route for each circuit, a circuit has its route alone. -/
theorem filter_eq_toList_find? {l : List (Nat × RacewayId)}
    (hl : l.Pairwise fun r r' => r.1 < r'.1) (id : Nat) :
    l.filter (fun r => r.1 = id) = (l.find? (fun r => r.1 = id)).toList := by
  induction l with
  | nil => rfl
  | cons r l ih =>
    obtain ⟨hr, hl⟩ := List.pairwise_cons.mp hl
    by_cases h : r.1 = id
    · have hnone : l.filter (fun r => r.1 = id) = [] := by
        rw [List.filter_eq_nil_iff]
        intro r' hr'
        have := hr r' hr'
        simp only [decide_eq_true_eq]
        omega
      simp [h, hnone]
    · simpa [h] using ih hl

theorem Draws.routeOf (h : g.Draws routes) (hasc : routes.Pairwise fun r r' => r.1 < r'.1)
    (id : Nat) : g.routeOf id = (RouteMap.routeOf ⟨routes⟩ id).map .raceway := by
  have hfilter := filter_eq_toList_find? hasc id
  unfold RouteGraph.routeOf RouteMap.routeOf
  cases hplace : g.place? (.circuit id) with
  | none =>
    have hnone : routes.find? (fun r => r.1 = id) = none := by
      rw [List.find?_eq_none]
      intro r hr hid
      rw [decide_eq_true_eq] at hid
      exact (h.place?_of_mem hr).1 (hid ▸ hplace)
    rw [hnone]
    rfl
  | some i =>
    have hout := h.outgoing ((h.indexed _ i).mp hplace)
    rw [hfilter] at hout
    change ((LabelledGraph.outgoing g.graph i).head?.bind (label? g.graph)) = _
    cases hfind : routes.find? (fun r => r.1 = id) with
    | none =>
      rw [hfind] at hout
      rw [List.map_eq_nil_iff.mp hout.eq_nil]
      rfl
    | some r =>
      -- of a single neighbour there is one order only
      rw [hfind] at hout
      obtain ⟨j, hj, hnode⟩ := List.map_eq_singleton_iff.mp (List.perm_singleton.mp hout)
      rw [hj]
      exact hnode

theorem Draws.circuitsThrough (h : g.Draws routes)
    (hasc : routes.Pairwise fun r r' => r.1 < r'.1) (k : RacewayId) :
    g.circuitsThrough k = RouteMap.circuitsThrough ⟨routes⟩ k := by
  unfold RouteGraph.circuitsThrough RouteMap.circuitsThrough
  cases hplace : g.place? (.raceway k) with
  | none =>
    have hnone : routes.filter (fun r => r.2 = k) = [] := by
      rw [List.filter_eq_nil_iff]
      intro r hr hk
      rw [decide_eq_true_eq] at hk
      exact (h.place?_of_mem hr).2 (hk ▸ hplace)
    rw [hnone]
    rfl
  | some j =>
    have hin := (h.incoming ((h.indexed _ j).mp hplace)).filterMap (·.bind RouteNode.circuit?)
    have hids : ((LabelledGraph.incoming g.graph j).filterMap
        fun i => (label? g.graph i).bind RouteNode.circuit?).Perm
          ((routes.filter (fun r => r.2 = k)).map Prod.fst) := by
      simpa [List.filterMap_map, Function.comp_def, RouteNode.circuit?] using hin
    have hsorted : ((routes.filter (fun r => r.2 = k)).map Prod.fst).Pairwise (· ≤ ·) :=
      List.pairwise_map.mpr ((hasc.filter _).imp Nat.le_of_lt)
    -- there is one way only to put them in order
    exact ((List.mergeSort_perm _ _).trans hids).eq_of_pairwise'
      (List.pairwise_mergeSort' (· ≤ ·) _) hsorted

theorem Draws.routeCount (h : g.Draws routes) : g.routeCount = RouteMap.size ⟨routes⟩ := by
  have hlength := congrArg List.length h.drawn
  simpa [RouteGraph.routeCount, RouteMap.size, edgeCount_eq] using hlength

end RouteGraph

/-! ## The graph of a panel -/

namespace Panel

variable {G : Type} [LabelledGraph RouteNode G] {p : Panel} {g : RouteGraph G}
  {routes : List (Nat × RacewayId)}

theorem nodup_raceways (p : Panel) : p.raceways.Nodup := by
  refine p.pairwise_raceways.imp ?_
  rintro k _ hlt rfl
  exact RacewayId.Before.asymm k k hlt hlt

theorem drawCircuit_of_foreign {e : Nat × Circuit} {err : PanelError}
    (h : p.foreign? e = some err) (g : RouteGraph G) : p.drawCircuit g e = .error err := by
  obtain ⟨id, c⟩ := e
  obtain ⟨r, hr, ho, rfl⟩ := (p.foreign?_eq_some_iff id c err).mp h
  rw [← idOf?_eq_none_iff] at ho
  simp [drawCircuit, hr, Routing.shared?, ho]

variable [LawfulLabelledGraph RouteNode G]

theorem draws_raceways (p : Panel) :
    (p.raceways.foldl (fun g k => (g.addNode (.raceway k)).1)
      (RouteGraph.empty : RouteGraph G)).Draws [] := by
  suffices h : ∀ (l : List RacewayId) (g : RouteGraph G), g.Draws [] →
      (l.foldl (fun g k => (g.addNode (.raceway k)).1) g).Draws [] from
    h p.raceways _ RouteGraph.draws_empty
  intro l
  induction l with
  | nil => exact fun g hg => hg
  | cons k l ih => exact fun g hg => ih _ (hg.addNode (.raceway k)).1

theorem drawCircuit_of_home (hg : g.Draws routes) {e : Nat × Circuit}
    (he : e.1 ∉ routes.map Prod.fst) (h : p.foreign? e = none) :
    ∃ g', p.drawCircuit g e = .ok g' ∧ g'.Draws (routes ++ (p.route? e).toList) := by
  have hnode := (hg.addNode (.circuit e.1)).1
  unfold drawCircuit
  cases hr : e.2.routing.shared? with
  | none => exact ⟨_, rfl, by simpa [route?, hr] using hnode⟩
  | some r =>
    cases hk : p.idOf? r with
    | none => simp [foreign?, hr, hk] at h
    | some k =>
      refine ⟨(g.addNode (.circuit e.1)).1.addRoute e.1 k, by simp [hk], ?_⟩
      have hroute := hnode.addRoute he k
      simpa [route?, hr, hk] using hroute

/-- Circuit by circuit a graph gets the routes of its panel, until one is away from home. -/
theorem foldlM_drawCircuit {l : List (Nat × Circuit)} (hl : l.Pairwise fun e e' => e.1 < e'.1)
    (hg : g.Draws routes) (hnew : ∀ e ∈ l, e.1 ∉ routes.map Prod.fst) :
    match l.findSome? p.foreign? with
    | some err => l.foldlM p.drawCircuit g = .error err
    | none =>
      ∃ g', l.foldlM p.drawCircuit g = .ok g' ∧ g'.Draws (routes ++ l.filterMap p.route?) := by
  induction l generalizing g routes with
  | nil => exact ⟨g, rfl, by simpa using hg⟩
  | cons e l ih =>
    obtain ⟨hlt, hl⟩ := List.pairwise_cons.mp hl
    rw [List.findSome?_cons, List.foldlM_cons]
    cases hforeign : p.foreign? e with
    | some err => simp [drawCircuit_of_foreign hforeign, bind, Except.bind]
    | none =>
      obtain ⟨g', hg', hdraws⟩ := drawCircuit_of_home hg (hnew e List.mem_cons_self) hforeign
      have hnew' : ∀ e' ∈ l, e'.1 ∉ (routes ++ (p.route? e).toList).map Prod.fst := by
        intro e' he'
        rw [List.map_append, List.mem_append, not_or]
        refine ⟨hnew e' (List.mem_cons_of_mem e he'), fun hmem => ?_⟩
        obtain ⟨r, hr, hid⟩ := List.mem_map.mp hmem
        obtain ⟨hr, -⟩ := (p.route?_eq_some_iff e.1 e.2 r.1 r.2).mp (Option.mem_toList.mp hr)
        have := hlt e' he'
        omega
      have htail := ih hl hdraws hnew'
      have hroutes : routes ++ (e :: l).filterMap p.route? =
          routes ++ (p.route? e).toList ++ l.filterMap p.route? := by
        cases hr : p.route? e <;> simp [hr]
      rw [hg', hroutes]
      exact htail

theorem pairwise_routes (p : Panel) (circuits : List (Option Circuit)) :
    ((p.roster circuits).filterMap p.route?).Pairwise fun r r' => r.1 < r'.1 := by
  rw [List.pairwise_filterMap]
  refine (p.pairwise_roster circuits).imp ?_
  rintro ⟨id, c⟩ ⟨id', c'⟩ hlt ⟨n, k⟩ hr ⟨n', k'⟩ hr'
  obtain ⟨rfl, -⟩ := (p.route?_eq_some_iff id c n k).mp hr
  obtain ⟨rfl, -⟩ := (p.route?_eq_some_iff id' c' n' k').mp hr'
  exact hlt

end Panel

/-! ## What the graph says -/

namespace RouteMap

variable {m : RouteMap}

/-- The circuits through a raceway and the routes of the circuits are two sides of one relation. -/
theorem mem_circuitsThrough_iff_routeOf (hm : m.routes.Pairwise fun r r' => r.1 < r'.1)
    (id : Nat) (k : RacewayId) : id ∈ m.circuitsThrough k ↔ m.routeOf id = some k := by
  have hmem : id ∈ m.circuitsThrough k ↔ (id, k) ∈ m.routes.filter (fun r => r.1 = id) := by
    simp [circuitsThrough]
  rw [hmem, RouteGraph.filter_eq_toList_find? hm, Option.mem_toList, routeOf,
    Option.map_eq_some_iff]
  constructor
  · exact fun h => ⟨_, h, rfl⟩
  · rintro ⟨⟨n, l⟩, hfind, rfl⟩
    have hn : n = id := by simpa using List.find?_some hfind
    rw [hfind, hn]

theorem pairwise_circuitsThrough (hm : m.routes.Pairwise fun r r' => r.1 < r'.1)
    (k : RacewayId) : (m.circuitsThrough k).Pairwise (· < ·) :=
  List.pairwise_map.mpr (hm.filter _)

/-- Each route is counted at its raceway. -/
theorem size_eq_sum {ks : List RacewayId} (hks : ks.Nodup) (h : ∀ r ∈ m.routes, r.2 ∈ ks) :
    m.size = (ks.map fun k => (m.circuitsThrough k).length).sum := by
  have hcount : ∀ k, (m.circuitsThrough k).length = (m.routes.map Prod.snd).count k := by
    intro k
    rw [circuitsThrough, List.length_map, ← List.countP_eq_length_filter, List.count,
      List.countP_map]
    rfl
  have hsub : ∀ k ∈ (m.routes.map Prod.snd : Multiset RacewayId), k ∈ ks.toFinset := by
    intro k hk
    obtain ⟨r, hr, rfl⟩ := List.mem_map.mp (Multiset.mem_coe.mp hk)
    exact List.mem_toFinset.mpr (h r hr)
  have hsum := Multiset.sum_count_eq_card hsub
  rw [List.sum_toFinset _ hks] at hsum
  simpa [hcount, size] using hsum.symm

end RouteMap

namespace RouteGraph

variable {G : Type} [LabelledGraph RouteNode G]

/-- A graph answers as a route map does. -/
structure Answers (g : RouteGraph G) (m : RouteMap) : Prop where
  routeOf : ∀ id, g.routeOf id = (m.routeOf id).map .raceway
  circuitsThrough : ∀ k, g.circuitsThrough k = m.circuitsThrough k
  routeCount : g.routeCount = m.size

end RouteGraph

/-- The graph is refused where the route map is, and else answers as it does. -/
theorem Panel.routeGraph_of_routeMap (G : Type) [LabelledGraph RouteNode G]
    [LawfulLabelledGraph RouteNode G] (p : Panel) (circuits : List (Option Circuit)) :
    match p.routeMap circuits with
    | .error e => p.routeGraph G circuits = .error e
    | .ok m => ∃ g, p.routeGraph G circuits = .ok g ∧ g.Answers m := by
  have hdraw := foldlM_drawCircuit (G := G) (p := p) (p.pairwise_roster circuits)
    p.draws_raceways (by simp)
  unfold routeMap routeGraph
  rw [routesOf_eq]
  cases hforeign : (p.roster circuits).findSome? p.foreign? with
  | some err =>
    rw [hforeign] at hdraw
    exact hdraw
  | none =>
    rw [hforeign] at hdraw
    obtain ⟨g, hg, hdraws⟩ := hdraw
    have hasc := p.pairwise_routes circuits
    exact ⟨g, hg, hdraws.routeOf hasc, hdraws.circuitsThrough hasc, hdraws.routeCount⟩

namespace Installation

variable {G : Type} [LabelledGraph RouteNode G] {w : Installation}

/-- What a graph of the routes of an installation is to say. -/
structure Depicts (g : RouteGraph G) (w : Installation) : Prop where
  /-- The two ways of asking say the same. -/
  inverse : ∀ id k, id ∈ g.circuitsThrough k ↔ g.routeOf id = some (.raceway k)
  /-- A circuit's route leads to the raceway of the panel that it runs through. -/
  routed : ∀ id k, g.routeOf id = some (.raceway k) ↔
    ∃ r, w.Routed id r ∧ w.panel.shared? k = some r
  leadsToRaceway : ∀ id v, g.routeOf id = some v → ∃ k, v = .raceway k
  ascending : ∀ k, (g.circuitsThrough k).Pairwise (· < ·)
  unknownRaceway : ∀ k, w.panel.shared? k = none → g.circuitsThrough k = []
  unknownCircuit : ∀ id, (∀ c, ¬ w.OnPanel id c) → g.routeOf id = none
  count : g.routeCount = (w.panel.roster w.circuits).countP fun e =>
    e.2.mode = .sharedConduit ∨ e.2.mode = .sharedBundle
  total : g.routeCount = (w.panel.raceways.map fun k => (g.circuitsThrough k).length).sum

theorem foreign_iff_routed (id : Nat) (r : SharedRaceway) :
    w.Foreign id r ↔ w.Routed id r ∧ ¬ w.panel.Owns r := by
  simp only [Foreign, Routed, OnPanel, circuitAt_panel_iff, Option.join_eq_some_iff]
  constructor
  · rintro ⟨n, c, hn, hc, hr, ho⟩
    exact ⟨⟨c, ⟨n, hn, hc⟩, hr⟩, ho⟩
  · rintro ⟨⟨c, ⟨n, hn, hc⟩, hr⟩, ho⟩
    exact ⟨n, c, hn, hc, hr, ho⟩

theorem atHome_of_not_foreign (h : ∀ id r, ¬ w.Foreign id r) : w.AtHome := by
  rw [atHome_iff]
  intro id r hr
  by_contra ho
  exact h id r ((foreign_iff_routed id r).mpr ⟨hr, ho⟩)

theorem routeMap_eq (w : Installation) :
    w.routeMap =
      match (w.panel.roster w.circuits).findSome? w.panel.foreign? with
      | some e => .error e
      | none => .ok ⟨(w.panel.roster w.circuits).filterMap w.panel.route?⟩ := by
  unfold routeMap Panel.routeMap
  rw [Panel.routesOf_eq]
  cases (w.panel.roster w.circuits).findSome? w.panel.foreign? <;> rfl

/-- If the circuits of the panel are at home, those in shared raceways have routes. -/
theorem length_routes (h : w.AtHome) :
    ((w.panel.roster w.circuits).filterMap w.panel.route?).length =
      (w.panel.roster w.circuits).countP fun e =>
        e.2.mode = .sharedConduit ∨ e.2.mode = .sharedBundle := by
  rw [List.length_filterMap_eq_countP]
  refine List.countP_congr fun e he => ?_
  obtain ⟨id, c⟩ := e
  have howns : ∀ r, c.routing = .shared r → ∃ k, w.panel.idOf? r = some k := by
    intro r hr
    rw [← Option.isSome_iff_exists, Panel.isSome_idOf?_iff]
    exact w.atHome_iff.mp h id r ⟨c, (w.mem_roster_iff_onPanel id c).mp he, hr⟩
  cases hr : c.routing with
  | shared r =>
    obtain ⟨k, hk⟩ := howns r hr
    cases r <;> simp [Panel.route?, hr, Routing.shared?, hk, Circuit.mode, Routing.mode]
  | _ => simp [Panel.route?, hr, Routing.shared?, Circuit.mode, Routing.mode]

theorem routes_of_routeMap {m : RouteMap} (hm : w.routeMap = .ok m) :
    m.routes = (w.panel.roster w.circuits).filterMap w.panel.route? := by
  rw [routeMap_eq] at hm
  split at hm <;> cases hm
  rfl

/-- The raceways of the routes are among those of the panel. -/
theorem mem_raceways_of_routed {m : RouteMap} (hm : m.routes.Pairwise fun r r' => r.1 < r'.1)
    (hrouted : ∀ id k, m.routeOf id = some k ↔ ∃ r, w.Routed id r ∧ w.panel.shared? k = some r)
    {r : Nat × RacewayId} (hr : r ∈ m.routes) : r.2 ∈ w.panel.raceways := by
  have hmem : r.1 ∈ m.circuitsThrough r.2 := by
    simpa [RouteMap.circuitsThrough] using hr
  rw [RouteMap.mem_circuitsThrough_iff_routeOf hm, hrouted] at hmem
  obtain ⟨q, -, hq⟩ := hmem
  rw [Panel.mem_raceways_iff, hq]
  rfl

theorem depicts_of_answers (hw : Charted w) (home : ∀ id r, ¬ w.Foreign id r) {m : RouteMap}
    (hm : w.routeMap = .ok m) {g : RouteGraph G} (h : g.Answers m) : Depicts g w := by
  have hhome := atHome_of_not_foreign home
  have hroutes := routes_of_routeMap hm
  have hasc : m.routes.Pairwise fun r r' => r.1 < r'.1 := by
    rw [hroutes]
    exact w.panel.pairwise_routes w.circuits
  have hrouted : ∀ id k,
      m.routeOf id = some k ↔ ∃ r, w.Routed id r ∧ w.panel.shared? k = some r := by
    obtain ⟨m', hm', hrouted⟩ := routeMap_of_atHome hw hhome
    rw [hm] at hm'
    cases hm'
    exact hrouted
  have hroute : ∀ id k, g.routeOf id = some (.raceway k) ↔ m.routeOf id = some k := by
    intro id k
    simp [h.routeOf]
  have hthrough : ∀ id k, id ∈ g.circuitsThrough k ↔ m.routeOf id = some k := by
    intro id k
    rw [h.circuitsThrough, RouteMap.mem_circuitsThrough_iff_routeOf hasc]
  constructor
  case inverse => exact fun id k => (hthrough id k).trans (hroute id k).symm
  case routed => exact fun id k => (hroute id k).trans (hrouted id k)
  case leadsToRaceway =>
    intro id v hv
    rw [h.routeOf, Option.map_eq_some_iff] at hv
    obtain ⟨k, -, rfl⟩ := hv
    exact ⟨k, rfl⟩
  case ascending =>
    intro k
    rw [h.circuitsThrough]
    exact RouteMap.pairwise_circuitsThrough hasc k
  case unknownRaceway =>
    intro k hk
    refine List.eq_nil_iff_forall_not_mem.mpr fun id hid => ?_
    obtain ⟨r, -, hr⟩ := (hrouted id k).mp ((hthrough id k).mp hid)
    simp [hk] at hr
  case unknownCircuit =>
    intro id hid
    rw [h.routeOf, Option.map_eq_none_iff]
    refine Option.eq_none_iff_forall_ne_some.mpr fun k hk => ?_
    obtain ⟨r, ⟨c, hc, -⟩, -⟩ := (hrouted id k).mp hk
    exact hid c hc
  case count =>
    rw [h.routeCount, RouteMap.size, hroutes]
    exact length_routes hhome
  case total =>
    have hall : ∀ r ∈ m.routes, r.2 ∈ w.panel.raceways := fun _ =>
      mem_raceways_of_routed hasc hrouted
    rw [h.routeCount, RouteMap.size_eq_sum w.panel.nodup_raceways hall]
    simp only [h.circuitsThrough]

/-- **The graph of the routes is the relation of routing.** Whatever was done, the graph is refused
exactly if a circuit of the panel runs through a raceway that is not the panel's. Otherwise the
circuits through a raceway and the raceway of a circuit are the two sides of one relation, that of
the circuits of the panel to those raceways of the panel that they run through, each route is
counted once, and the route map gives the same answers. Nothing is assumed of the graph it is drawn
in but what is promised of every graph. -/
theorem routeGraph_depicts_routing (G : Type) [LabelledGraph RouteNode G]
    [LawfulLabelledGraph RouteNode G] (actions : List Action) :
    let w := run {} actions
    ((∃ e, w.routeGraph G = .error e) ↔ ∃ id r, w.Routed id r ∧ ¬ w.panel.Owns r) ∧
    (∀ e, w.routeGraph G = .error e ↔ w.routeMap = .error e) ∧
    ∀ g, w.routeGraph G = .ok g → Depicts g w ∧ ∃ m, w.routeMap = .ok m ∧ g.Answers m := by
  intro w
  have hgraph := w.panel.routeGraph_of_routeMap G w.circuits
  change match w.routeMap with
    | .error e => w.routeGraph G = .error e
    | .ok m => ∃ g, w.routeGraph G = .ok g ∧ g.Answers m at hgraph
  have hmap := w.routeMap_eq
  simp only [← foreign_iff_routed]
  cases hforeign : (w.panel.roster w.circuits).findSome? w.panel.foreign? with
  | some e =>
    rw [hforeign] at hmap
    simp only [hmap] at hgraph
    obtain ⟨id, r, hr, -⟩ := (w.findSome?_foreign?_eq_some_iff e).mp hforeign
    refine ⟨⟨fun _ => ⟨id, r, hr⟩, fun _ => ⟨e, hgraph⟩⟩, fun e' => ?_, fun g hg => ?_⟩
    · rw [hgraph, hmap]
      simp
    · rw [hgraph] at hg
      cases hg
  | none =>
    rw [hforeign] at hmap
    simp only [hmap] at hgraph
    obtain ⟨g, hg, hanswers⟩ := hgraph
    have hhome := (w.findSome?_foreign?_eq_none_iff).mp hforeign
    refine ⟨?_, fun e => ?_, fun g' hg' => ?_⟩
    · constructor
      · rintro ⟨e, he⟩
        rw [hg] at he
        cases he
      · rintro ⟨id, r, hr⟩
        exact absurd hr (hhome id r)
    · rw [hg, hmap]
      simp
    · rw [hg] at hg'
      cases hg'
      exact ⟨depicts_of_answers (charted_run actions) hhome hmap hanswers, _, hmap, hanswers⟩

/-- Two of four circuits share a conduit, a third is in a bundle and the last one in a bundle of its
own. The other conduit of the panel stays empty. -/
def sharing : List Action :=
  let load : Load := { system := .ln120, ampacity := 16, verdict := some true }
  [.newCircuit load false true, .newCircuit load false true, .newCircuit load false true,
    .newCircuit load false true, .newConduit {} true, .newConduit {} true, .newBundle 0 true,
    .change (.panel 2) (.route (.sharedConduit (some (.panel 0)))),
    .change (.panel 0) (.route (.sharedConduit (some (.panel 0)))),
    .change (.panel 1) (.route (.sharedBundle (some (.panel 0)))),
    .change (.panel 3) (.route .privateBundle)]

theorem routeGraph_of_sharing :
    ∃ g, (run {} sharing).routeGraph (ListGraph RouteNode) = .ok g ∧ Depicts g (run {} sharing) ∧
      g.circuitsThrough (.conduit 0) = [0, 2] ∧ g.circuitsThrough (.conduit 1) = [] ∧
      g.circuitsThrough (.bundle 0) = [1] ∧ g.routeOf 3 = none ∧ g.routeCount = 3 := by
  have hmap : (run {} sharing).routeMap =
      .ok ⟨[(0, .conduit 0), (1, .bundle 0), (2, .conduit 0)]⟩ := by rfl
  obtain ⟨-, herror, hok⟩ := routeGraph_depicts_routing (ListGraph RouteNode) sharing
  cases hg : (run {} sharing).routeGraph (ListGraph RouteNode) with
  | error e =>
    rw [(herror e).mp hg] at hmap
    cases hmap
  | ok g =>
    obtain ⟨hdepicts, m, hm, hanswers⟩ := hok g hg
    rw [hmap] at hm
    cases hm
    refine ⟨g, rfl, hdepicts, ?_, ?_, ?_, ?_, ?_⟩
    · rw [hanswers.circuitsThrough]
      rfl
    · rw [hanswers.circuitsThrough]
      rfl
    · rw [hanswers.circuitsThrough]
      rfl
    · rw [hanswers.routeOf]
      rfl
    · rw [hanswers.routeCount]
      rfl

end Installation

end Raceways
