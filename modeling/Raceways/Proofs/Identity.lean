import Mathlib.Data.List.Nodup
import Raceways.Proofs.Turn
import Raceways.Proofs.Work

/-!
Who has which id. The ids of a circuit are those of its two patterns and of its items. A circuit
gets new ids only from the site, so no two circuits ever have one id in common.
-/

namespace Raceways

namespace Circuit

def ids (c : Circuit) : List Nat := c.conductor.id :: c.cable.id :: c.items.map Item.id

theorem pattern_id_mem (c : Circuit) :
    c.pattern.id = c.conductor.id ∨ c.pattern.id = c.cable.id := by
  simp only [pattern]
  split
  · exact Or.inl rfl
  · exact Or.inr rfl

theorem mem_ids_of_mem_items {c : Circuit} {id : Nat} (h : id ∈ c.items.map Item.id) :
    id ∈ c.ids :=
  List.mem_cons_of_mem _ (List.mem_cons_of_mem _ h)

theorem item_id_mem {c : Circuit} {i : Item} (h : i ∈ c.items) : i.id ∈ c.ids :=
  mem_ids_of_mem_items (List.mem_map.mpr ⟨i, h, rfl⟩)

/-- The pattern is planned with its own id, the other items with the ids from `next` on. -/
theorem map_id_plannedItems (c : Circuit) (next : Nat) :
    (c.plannedItems next).map Item.id =
      c.pattern.id :: List.range' next (c.plan.length - 1) := by
  unfold plannedItems
  rw [List.map_cons]
  congr 1
  apply List.ext_getElem
  · simp
  · intro i h₁ h₂
    simp

theorem nodup_plannedItems (c : Circuit) (next : Nat) (h : c.pattern.id < next) :
    ((c.plannedItems next).map Item.id).Nodup := by
  rw [map_id_plannedItems, List.nodup_cons]
  refine ⟨?_, List.nodup_range'⟩
  intro hm
  have := (List.mem_range'_1.mp hm).1
  omega

end Circuit

namespace Job

/-- What becomes of the ids of a circuit: they are kept or newly issued, and items never share
one. -/
structure Grown (j₀ j : Job) : Prop where
  nextId_le : j₀.site.nextId ≤ j.site.nextId
  issued : ∀ id ∈ j.circuit.ids, id < j.site.nextId
  kept_or_new : ∀ id ∈ j.circuit.ids, id ∈ j₀.circuit.ids ∨ j₀.site.nextId ≤ id
  nodup : (j.circuit.items.map Item.id).Nodup

namespace Grown

theorem refl {j : Job} (hi : ∀ id ∈ j.circuit.ids, id < j.site.nextId)
    (hn : (j.circuit.items.map Item.id).Nodup) : Grown j j :=
  ⟨Nat.le_refl _, hi, fun _ h => Or.inl h, hn⟩

theorem ids_eq {j₀ j k : Job} (h : Grown j₀ j) (hids : k.circuit.ids = j.circuit.ids)
    (hnext : k.site.nextId = j.site.nextId) : Grown j₀ k := by
  have hitems : k.circuit.items.map Item.id = j.circuit.items.map Item.id :=
    (List.cons.inj (List.cons.inj hids).2).2
  refine ⟨?_, ?_, ?_, ?_⟩
  · rw [hnext]
    exact h.nextId_le
  · rw [hids, hnext]
    exact h.issued
  · rw [hids]
    exact h.kept_or_new
  · rw [hitems]
    exact h.nodup

/-- A step that issues ids and gives the circuit no others. -/
theorem of_issue {j₀ j k : Job} (h : Grown j₀ j) (n : Nat)
    (hnext : k.site.nextId = j.site.nextId + n)
    (hids : ∀ id ∈ k.circuit.ids,
      id ∈ j.circuit.ids ∨ j.site.nextId ≤ id ∧ id < j.site.nextId + n)
    (hn : (k.circuit.items.map Item.id).Nodup) : Grown j₀ k := by
  have hle := h.nextId_le
  refine ⟨by omega, ?_, ?_, hn⟩
  · intro id hid
    rcases hids id hid with hold | hnew
    · have := h.issued id hold
      omega
    · omega
  · intro id hid
    rcases hids id hid with hold | hnew
    · exact h.kept_or_new id hold
    · exact Or.inr (by omega)

theorem refit {j₀ j : Job} (h : Grown j₀ j) : Grown j₀ j.refit := by
  obtain ⟨k, b, hc⟩ := circuit_refit j
  have hp : j.circuit.pattern.id ∈ j.circuit.ids := by
    rcases j.circuit.pattern_id_mem with hp | hp <;> simp [hp, Circuit.ids]
  refine h.of_issue _ (nextId_refit j) ?_ ?_
  · intro id hid
    rw [hc] at hid
    simp only [Circuit.ids, Circuit.map_id_plannedItems, List.mem_cons, List.mem_range'_1] at hid
    rcases hid with rfl | rfl | rfl | hnew
    · exact Or.inl (by simp [Circuit.ids])
    · exact Or.inl (by simp [Circuit.ids])
    · exact Or.inl hp
    · exact Or.inr hnew
  · rw [hc]
    exact j.circuit.nodup_plannedItems _ (h.issued _ hp)

theorem moveTo {j₀ j : Job} (h : Grown j₀ j) (r : Routing) : Grown j₀ (j.moveTo r) := by
  obtain ⟨k, b, hc⟩ := circuit_moveTo r j
  exact h.ids_eq (by rw [hc]; rfl) (nextId_moveTo r j)

theorem resize {j₀ j : Job} (h : Grown j₀ j) (s : Size) : Grown j₀ (j.resize s) := by
  obtain ⟨k, b, hc⟩ := circuit_resize s j
  refine h.ids_eq ?_ (nextId_resize s j)
  rw [hc]
  simp [Circuit.ids, Function.comp_def]

/-- Whatever is done to a circuit, its ids stay apart from all others. -/
theorem preserved (j₀ : Job) : Preserved (Grown j₀) where
  note _ _ h := h.ids_eq rfl rfl
  ledger _ _ h := h.ids_eq rfl rfl
  settings _ _ _ _ h := h.ids_eq rfl rfl
  layout _ _ h := h.ids_eq rfl rfl
  conductor spec j h := by
    refine h.of_issue 1 rfl ?_ h.nodup
    intro id hid
    rcases List.mem_cons.mp hid with rfl | hid
    · exact Or.inr ⟨Nat.le_refl _, Nat.lt_succ_self _⟩
    · exact Or.inl (List.mem_cons_of_mem _ hid)
  cable spec j h := by
    refine h.of_issue 1 rfl ?_ h.nodup
    intro id hid
    rcases List.mem_cons.mp hid with rfl | hid
    · exact Or.inl List.mem_cons_self
    · rcases List.mem_cons.mp hid with rfl | hid
      · exact Or.inr ⟨Nat.le_refl _, Nat.lt_succ_self _⟩
      · exact Or.inl (List.mem_cons_of_mem _ (List.mem_cons_of_mem _ hid))
  resize s _ h := h.resize s
  refit _ h := h.refit
  moveTo r _ h := h.moveTo r

theorem meet {j₀ j : Job} (h : Grown j₀ j) (o : Occurrence) : Grown j₀ (j.meet o) := by
  cases o with
  | change c => exact (preserved j₀).apply c j h
  | _ => exact h.ids_eq rfl rfl

end Grown

end Job

namespace Circuit

theorem mem_ids_bare {load : Load} {nonlinear : Bool} {site : Site} {id : Nat}
    (h : id ∈ (bare load nonlinear site).circuit.ids) :
    site.nextId ≤ id ∧ id < site.nextId + 2 := by
  simp only [ids, bare, List.map_nil, List.mem_cons, List.not_mem_nil, or_false] at h
  omega

theorem grown_bare (load : Load) (nonlinear : Bool) (site : Site) :
    Job.Grown (bare load nonlinear site) (bare load nonlinear site) :=
  Job.Grown.refl (fun _ hid => (mem_ids_bare hid).2) List.nodup_nil

/-- A circuit that is made has new ids only. -/
theorem grown_create (load : Load) (nonlinear : Bool) (site : Site) :
    Job.Grown (bare load nonlinear site) (create load nonlinear site) :=
  create_preserved (Job.Grown.preserved _) load nonlinear site (grown_bare load nonlinear site)

theorem le_of_mem_ids_create (load : Load) (nonlinear : Bool) (site : Site) (id : Nat)
    (h : id ∈ (create load nonlinear site).circuit.ids) : site.nextId ≤ id := by
  rcases (grown_create load nonlinear site).kept_or_new id h with hold | hnew
  · exact (mem_ids_bare hold).1
  · change site.nextId + 2 ≤ id at hnew
    omega

theorem nextId_dismantle (held : List SharedRaceway) (c : Circuit) (s : Site) :
    (c.dismantle held s).1.nextId = s.nextId := by
  simp only [dismantle]
  split
  · rfl
  · split
    · rfl
    · exact Site.nextId_updateContents _ _ _

end Circuit

namespace Site

theorem Altered.nextId_le {s t : Site} {b : Bool} (h : s.Altered b t) : s.nextId ≤ t.nextId := by
  cases h with
  | issue n => exact Nat.le_add_right _ _
  | _ => exact Nat.le_refl _

end Site

namespace Installation

/-- All ids of circuits are issued, and no id is that of two items or two circuits. -/
structure Apart (s : Site) (circuits : List (Option Circuit)) : Prop where
  issued : ∀ (n : Nat) (c : Circuit), circuits[n]?.join = some c → ∀ id ∈ c.ids, id < s.nextId
  nodup : ∀ (n : Nat) (c : Circuit), circuits[n]?.join = some c → (c.items.map Item.id).Nodup
  disjoint : ∀ (m n : Nat) (c d : Circuit), m ≠ n → circuits[m]?.join = some c →
    circuits[n]?.join = some d → ∀ id ∈ c.ids, id ∉ d.ids

namespace Apart

theorem empty : Apart {} [] where
  issued _ _ h := by cases h
  nodup _ _ h := by cases h
  disjoint _ _ _ _ _ h := by cases h

/-- A job may be started on any circuit that stands. -/
theorem grown {s : Site} {circuits : List (Option Circuit)} (h : Apart s circuits) {n : Nat}
    {c : Circuit} (hc : circuits[n]?.join = some c) : Job.Grown ⟨c, s, []⟩ ⟨c, s, []⟩ :=
  Job.Grown.refl (h.issued n c hc) (h.nodup n c hc)

theorem alter {s t : Site} {circuits : List (Option Circuit)} (h : Apart s circuits)
    (hle : s.nextId ≤ t.nextId) : Apart t circuits where
  issued n c hc id hid := Nat.lt_of_lt_of_le (h.issued n c hc id hid) hle
  nodup := h.nodup
  disjoint := h.disjoint

theorem vacate {s : Site} {circuits : List (Option Circuit)} (h : Apart s circuits) (n : Nat) :
    Apart s (circuits.set n none) where
  issued m d hd := h.issued m d (join_set_none_eq_some hd).2
  nodup m d hd := h.nodup m d (join_set_none_eq_some hd).2
  disjoint l m c d hlm hc hd :=
    h.disjoint l m c d hlm (join_set_none_eq_some hc).2 (join_set_none_eq_some hd).2

/-- A circuit may take a place among circuits that have none of its ids. -/
theorem replace {s t : Site} {circuits circuits' : List (Option Circuit)} {n : Nat} {c : Circuit}
    (h : Apart s circuits) (hle : s.nextId ≤ t.nextId) (hr : Replaced n c circuits circuits')
    (hissued : ∀ id ∈ c.ids, id < t.nextId) (hnodup : (c.items.map Item.id).Nodup)
    (hapart : ∀ m d, m ≠ n → circuits[m]?.join = some d → ∀ id ∈ d.ids, id ∉ c.ids) :
    Apart t circuits' := by
  refine ⟨?_, ?_, ?_⟩
  · intro m d hd id hid
    rcases hr.eq_or hd with ⟨_, rfl⟩ | ⟨_, hd⟩
    · exact hissued id hid
    · exact Nat.lt_of_lt_of_le (h.issued m d hd id hid) hle
  · intro m d hd
    rcases hr.eq_or hd with ⟨_, rfl⟩ | ⟨_, hd⟩
    · exact hnodup
    · exact h.nodup m d hd
  · intro l m d e hlm hd he id hid hid'
    rcases hr.eq_or hd with ⟨hl, rfl⟩ | ⟨hl, hd⟩
    · rcases hr.eq_or he with ⟨hm, _⟩ | ⟨hm, he⟩
      · exact hlm (hl.trans hm.symm)
      · exact hapart m e hm he id hid' hid
    · rcases hr.eq_or he with ⟨_, rfl⟩ | ⟨_, he⟩
      · exact hapart l d hl hd id hid hid'
      · exact h.disjoint l m d e hlm hd he id hid hid'

/-- What a job does to one circuit keeps it apart from the others. -/
theorem work {s : Site} {circuits : List (Option Circuit)} (h : Apart s circuits) {n : Nat}
    {c : Circuit} {j : Job} (hc : circuits[n]?.join = some c) (hj : Job.Grown ⟨c, s, []⟩ j) :
    Apart j.site (circuits.set n (some j.circuit)) := by
  refine h.replace hj.nextId_le (replaced_set hc _) hj.issued hj.nodup ?_
  intro m d hm hd id hid hj'
  rcases hj.kept_or_new id hj' with hold | hnew
  · exact h.disjoint m n d c hm hd hc id hid hold
  · have hlt := h.issued m d hd id hid
    change s.nextId ≤ id at hnew
    omega

theorem build {s : Site} {circuits : List (Option Circuit)} (h : Apart s circuits) (load : Load)
    (nonlinear : Bool) :
    Apart (Circuit.create load nonlinear s).site
      (circuits ++ [some (Circuit.create load nonlinear s).circuit]) := by
  have hj := Circuit.grown_create load nonlinear s
  have hle : s.nextId ≤ (Circuit.create load nonlinear s).site.nextId :=
    Nat.le_trans (Nat.le_add_right _ 2) hj.nextId_le
  refine h.replace hle (replaced_append _ _) hj.issued hj.nodup ?_
  intro m d _ hd id hid hnew
  have hlt := h.issued m d hd id hid
  have hge := Circuit.le_of_mem_ids_create load nonlinear s id hnew
  omega

theorem turn {w : Installation} {a : Action} {s : Site} {circuits : List (Option Circuit)}
    (h : Apart w.site w.circuits) (t : Turn w a s circuits) : Apart s circuits := by
  cases t with
  | rest _ => exact h
  | build load nonlinear _ => exact h.build load nonlinear
  | alter _ _ hs => exact h.alter hs.nextId_le
  | work p n c o _ _ hc _ _ _ => exact h.work hc ((h.grown hc).meet o)
  | takeDown _ _ _ held n c _ _ _ _ =>
    exact (h.vacate n).alter (Nat.le_of_eq (Circuit.nextId_dismantle held c w.site).symm)

end Apart

/-- In every installation that can be come to, the circuits stay apart by their ids. -/
theorem apart_run (actions : List Action) :
    Apart (run {} actions).site (run {} actions).circuits :=
  run_induction (P := fun w => Apart w.site w.circuits) (fun w a h => h.turn (turn_of_step w a)) {}
    actions Apart.empty

end Installation

end Raceways
