import Raceways.Proofs.Interference
import Raceways.Proofs.Shape

/-!
How long an id is in use. Inside one circuit the ids of the two patterns tell them from each other
and from all items but the first, which is the pattern itself. An id that is no longer in use is
never used again.
-/

namespace Raceways

namespace Circuit

/-- The two patterns are told apart by their ids, and the items after the first from both. -/
structure Marked (c : Circuit) : Prop where
  patterns : c.conductor.id ≠ c.cable.id
  others : ∀ id ∈ (c.items.map Item.id).tail, id ≠ c.conductor.id ∧ id ≠ c.cable.id

theorem Marked.of_ids_eq {c d : Circuit} (h : c.Marked) (hids : d.ids = c.ids) : d.Marked := by
  simp only [ids, List.cons.injEq] at hids
  obtain ⟨hconductor, hcable, hitems⟩ := hids
  refine ⟨?_, ?_⟩
  · rw [hconductor, hcable]
    exact h.patterns
  · rw [hconductor, hcable, hitems]
    exact h.others

theorem conductor_id_mem (c : Circuit) : c.conductor.id ∈ c.ids := List.mem_cons_self

theorem cable_id_mem (c : Circuit) : c.cable.id ∈ c.ids :=
  List.mem_cons_of_mem _ List.mem_cons_self

theorem tail_subset_ids {c : Circuit} {id : Nat} (h : id ∈ (c.items.map Item.id).tail) :
    id ∈ c.ids :=
  mem_ids_of_mem_items (List.mem_of_mem_tail h)

end Circuit

namespace Job

/-- What becomes of the ids of a circuit, the marks of its patterns included. -/
structure Marked (j₀ j : Job) : Prop extends Grown j₀ j where
  marked : j.circuit.Marked

namespace Marked

variable {j₀ j : Job}

/-- The new items after the first have ids that were not issued before. -/
theorem refit (h : Marked j₀ j) : Marked j₀ j.refit := by
  obtain ⟨k, b, hc⟩ := circuit_refit j
  refine ⟨h.toGrown.refit, ?_⟩
  rw [hc]
  refine ⟨h.marked.patterns, fun id hid => ?_⟩
  have hconductor := h.issued _ j.circuit.conductor_id_mem
  have hcable := h.issued _ j.circuit.cable_id_mem
  rw [Circuit.map_id_plannedItems, List.tail_cons, List.mem_range'_1] at hid
  change id ≠ j.circuit.conductor.id ∧ id ≠ j.circuit.cable.id
  omega

theorem moveTo (h : Marked j₀ j) (r : Routing) : Marked j₀ (j.moveTo r) := by
  obtain ⟨k, b, hc⟩ := circuit_moveTo r j
  refine ⟨h.toGrown.moveTo r, h.marked.of_ids_eq ?_⟩
  rw [hc]
  rfl

theorem resize (h : Marked j₀ j) (s : Size) : Marked j₀ (j.resize s) := by
  obtain ⟨k, b, hc⟩ := circuit_resize s j
  refine ⟨h.toGrown.resize s, h.marked.of_ids_eq ?_⟩
  rw [hc]
  simp [Circuit.ids, Function.comp_def]

/-- A new pattern has an id that was not issued before. -/
theorem preserved (j₀ : Job) : Preserved (Marked j₀) where
  note e j h := ⟨(Grown.preserved j₀).note e j h.toGrown, h.marked.of_ids_eq rfl⟩
  ledger l j h := ⟨(Grown.preserved j₀).ledger l j h.toGrown, h.marked.of_ids_eq rfl⟩
  settings load wiring spread j h :=
    ⟨(Grown.preserved j₀).settings load wiring spread j h.toGrown, h.marked.of_ids_eq rfl⟩
  layout l j h := ⟨(Grown.preserved j₀).layout l j h.toGrown, h.marked.of_ids_eq rfl⟩
  conductor spec j h := by
    refine ⟨(Grown.preserved j₀).conductor spec j h.toGrown, ?_, fun id hid => ?_⟩
    · exact Nat.ne_of_gt (h.issued _ j.circuit.cable_id_mem)
    · exact ⟨Nat.ne_of_lt (h.issued id (Circuit.tail_subset_ids hid)), (h.marked.others id hid).2⟩
  cable spec j h := by
    refine ⟨(Grown.preserved j₀).cable spec j h.toGrown, ?_, fun id hid => ?_⟩
    · exact Nat.ne_of_lt (h.issued _ j.circuit.conductor_id_mem)
    · exact ⟨(h.marked.others id hid).1, Nat.ne_of_lt (h.issued id (Circuit.tail_subset_ids hid))⟩
  resize s _ h := h.resize s
  refit _ h := h.refit
  moveTo r _ h := h.moveTo r

theorem meet (h : Marked j₀ j) (o : Occurrence) : Marked j₀ (j.meet o) := by
  cases o with
  | change c => exact (preserved j₀).apply c j h
  | _ => exact ⟨h.toGrown.meet _, h.marked.of_ids_eq rfl⟩

end Marked

end Job

namespace Circuit

theorem marked_create (load : Load) (nonlinear : Bool) (site : Site) :
    (create load nonlinear site).circuit.Marked := by
  have hbare : Job.Marked (bare load nonlinear site) (bare load nonlinear site) :=
    ⟨grown_bare load nonlinear site, Nat.succ_ne_self _, fun _ h => nomatch h⟩
  exact (create_preserved (Job.Marked.preserved _) load nonlinear site hbare).marked

end Circuit

namespace Installation

/-- The ids that are in use: those of the patterns and items of all circuits that stand. -/
def ids (w : Installation) : List Nat := w.circuits.flatMap fun c => (c.map Circuit.ids).getD []

theorem mem_ids_iff (w : Installation) (id : Nat) :
    id ∈ w.ids ↔ ∃ n c, w.circuit? n = some c ∧ id ∈ c.ids := by
  unfold ids circuit?
  rw [List.mem_flatMap]
  constructor
  · rintro ⟨x, hx, hid⟩
    cases x with
    | none => cases hid
    | some c =>
      obtain ⟨n, hn⟩ := List.mem_iff_getElem?.mp hx
      exact ⟨n, c, by rw [hn]; rfl, hid⟩
  · rintro ⟨n, c, hc, hid⟩
    have hn := Option.join_eq_some_iff.mp hc
    exact ⟨some c, List.mem_of_getElem? hn, hid⟩

theorem marked_turn {w : Installation} {a : Action} {s : Site} {circuits : List (Option Circuit)}
    (t : Turn w a s circuits) (h : Apart w.site w.circuits)
    (hm : ∀ n c, w.circuit? n = some c → c.Marked) (n : Nat) (c : Circuit)
    (hc : circuits[n]?.join = some c) : c.Marked := by
  cases t with
  | rest _ => exact hm n c hc
  | build load nonlinear _ =>
    rcases (replaced_append _ _).eq_or hc with ⟨_, rfl⟩ | ⟨_, hc⟩
    · exact Circuit.marked_create load nonlinear w.site
    · exact hm n c hc
  | alter _ _ _ => exact hm n c hc
  | work p m d o _ _ hd _ _ _ =>
    rcases (replaced_set hd _).eq_or hc with ⟨_, rfl⟩ | ⟨_, hc⟩
    · have hj : Job.Marked ⟨d, w.site, []⟩ ⟨d, w.site, []⟩ := ⟨h.grown hd, hm m d hd⟩
      exact (hj.meet o).marked
    · exact hm n c hc
  | takeDown _ _ _ _ _ _ _ _ _ _ => exact hm n c (join_set_none_eq_some hc).2

/-- In every installation that can be come to, the patterns of a circuit are told apart. -/
theorem marked_run (actions : List Action) (n : Nat) (c : Circuit)
    (hc : (run {} actions).circuit? n = some c) : c.Marked := by
  have h := run_induction
    (P := fun w => Apart w.site w.circuits ∧ ∀ n c, w.circuit? n = some c → c.Marked)
    (fun w a hw =>
      ⟨hw.1.turn (turn_of_step w a), fun m d hd => marked_turn (turn_of_step w a) hw.1 hw.2 m d hd⟩)
    {} actions ⟨.empty, fun _ _ h => by cases h⟩
  exact h.2 n c hc

/-! ## Ids over time -/

theorem nextId_le_turn {w : Installation} {a : Action} {s : Site}
    {circuits : List (Option Circuit)} (t : Turn w a s circuits) (h : Apart w.site w.circuits) :
    w.site.nextId ≤ s.nextId := by
  cases t with
  | rest _ => exact Nat.le_refl _
  | build load nonlinear _ =>
    exact Nat.le_trans (Nat.le_add_right _ 2) (Circuit.grown_create load nonlinear w.site).nextId_le
  | alter _ _ hs => exact hs.nextId_le
  | work _ n c o _ _ hc _ _ _ => exact ((h.grown hc).meet o).nextId_le
  | takeDown _ _ _ held _ c _ _ _ _ =>
    exact Nat.le_of_eq (Circuit.nextId_dismantle held c w.site).symm

/-- The ids of circuits after an action were in use before it or are issued by it. -/
theorem kept_or_new_of_turn {w : Installation} {a : Action} {s : Site}
    {circuits : List (Option Circuit)} (t : Turn w a s circuits) (h : Apart w.site w.circuits)
    {n : Nat} {c : Circuit} (hc : circuits[n]?.join = some c) {id : Nat} (hid : id ∈ c.ids) :
    id ∈ w.ids ∨ w.site.nextId ≤ id := by
  have hkept : ∀ m d, w.circuit? m = some d → id ∈ d.ids → id ∈ w.ids ∨ w.site.nextId ≤ id :=
    fun m d hd hid => Or.inl ((w.mem_ids_iff id).mpr ⟨m, d, hd, hid⟩)
  cases t with
  | rest _ => exact hkept n c hc hid
  | build load nonlinear _ =>
    rcases (replaced_append _ _).eq_or hc with ⟨_, rfl⟩ | ⟨_, hc⟩
    · exact Or.inr (Circuit.le_of_mem_ids_create load nonlinear w.site id hid)
    · exact hkept n c hc hid
  | alter _ _ _ => exact hkept n c hc hid
  | work p m d o _ _ hd _ _ _ =>
    rcases (replaced_set hd _).eq_or hc with ⟨_, rfl⟩ | ⟨_, hc⟩
    · rcases ((h.grown hd).meet o).kept_or_new id hid with hold | hnew
      · exact hkept m d hd hold
      · exact Or.inr hnew
    · exact hkept n c hc hid
  | takeDown _ _ _ _ _ _ _ _ _ _ => exact hkept n c (join_set_none_eq_some hc).2 hid

/-- Over any run no id comes into use but by being issued. -/
theorem kept_or_new_of_run (w : Installation) (actions : List Action)
    (h : Apart w.site w.circuits) :
    w.site.nextId ≤ (w.run actions).site.nextId ∧
      ∀ id ∈ (w.run actions).ids, id ∈ w.ids ∨ w.site.nextId ≤ id := by
  induction actions generalizing w with
  | nil => exact ⟨Nat.le_refl _, fun id hid => Or.inl hid⟩
  | cons a actions ih =>
    have t := turn_of_step w a
    have hle := nextId_le_turn t h
    obtain ⟨hrun, hids⟩ := ih (w.step a).after (h.turn t)
    rw [run_cons]
    refine ⟨Nat.le_trans hle hrun, fun id hid => ?_⟩
    rcases hids id hid with hstep | hnew
    · obtain ⟨n, c, hc, hid⟩ := ((w.step a).after.mem_ids_iff id).mp hstep
      exact kept_or_new_of_turn t h hc hid
    · exact Or.inr (Nat.le_trans hle hnew)

/-- **Identity.** After any run, whatever conductors and cables were given as new patterns, no two
circuits have an id in common. In one circuit the items have different ids, the first that of the
pattern in use and no other that of a pattern, and the two patterns have different ids. Every id
in use has been issued, and one that has come out of use never comes back. -/
theorem ids_disjoint_and_not_reused (actions : List Action) :
    let w := run {} actions
    (∀ m n c d, m ≠ n → w.circuit? m = some c → w.circuit? n = some d → ∀ id ∈ c.ids, id ∉ d.ids) ∧
      (∀ n c, w.circuit? n = some c →
        (c.items.map Item.id).Nodup ∧ c.conductor.id ≠ c.cable.id ∧
          c.items.head?.map Item.id = some c.pattern.id ∧
          ∀ i ∈ c.items.tail, i.id ≠ c.conductor.id ∧ i.id ≠ c.cable.id) ∧
      (∀ id ∈ w.ids, 0 < id ∧ id < w.site.nextId) ∧
      ∀ between later, ∀ id ∈ w.ids, id ∉ (w.run between).ids →
        id ∉ ((w.run between).run later).ids := by
  intro w
  have h : Apart w.site w.circuits := apart_run actions
  have hissued : ∀ id ∈ w.ids, id < w.site.nextId := by
    intro id hid
    obtain ⟨n, c, hc, hid⟩ := (w.mem_ids_iff id).mp hid
    exact h.issued n c hc id hid
  refine ⟨h.disjoint, fun n c hc => ⟨h.nodup n c hc, ?_, ?_, fun i hi => ?_⟩,
    fun id hid => ⟨?_, hissued id hid⟩, ?_⟩
  · exact (marked_run actions n c hc).patterns
  · obtain ⟨next, hm⟩ := (lived_of_run actions n c hc).shaped.made
    rw [hm]
    rfl
  · have hid : i.id ∈ (c.items.map Item.id).tail := by
      rw [← List.map_tail]
      exact List.mem_map.mpr ⟨i, hi, rfl⟩
    exact (marked_run actions n c hc).others i.id hid
  · rcases (kept_or_new_of_run {} actions .empty).2 id hid with hnone | hnew
    · cases hnone
    · exact hnew
  · intro between later id hid hgone hback
    have hv : Apart (w.run between).site (w.run between).circuits := by
      rw [← run_append]
      exact apart_run (actions ++ between)
    have hlt := Nat.lt_of_lt_of_le (hissued id hid) (kept_or_new_of_run w between h).1
    rcases (kept_or_new_of_run _ later hv).2 id hback with hin | hnew
    · exact hgone hin
    · omega

/-- A circuit gets a new pattern like that of its neighbour. Its old id stays out of use, also when
the neighbour gets a new pattern and another circuit is made. -/
theorem replaced_id_not_reused :
    let w := run {} neighbours
    let v := w.run [.change (.loose 1) (.replaceConductor default)]
    6 ∈ w.ids ∧ 6 ∉ v.ids ∧
      6 ∉ (v.run [.change (.loose 0) (.replaceConductor default),
        .newCircuit { system := .ln120, ampacity := 16, verdict := some true } false
          true]).ids := by
  have hused : 6 ∈ (run {} neighbours).ids := by decide
  have hgone : 6 ∉ ((run {} neighbours).run
    [.change (.loose 1) (.replaceConductor default)]).ids := by decide
  exact ⟨hused, hgone, (ids_disjoint_and_not_reused neighbours).2.2.2 _ _ 6 hused hgone⟩

end Installation

end Raceways
