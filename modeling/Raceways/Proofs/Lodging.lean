import Raceways.Proofs.Directory

/-!
What one circuit keeps true of the raceways in its reach. If they hold its items where it runs, and
besides only items that it has nothing to do with, then this stays so whatever is done to it.
-/

namespace Raceways

namespace Job

/-! ## The raceways in reach of a job -/

/-- Every raceway in reach holds exactly the given items. -/
def Holds (j : Job) (content : Routing → Item → Prop) : Prop :=
  ∀ q c, j.within? q = some c → ∀ i, i ∈ c.toList ↔ content q i

/-- The items of the circuit, where it runs. -/
def Owns (j : Job) (q : Routing) (i : Item) : Prop :=
  j.circuit.routing = q ∧ i ∈ j.circuit.items

theorem Holds.congr {j : Job} {content content' : Routing → Item → Prop} (h : j.Holds content)
    (hc : ∀ q i, content q i ↔ content' q i) : j.Holds content' :=
  fun q c hq i => (h q c hq i).trans (hc q i)

theorem Holds.vacate {j : Job} {content : Routing → Item → Prop} (h : j.Holds content) :
    j.vacate.Holds fun q i =>
      content q i ∧ (j.circuit.routing = q → i.id ∉ j.circuit.items.map Item.id) := by
  intro q c hc i
  unfold Job.vacate at hc
  rw [within?_updateRaceway] at hc
  split at hc
  · rename_i hq
    obtain ⟨d, hd, rfl⟩ := Option.map_eq_some_iff.mp hc
    rw [Contents.mem_without, h q d hd i]
    simp [hq]
  · rename_i hq
    rw [h q c hc i]
    simp [hq]

theorem Holds.occupy {j : Job} {content : Routing → Item → Prop} (h : j.Holds content)
    (hn : (j.circuit.items.map Item.id).Nodup) :
    j.occupy.Holds fun q i =>
      j.Owns q i ∨
        content q i ∧ (j.circuit.routing = q → i.id ∉ j.circuit.items.map Item.id) := by
  intro q c hc i
  unfold Job.occupy at hc
  rw [within?_updateRaceway] at hc
  split at hc
  · rename_i hq
    obtain ⟨d, hd, rfl⟩ := Option.map_eq_some_iff.mp hc
    rw [Contents.mem_adding _ _ hn, h q d hd i]
    simp [Owns, hq]
  · rename_i hq
    rw [h q c hc i]
    simp [Owns, hq]

/-! ## What changes keep -/

/-- Items that have nothing to do with a circuit: their ids are issued, and none is one of its. -/
def Strange (j : Job) (others : Routing → Item → Prop) : Prop :=
  ∀ q i, others q i → i.id < j.site.nextId ∧ i.id ∉ j.circuit.ids

/-- The raceways hold the items of others and, where the circuit runs, its own. -/
structure Lodged (j₀ : Job) (others : Routing → Item → Prop) (j : Job) : Prop
    extends Grown j₀ j where
  holds : j.Holds fun q i => others q i ∨ j.Owns q i

namespace Lodged

variable {j₀ : Job} {others : Routing → Item → Prop}

/-- New ids are never those of others. -/
theorem not_mem_ids {j : Job} (hs : Strange j₀ others) (h : Grown j₀ j) {q : Routing} {i : Item}
    (ho : others q i) : i.id ∉ j.circuit.ids := by
  obtain ⟨hlt, hnot⟩ := hs q i ho
  intro hid
  rcases h.kept_or_new i.id hid with hold | hnew
  · exact hnot hold
  · omega

theorem not_mem_items {j : Job} (hs : Strange j₀ others) (h : Grown j₀ j) {q : Routing} {i : Item}
    (ho : others q i) : i.id ∉ j.circuit.items.map Item.id := fun hid =>
  not_mem_ids hs h ho (Circuit.mem_ids_of_mem_items hid)

theorem vacate {j : Job} (h : Lodged j₀ others j) (hs : Strange j₀ others) :
    j.vacate.Holds others := by
  refine h.holds.vacate.congr fun q i => ?_
  constructor
  · rintro ⟨ho | ⟨hq, hi⟩, hid⟩
    · exact ho
    · exact absurd (List.mem_map.mpr ⟨i, hi, rfl⟩) (hid hq)
  · intro ho
    exact ⟨Or.inl ho, fun _ => not_mem_items hs h.toGrown ho⟩

theorem owns_occupy (j : Job) : j.occupy.Owns = j.Owns := by
  unfold Owns occupy
  rw [routing_updateRaceway, items_updateRaceway]

/-- Items are brought in among those of others. -/
theorem occupy {j : Job} (hs : Strange j₀ others) (h : Grown j₀ j.occupy) (hj : j.Holds others) :
    Lodged j₀ others j.occupy := by
  have hitems : j.occupy.circuit.items = j.circuit.items := items_updateRaceway _ j
  have hn := h.nodup
  rw [hitems] at hn
  refine ⟨h, (hj.occupy hn).congr fun q i => ?_⟩
  rw [owns_occupy, or_comm]
  constructor
  · rintro (⟨ho, _⟩ | hi)
    · exact Or.inl ho
    · exact Or.inr hi
  · rintro (ho | hi)
    · refine Or.inl ⟨ho, fun _ => ?_⟩
      rw [← hitems]
      exact not_mem_items hs h ho
    · exact Or.inr hi

theorem refit {j : Job} (h : Lodged j₀ others j) (hs : Strange j₀ others) :
    Lodged j₀ others j.refit := by
  have hg := h.toGrown.refit
  have hv : j.vacate.replaceItems.Holds others := h.vacate hs
  exact ⟨hg, (occupy hs (j := j.vacate.replaceItems) (hg.ids_eq rfl rfl) hv).holds⟩

theorem moveTo {j : Job} (h : Lodged j₀ others j) (hs : Strange j₀ others) (r : Routing) :
    Lodged j₀ others (j.moveTo r) := by
  have hg := h.toGrown.moveTo r
  have hv : ({ j.vacate with circuit.routing := r } : Job).Holds others := h.vacate hs
  exact ⟨hg, (occupy hs (j := { j.vacate with circuit.routing := r }) (hg.ids_eq rfl rfl) hv).holds⟩

/-- The resized items take the place of the old ones, which have the same ids. -/
theorem resize {j : Job} (h : Lodged j₀ others j) (hs : Strange j₀ others) (s : Size) :
    Lodged j₀ others (j.resize s) := by
  have hg := h.toGrown.resize s
  generalize hk : ({ j with
    circuit.conductor.size := s
    circuit.items := j.circuit.items.map (Item.withWireSize s) } : Job) = k
  have hr : k.circuit.routing = j.circuit.routing := by rw [← hk]
  have hids : k.circuit.items.map Item.id = j.circuit.items.map Item.id := by
    rw [← hk]
    simp [Function.comp_def]
  have hholds : k.Holds fun q i => others q i ∨ j.Owns q i := by
    rw [← hk]
    exact h.holds
  have hn : (k.circuit.items.map Item.id).Nodup := by
    rw [hids]
    exact h.nodup
  have hresize : j.resize s = k.occupy := by
    rw [← hk]
    rfl
  refine ⟨hg, ?_⟩
  rw [hresize]
  refine (hholds.occupy hn).congr fun q i => ?_
  rw [owns_occupy, hids, hr, or_comm]
  constructor
  · rintro (⟨ho | ⟨hq, hi⟩, hid⟩ | hi)
    · exact Or.inl ho
    · exact absurd (List.mem_map.mpr ⟨i, hi, rfl⟩) (hid hq)
    · exact Or.inr hi
  · rintro (ho | hi)
    · exact Or.inl ⟨Or.inl ho, fun _ => not_mem_items hs h.toGrown ho⟩
    · exact Or.inr hi

/-- Whatever is done to a circuit, the raceways hold its items and those of others. -/
theorem preserved (hs : Strange j₀ others) : Preserved (Lodged j₀ others) where
  note e j h := ⟨(Grown.preserved j₀).note e j h.toGrown, h.holds⟩
  ledger l j h := ⟨(Grown.preserved j₀).ledger l j h.toGrown, h.holds⟩
  settings load wiring spread j h :=
    ⟨(Grown.preserved j₀).settings load wiring spread j h.toGrown, h.holds⟩
  layout l j h := ⟨(Grown.preserved j₀).layout l j h.toGrown, h.holds⟩
  conductor spec j h := ⟨(Grown.preserved j₀).conductor spec j h.toGrown, h.holds⟩
  cable spec j h := ⟨(Grown.preserved j₀).cable spec j h.toGrown, h.holds⟩
  resize s _ h := h.resize hs s
  refit _ h := h.refit hs
  moveTo r _ h := h.moveTo hs r

theorem meet {j : Job} (h : Lodged j₀ others j) (hs : Strange j₀ others) (o : Occurrence)
    (ho : o.overwrites = false) : Lodged j₀ others (j.meet o) := by
  have hg := h.toGrown.meet o
  cases o with
  | change c => exact (preserved hs).apply c j h
  | poke f => exact ⟨hg, h.holds⟩
  | editConduit e =>
    refine ⟨hg, fun q c hc => h.holds q c ?_⟩
    rw [← hc]
    cases q <;> rfl
  | setDistance d =>
    refine ⟨hg, fun q c hc => h.holds q c ?_⟩
    rw [← hc]
    cases q <;> rfl
  | overwrite k b => cases ho

end Lodged

/-! ## Where a circuit comes to run -/

theorem routing_report (m : Message) (j : Job) :
    (j.report m).circuit.routing = j.circuit.routing := by
  rw [circuit_report]

theorem routing_reviewPractice (j : Job) :
    j.reviewPractice.circuit.routing = j.circuit.routing :=
  congrArg (·.2.1) (lodging_reviewPractice j)

theorem routing_rederive (j : Job) : j.rederive.circuit.routing = j.circuit.routing :=
  (rederive_framed j).2

theorem routing_moveTo (r : Routing) (j : Job) : (j.moveTo r).circuit.routing = r := by
  obtain ⟨k, b, hc⟩ := circuit_moveTo r j
  rw [hc]

theorem routing_resize (s : Size) (j : Job) :
    (j.resize s).circuit.routing = j.circuit.routing := by
  obtain ⟨k, b, hc⟩ := circuit_resize s j
  rw [hc]

theorem goal_of_routingFor {t : Target Nat} {sets : Nat} {r : SharedRaceway}
    (h : t.routingFor sets = .ok (.shared r)) :
    (Occurrence.change (.route t)).goal? = some r := by
  cases t with
  | sharedConduit name =>
    cases name with
    | none => cases h
    | some n =>
      simp only [Target.routingFor] at h
      split at h <;> cases h
      rfl
  | sharedBundle name => cases name <;> cases h; rfl
  | _ => cases h

theorem routing_refitIf (w : Wiring) (j : Job) :
    (j.refitIf w).circuit.routing = j.circuit.routing := by
  simp only [refitIf]
  split
  · exact routing_refit j
  · rfl

theorem routing_respread (next : Spread → Option Spread) (j : Job) :
    (j.respread next).circuit.routing = j.circuit.routing := by
  unfold respread
  split
  · exact routing_report _ j
  · dsimp only
    split
    · rfl
    · rw [routing_rederive]
      rfl

/-- Only a request to go to a shared raceway brings a circuit into one. -/
theorem shared_of_apply {c : Change Nat} {j : Job} {r : SharedRaceway}
    (h : (j.apply c).circuit.routing = .shared r) :
    j.circuit.routing = .shared r ∨ (Occurrence.change c).goal? = some r := by
  cases c with
  | route t =>
    simp only [apply, route, routing_reviewPractice] at h
    split at h
    · rename_i q hq
      rw [routing_moveTo] at h
      rw [h] at hq
      exact Or.inr (goal_of_routingFor hq)
    · rw [giveUp, routing_moveTo] at h
      cases h
  | useWiring w =>
    simp only [apply, useWiring] at h
    split at h
    · exact Or.inl h
    · rw [routing_reviewPractice, routing_rederive] at h
      exact Or.inl h
  | replaceConductor spec =>
    rw [apply, replaceConductor, routing_refitIf] at h
    exact Or.inl h
  | replaceCable spec =>
    rw [apply, replaceCable, routing_refitIf] at h
    exact Or.inl h
  | resize s =>
    rw [apply, routing_resize] at h
    exact Or.inl h
  | setSets n =>
    simp only [apply, setSets] at h
    split at h
    · exact Or.inl h
    · split at h
      · split at h
        · rw [routing_reviewPractice, giveUp, routing_moveTo] at h
          cases h
        · rw [routing_rederive] at h
          exact Or.inl h
      · rw [routing_rederive] at h
        exact Or.inl h
  | widen => exact Or.inl (by rwa [apply, routing_respread] at h)
  | narrow => exact Or.inl (by rwa [apply, routing_respread] at h)
  | updateLoad f =>
    rw [apply, updateLoad, routing_rederive] at h
    exact Or.inl h

theorem shared_of_meet {o : Occurrence} {j : Job} {r : SharedRaceway}
    (h : (j.meet o).circuit.routing = .shared r) :
    j.circuit.routing = .shared r ∨ o.goal? = some r := by
  cases o with
  | change c => exact shared_of_apply h
  | _ => exact Or.inl h

end Job

end Raceways
