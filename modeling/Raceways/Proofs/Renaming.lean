import Raceways.Proofs.Rerouting

/-!
Renaming: the same circuits, raceways and items with other ids. What a run comes to is often settled
only up to such a renaming, since ids are issued in the order in which they are asked for. As long
as all that is in the raceways is accounted for, it is enough to rename the circuits: what is in the
raceways follows.
-/

namespace Raceways

namespace Item

/-- The same item under another id. -/
def rename (σ : Nat → Nat) (i : Item) : Item := i.withId (σ i.id)

@[simp] theorem id_rename (σ : Nat → Nat) (i : Item) : (i.rename σ).id = σ i.id := id_withId _ i

@[simp] theorem role_rename (σ : Nat → Nat) (i : Item) : (i.rename σ).role = i.role :=
  role_withId _ i

theorem rename_congr {σ τ : Nat → Nat} {i : Item} (h : σ i.id = τ i.id) :
    i.rename σ = i.rename τ := by
  unfold rename
  rw [h]

theorem rename_of_fixed {σ : Nat → Nat} {i : Item} (h : σ i.id = i.id) : i.rename σ = i := by
  unfold rename
  rw [h]
  cases i <;> rfl

theorem rename_rename (σ τ : Nat → Nat) (i : Item) :
    (i.rename σ).rename τ = i.rename (τ ∘ σ) := by
  cases i <;> rfl

theorem withWireSize_rename (σ : Nat → Nat) (s : Size) (i : Item) :
    (i.rename σ).withWireSize s = (i.withWireSize s).rename σ := by
  cases i <;> rfl

/-- A new item after a pattern does not depend on the id of the pattern. -/
theorem anew_rename (σ : Nat → Nat) (id : Nat) (role : Option Role) (i : Item) :
    (i.rename σ).anew (σ id) role = (i.anew id role).rename σ := by
  cases i <;> rfl

end Item

namespace Contents

def rename (σ : Nat → Nat) (c : Contents) : Contents :=
  Contents.adding (c.toList.map (Item.rename σ)) Ascending.empty

theorem mem_rename {σ : Nat → Nat} (hσ : Function.Injective σ) (c : Contents) (i : Item) :
    i ∈ (c.rename σ).toList ↔ ∃ a ∈ c.toList, a.rename σ = i := by
  have hids : (c.toList.map (Item.rename σ)).map Item.id = c.ids.map σ := by
    simp [ids, Function.comp_def]
  have hn : ((c.toList.map (Item.rename σ)).map Item.id).Nodup := by
    rw [hids]
    exact c.nodup_ids.map hσ
  unfold rename
  rw [mem_adding _ _ hn, List.mem_map]
  exact or_iff_left fun h => List.not_mem_nil h.1

end Contents

namespace Circuit

def rename (σ : Nat → Nat) (c : Circuit) : Circuit :=
  { c with
    conductor.id := σ c.conductor.id
    cable.id := σ c.cable.id
    items := c.items.map (Item.rename σ)
    conduit := c.conduit.withContents (c.conduit.contents.rename σ)
    bundle := c.bundle.withContents (c.bundle.contents.rename σ) }

/-- A circuit without what is in its private raceways. -/
def unhoused (c : Circuit) : Circuit :=
  { c with
    conduit := c.conduit.withContents Ascending.empty
    bundle := c.bundle.withContents Ascending.empty }

theorem eq_of_unhoused_eq {c d : Circuit} (h : c.unhoused = d.unhoused)
    (hconduit : c.conduit.contents = d.conduit.contents)
    (hbundle : c.bundle.contents = d.bundle.contents) : c = d := by
  have hc : c = { c.unhoused with
    conduit := c.unhoused.conduit.withContents c.conduit.contents
    bundle := c.unhoused.bundle.withContents c.bundle.contents } := rfl
  rw [hc, h, hconduit, hbundle]
  rfl

/-- A renamed circuit runs where it did, with its items under other ids. -/
theorem where_of_unhoused_eq {c d : Circuit} {σ : Nat → Nat}
    (h : d.unhoused = c.unhoused.rename σ) :
    d.routing = c.routing ∧ d.items = c.items.map (Item.rename σ) := by
  change d.unhoused.routing = _ ∧ d.unhoused.items = _
  rw [h]
  exact ⟨rfl, rfl⟩

theorem pattern_rename (σ : Nat → Nat) (c : Circuit) :
    (c.rename σ).pattern = c.pattern.rename σ := by
  unfold pattern
  cases h : c.wiring <;> simp only [rename, h] <;> rfl

/-- Of a renaming only the ids of the circuit matter. -/
theorem rename_congr {σ τ : Nat → Nat} {c : Circuit} (h : ∀ id ∈ c.ids, σ id = τ id) :
    c.unhoused.rename σ = c.unhoused.rename τ := by
  have hitems : c.items.map (Item.rename σ) = c.items.map (Item.rename τ) :=
    List.map_congr_left fun i hi => Item.rename_congr (h i.id (item_id_mem hi))
  have hconductor : σ c.conductor.id = τ c.conductor.id := h _ List.mem_cons_self
  have hcable : σ c.cable.id = τ c.cable.id := h _ (List.mem_cons_of_mem _ List.mem_cons_self)
  simp only [rename, unhoused, hitems, hconductor, hcable]
  rfl

theorem rename_rename (σ τ : Nat → Nat) (c : Circuit) :
    (c.unhoused.rename σ).rename τ = c.unhoused.rename (τ ∘ σ) := by
  have hitems : (c.items.map (Item.rename σ)).map (Item.rename τ) =
      c.items.map (Item.rename (τ ∘ σ)) := by
    rw [List.map_map]
    exact List.map_congr_left fun i _ => Item.rename_rename σ τ i
  simp only [rename, unhoused, hitems]
  rfl

theorem rename_of_fixed {σ : Nat → Nat} {c : Circuit} (h : ∀ id ∈ c.ids, σ id = id) :
    c.unhoused.rename σ = c.unhoused := by
  rw [rename_congr (τ := id) h]
  have hitems : c.items.map (Item.rename id) = c.items :=
    (List.map_congr_left fun i _ => Item.rename_of_fixed rfl).trans (List.map_id _)
  simp only [rename, unhoused, hitems]
  rfl

/-- The planned items of a renamed circuit are the planned items, renamed. -/
theorem plannedItems_rename {σ : Nat → Nat} {c : Circuit} {next next' : Nat}
    (h : ∀ i < c.plan.length - 1, σ (next + i) = next' + i) :
    (c.rename σ).plannedItems next' = (c.plannedItems next).map (Item.rename σ) := by
  unfold plannedItems
  rw [pattern_rename, List.map_cons]
  congr 1
  apply List.ext_getElem
  · simp
    rfl
  · intro i h₁ h₂
    have hi : i < c.plan.length - 1 := by simpa using h₂
    simp only [List.getElem_map, List.getElem_mapIdx]
    rw [← h i hi]
    exact Item.anew_rename σ (next + i) _ c.pattern

end Circuit

namespace Site

def rename (σ : Nat → Nat) (s : Site) : Site :=
  { s with
    conduits := s.conduits.map fun k => k.withContents (k.contents.rename σ)
    bundles := s.bundles.map fun b => b.withContents (b.contents.rename σ) }

theorem contents?_rename (σ : Nat → Nat) (s : Site) (r : SharedRaceway) :
    (s.rename σ).contents? r = (s.contents? r).map (Contents.rename σ) := by
  cases r <;> simp [rename, contents?, Function.comp_def, Conduit.withContents, Bundle.withContents]

theorem fittings?_rename (σ : Nat → Nat) (s : Site) (r : SharedRaceway) :
    (s.rename σ).fittings? r = s.fittings? r := by
  cases r <;> simp [rename, fittings?, Function.comp_def, Conduit.withContents, Bundle.withContents]

end Site

namespace Installation

/-- The installation with other ids for the items and patterns of its circuits. -/
def rename (σ : Nat → Nat) (w : Installation) : Installation :=
  { w with
    site := w.site.rename σ
    circuits := w.circuits.map (Option.map (Circuit.rename σ)) }

/-- The installation with another id to be issued next. -/
def withNextId (id : Nat) (w : Installation) : Installation := { w with site.nextId := id }

theorem circuit?_rename (σ : Nat → Nat) (w : Installation) (n : Nat) :
    (w.rename σ).circuit? n = (w.circuit? n).map (Circuit.rename σ) := by
  unfold circuit? rename
  rw [List.getElem?_map]
  rcases w.circuits[n]? with _ | _ | c <;> rfl

/-- The circuits of a site are known by their numbers. -/
theorem ext_circuits {cs ds : List (Option Circuit)} (hlen : cs.length = ds.length)
    (h : ∀ n : Nat, cs[n]?.join = ds[n]?.join) : cs = ds := by
  refine List.ext_getElem hlen fun n hc hd => ?_
  have hn := h n
  rwa [List.getElem?_eq_getElem hc, List.getElem?_eq_getElem hd, Option.join_some,
    Option.join_some] at hn

/-- The second installation is the first one with other ids, as far as its circuits go. -/
structure Renamed (σ : Nat → Nat) (v u : Installation) : Prop where
  circuits : ∀ n, (u.circuit? n).map Circuit.unhoused =
    (v.circuit? n).map fun c => c.unhoused.rename σ
  fittings : ∀ r, u.site.fittings? r = v.site.fittings? r
  rest : u = { v with
    site := u.site
    circuits := u.circuits }
  length : u.circuits.length = v.circuits.length

namespace Renamed

variable {σ : Nat → Nat} {v u : Installation}

theorem exists_circuit (h : Renamed σ v u) {n : Nat} {d : Circuit} (hd : u.circuit? n = some d) :
    ∃ c, v.circuit? n = some c ∧ d.unhoused = c.unhoused.rename σ := by
  have hn := h.circuits n
  rw [hd] at hn
  obtain ⟨c, hc, he⟩ := Option.map_eq_some_iff.mp hn.symm
  exact ⟨c, hc, he.symm⟩

theorem exists_circuit' (h : Renamed σ v u) {n : Nat} {c : Circuit} (hc : v.circuit? n = some c) :
    ∃ d, u.circuit? n = some d ∧ d.unhoused = c.unhoused.rename σ := by
  have hn := h.circuits n
  rw [hc] at hn
  exact Option.map_eq_some_iff.mp hn

theorem present_iff (h : Renamed σ v u) (r : SharedRaceway) (i : Item) :
    Present u.circuits r i ↔ ∃ a, Present v.circuits r a ∧ a.rename σ = i := by
  constructor
  · rintro ⟨n, d, hd, hr, hi⟩
    obtain ⟨c, hc, he⟩ := h.exists_circuit hd
    obtain ⟨hrouting, hitems⟩ := Circuit.where_of_unhoused_eq he
    rw [hitems] at hi
    obtain ⟨a, ha, rfl⟩ := List.mem_map.mp hi
    exact ⟨a, ⟨n, c, hc, hrouting.symm.trans hr, ha⟩, rfl⟩
  · rintro ⟨a, ⟨n, c, hc, hr, ha⟩, rfl⟩
    obtain ⟨d, hd, he⟩ := h.exists_circuit' hc
    obtain ⟨hrouting, hitems⟩ := Circuit.where_of_unhoused_eq he
    refine ⟨n, d, hd, hrouting.trans hr, ?_⟩
    rw [hitems]
    exact List.mem_map.mpr ⟨a, ha, rfl⟩

/-- If all is accounted for, the shared raceways hold the same items under other ids. -/
theorem contents?_eq (h : Renamed σ v u) (hσ : Function.Injective σ)
    {left : SharedRaceway → Item → Prop} (hv : Accounted v.site v.circuits left)
    (hu : Accounted u.site u.circuits left) (hleft : ∀ r i, left r i → σ i.id = i.id)
    (r : SharedRaceway) : u.site.contents? r = (v.site.contents? r).map (Contents.rename σ) := by
  have hthere : (u.site.contents? r).isSome = (v.site.contents? r).isSome := by
    rw [← Site.isSome_fittings?, h.fittings r, Site.isSome_fittings?]
  cases hk : v.site.contents? r with
  | none =>
    rw [hk] at hthere
    exact Option.isNone_iff_eq_none.mp (by simpa using hthere)
  | some k =>
    cases hl : u.site.contents? r with
    | none => simp [hk, hl] at hthere
    | some l =>
      refine congrArg some (Ascending.ext_mem fun i => ?_)
      rw [hu.shared r l hl i, Contents.mem_rename hσ, h.present_iff]
      constructor
      · rintro (⟨a, ha, rfl⟩ | hi)
        · exact ⟨a, (hv.shared r k hk a).mpr (Or.inl ha), rfl⟩
        · exact ⟨i, (hv.shared r k hk i).mpr (Or.inr hi), Item.rename_of_fixed (hleft r i hi)⟩
      · rintro ⟨a, ha, rfl⟩
        rcases (hv.shared r k hk a).mp ha with ha | ha
        · exact Or.inl ⟨a, ha, rfl⟩
        · rw [Item.rename_of_fixed (hleft r a ha)]
          exact Or.inr ha

/-- A private raceway that holds the items of its circuit, or nothing, holds them renamed. -/
theorem private_eq (hσ : Function.Injective σ) {c d : Circuit} {k l : Contents} {q : Routing}
    (he : d.unhoused = c.unhoused.rename σ)
    (hk : ∀ i, i ∈ k.toList ↔ c.routing = q ∧ i ∈ c.items)
    (hl : ∀ i, i ∈ l.toList ↔ d.routing = q ∧ i ∈ d.items) : l = k.rename σ := by
  obtain ⟨hrouting, hitems⟩ := Circuit.where_of_unhoused_eq he
  refine Ascending.ext_mem fun i => ?_
  rw [hl i, Contents.mem_rename hσ, hrouting, hitems, List.mem_map]
  constructor
  · rintro ⟨hr, a, ha, rfl⟩
    exact ⟨a, (hk a).mpr ⟨hr, ha⟩, rfl⟩
  · rintro ⟨a, ha, rfl⟩
    obtain ⟨hr, ha⟩ := (hk a).mp ha
    exact ⟨hr, a, ha, rfl⟩

/-- If all is accounted for, the whole installation is the same under other ids, apart from which id
is issued next. -/
theorem eq_rename (h : Renamed σ v u) (hσ : Function.Injective σ)
    {left : SharedRaceway → Item → Prop} (hv : Accounted v.site v.circuits left)
    (hu : Accounted u.site u.circuits left) (hleft : ∀ r i, left r i → σ i.id = i.id) :
    u = (v.rename σ).withNextId u.site.nextId := by
  have hcircuits : u.circuits = v.circuits.map (Option.map (Circuit.rename σ)) := by
    refine ext_circuits (by rw [h.length, List.length_map]) fun n => ?_
    refine Eq.trans ?_ (circuit?_rename σ v n).symm
    change u.circuit? n = _
    cases hd : u.circuit? n with
    | none =>
      have hn := h.circuits n
      rw [hd] at hn
      rw [Option.map_eq_none_iff.mp hn.symm]
      rfl
    | some d =>
      obtain ⟨c, hc, he⟩ := h.exists_circuit hd
      rw [hc]
      refine congrArg some (Circuit.eq_of_unhoused_eq he ?_ ?_)
      · exact private_eq hσ he (hv.conduit n c hc) (hu.conduit n d hd)
      · exact private_eq hσ he (hv.bundle n c hc) (hu.bundle n d hd)
  have hsite : u.site = { v.site.rename σ with nextId := u.site.nextId } := by
    refine Site.ext_raceway? (fun r => (Site.raceway?_eq_iff _ _ r).mpr ⟨?_, ?_⟩) rfl
    · rw [h.fittings r]
      exact (Site.fittings?_rename σ v.site r).symm
    · rw [h.contents?_eq hσ hv hu hleft r]
      exact (Site.contents?_rename σ v.site r).symm
  rw [h.rest, hcircuits, hsite]
  rfl

end Renamed

theorem rename_id {v : Installation} {left : SharedRaceway → Item → Prop}
    (h : Accounted v.site v.circuits left) : v.rename id = v := by
  have hsame : Renamed id v v := by
    refine ⟨fun n => ?_, fun _ => rfl, rfl, rfl⟩
    cases v.circuit? n with
    | none => rfl
    | some c => exact congrArg some (Circuit.rename_of_fixed fun _ _ => rfl).symm
  exact (hsame.eq_rename Function.injective_id h h fun _ _ _ => rfl).symm

/-! ## Runs of changes -/

/-- Only the taking down of circuits leaves anything behind. -/
theorem leftBehind_eq_nil {actions : List Action} (h : ∀ a ∈ actions, ∀ slot k b,
    a ≠ .dropCircuit slot k b) (w : Installation) (r : SharedRaceway) :
    w.leftBehind actions r = [] := by
  induction actions generalizing w with
  | nil => rfl
  | cons a actions ih =>
    have hnone : w.leftBy a r = [] := by
      cases a with
      | dropCircuit slot k b => exact absurd rfl (h _ List.mem_cons_self slot k b)
      | _ => rfl
    rw [leftBehind, hnone, List.nil_append]
    exact ih (fun a ha => h a (List.mem_cons_of_mem _ ha)) _

/-- A run that takes no circuit down leaves as much behind as there was. -/
theorem accounted_run_of_kept (actions later : List Action)
    (ha : ∀ a ∈ actions, a.overwrites = false) (hlater : ∀ a ∈ later, a.overwrites = false)
    (hkept : ∀ a ∈ later, ∀ slot k b, a ≠ .dropCircuit slot k b) :
    let v := (run {} actions).run later
    Accounted v.site v.circuits fun r i => i ∈ leftBehind {} actions r :=
  (accounted_run _ _ (charted_run actions) (accounted_of_run actions ha) later hlater).congr
    fun r i => by simp [leftBehind_eq_nil hkept]

end Installation

end Raceways
