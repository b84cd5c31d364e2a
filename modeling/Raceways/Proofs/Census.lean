import Mathlib.Algebra.GroupWithZero.Nat
import Mathlib.Data.List.Nodup
import Raceways.Proofs.Renaming

/-!
How much is in the raceways. The number of items in a raceway and the number of current-carrying
conductors among them are sums over the circuits that run through it, and what a circuit adds to
them is known from its spread and its layout.
-/

namespace Raceways

/-! ## What a circuit adds -/

theorem Role.carryingCount_eq_sum (roles : List Role) :
    carryingCount roles = (roles.map fun r => r.isCarrying.toNat).sum := by
  unfold carryingCount
  induction roles with
  | nil => rfl
  | cons r roles ih =>
    rw [List.countP_cons, ih, List.map_cons, List.sum_cons, Nat.add_comm]
    cases r.isCarrying <;> rfl

namespace Circuit

/-- The number of sets that have items in the raceway of the circuit: each set has a cable there, or
those of one conduit have their conductors. -/
def setsWithin (c : Circuit) : Nat :=
  match c.wiring with
  | .conductors => c.spread.setsPerConduit
  | .cables => c.spread.sets

/-- The number of items that the circuit adds to its raceway. -/
def filling (c : Circuit) : Nat :=
  match c.wiring with
  | .conductors => c.setsWithin * c.layout.size
  | .cables => c.setsWithin

/-- The number of current-carrying conductors that the circuit adds to its raceway. -/
def carrying (c : Circuit) : Nat := c.setsWithin * Role.carryingCount c.layout.roles

theorem Shaped.length_items {c : Circuit} (h : c.Shaped) : c.items.length = c.filling := by
  have hshape := h.inShape
  unfold InShape at hshape
  unfold filling setsWithin
  cases hw : c.wiring with
  | conductors =>
    simp only [hw] at hshape
    have hlength := congrArg List.length hshape.1
    simpa [Layout.roles_length] using hlength
  | cables =>
    simp only [hw] at hshape
    exact hshape.1

theorem Shaped.sum_carryingCount {c : Circuit} (h : c.Shaped) :
    (c.items.map Item.carryingCount).sum = c.carrying := by
  have hshape := h.inShape
  unfold InShape at hshape
  unfold carrying setsWithin
  cases hw : c.wiring with
  | conductors =>
    simp only [hw] at hshape
    obtain ⟨hroles, hlike, -⟩ := hshape
    let count : Option Role → Nat := fun r => (r.map fun r => r.isCarrying.toNat).getD 0
    have hcount : c.items.map Item.carryingCount = (c.items.map Item.role).map count := by
      rw [List.map_map]
      refine List.map_congr_left fun i hi => ?_
      obtain ⟨id, role, rfl⟩ := hlike i hi
      rfl
    rw [hcount, hroles, List.map_map, Role.carryingCount_eq_sum]
    simp [List.sum_flatten, Function.comp_def, count]
  | cables =>
    simp only [hw] at hshape
    obtain ⟨hlength, hlike, -⟩ := hshape
    have hcount : c.items.map Item.carryingCount =
        c.items.map fun _ => Role.carryingCount c.layout.roles := by
      refine List.map_congr_left fun i hi => ?_
      obtain ⟨id, rfl⟩ := hlike i hi
      exact congrArg Role.carryingCount h.inside
    rw [hcount, List.map_const', hlength]
    simp

/-- Over all conduits of a circuit there are the conductors of all its sets. -/
theorem Shaped.conduits_mul_length {c : Circuit} (h : c.Shaped) (hw : c.wiring = .conductors) :
    c.spread.conduits * c.items.length = c.spread.sets * c.layout.size := by
  have hlength := h.length_items
  simp only [filling, setsWithin, hw] at hlength
  rw [hlength, ← Nat.mul_assoc, h.even.product]

end Circuit

/-! ## What is in a raceway -/

namespace Contents

/-- Contents are counted by counting the same items in any order. -/
theorem counts_of_perm {k : Contents} {items : List Item} (h : k.toList.Perm items) :
    k.size = items.length ∧ k.carryingCount = (items.map Item.carryingCount).sum := by
  refine ⟨h.length_eq, ?_⟩
  rw [carryingCount_eq_sum]
  exact (h.map _).sum_nat

/-- Contents that are either some items or nothing count as those items or as nothing. -/
theorem counts_of_mem_iff {k : Contents} {items : List Item} {p : Prop} [Decidable p]
    (hn : items.Nodup) (h : ∀ i, i ∈ k.toList ↔ p ∧ i ∈ items) :
    k.size = (if p then items.length else 0) ∧
      k.carryingCount = if p then (items.map Item.carryingCount).sum else 0 := by
  by_cases hp : p
  · have hperm : k.toList.Perm items :=
      (List.perm_ext_iff_of_nodup k.nodup_toList hn).mpr fun i => (h i).trans (and_iff_right hp)
    simpa only [if_pos hp] using counts_of_perm hperm
  · have hnone : k.toList.Perm [] :=
      List.Perm.of_eq (List.eq_nil_iff_forall_not_mem.mpr fun i hi => hp ((h i).mp hi).1)
    rw [if_neg hp, if_neg hp]
    exact counts_of_perm hnone

end Contents

/-- A raceway that holds either the items of a circuit or nothing counts what the circuit adds, or
nothing. -/
theorem Circuit.Shaped.counts_of_mem_iff {c : Circuit} (h : c.Shaped) (hn : c.items.Nodup)
    {k : Contents} {p : Prop} [Decidable p] (hk : ∀ i, i ∈ k.toList ↔ p ∧ i ∈ c.items) :
    k.size = (if p then c.filling else 0) ∧ k.carryingCount = if p then c.carrying else 0 := by
  rw [← h.length_items, ← h.sum_carryingCount]
  exact Contents.counts_of_mem_iff hn hk

namespace Installation

/-- The circuits that run through a shared raceway. -/
def occupants (w : Installation) (r : SharedRaceway) : List Circuit :=
  (w.circuits.filterMap id).filter fun c => c.routing = .shared r

variable {w : Installation}

theorem mem_occupants_iff (r : SharedRaceway) (c : Circuit) :
    c ∈ w.occupants r ↔ ∃ n, w.circuit? n = some c ∧ c.routing = .shared r := by
  unfold occupants circuit?
  rw [List.mem_filter, List.mem_filterMap, decide_eq_true_eq]
  constructor
  · rintro ⟨⟨x, hx, rfl⟩, hr⟩
    obtain ⟨n, hn⟩ := List.mem_iff_getElem?.mp hx
    exact ⟨n, by rw [hn]; rfl, hr⟩
  · rintro ⟨n, hn, hr⟩
    exact ⟨⟨some c, List.mem_of_getElem? (Option.join_eq_some_iff.mp hn), rfl⟩, hr⟩

theorem nodup_items (h : Apart w.site w.circuits) {n : Nat} {c : Circuit}
    (hc : w.circuit? n = some c) : c.items.Nodup :=
  List.Nodup.of_map Item.id (h.nodup n c hc)

/-- No item is with two occupants, and none is twice with one. -/
theorem nodup_items_of_occupants (h : Apart w.site w.circuits) (r : SharedRaceway) :
    ((w.occupants r).flatMap Circuit.items).Nodup := by
  rw [List.nodup_flatMap]
  constructor
  · intro c hc
    obtain ⟨n, hn, -⟩ := (mem_occupants_iff r c).mp hc
    exact nodup_items h hn
  · refine List.Pairwise.filter _ (List.pairwise_filterMap.mpr ?_)
    rw [List.pairwise_iff_getElem]
    intro m n hm hn hlt c hc d hd i hic hid
    have hcm : w.circuits[m]?.join = some c := by
      rw [List.getElem?_eq_getElem hm]
      exact hc
    have hdn : w.circuits[n]?.join = some d := by
      rw [List.getElem?_eq_getElem hn]
      exact hd
    exact h.disjoint m n c d (Nat.ne_of_lt hlt) hcm hdn i.id (Circuit.item_id_mem hic)
      (Circuit.item_id_mem hid)

/-- A shared raceway in which nothing was left behind holds the items of its occupants, and no
others. -/
theorem perm_items_of_occupants {left : SharedRaceway → Item → Prop}
    (h : Accounted w.site w.circuits left) {r : SharedRaceway} {k : Contents}
    (hk : w.site.contents? r = some k) (hleft : ∀ i, ¬left r i) :
    k.toList.Perm ((w.occupants r).flatMap Circuit.items) := by
  refine (List.perm_ext_iff_of_nodup k.nodup_toList (nodup_items_of_occupants h.apart r)).mpr
    fun i => ?_
  rw [h.shared r k hk i, or_iff_left (hleft i), List.mem_flatMap]
  constructor
  · rintro ⟨n, c, hc, hr, hi⟩
    exact ⟨c, (mem_occupants_iff r c).mpr ⟨n, hc, hr⟩, hi⟩
  · rintro ⟨c, hc, hi⟩
    obtain ⟨n, hn, hr⟩ := (mem_occupants_iff r c).mp hc
    exact ⟨n, c, hn, hr, hi⟩

/-- **Counts in raceways.** After any run that overwrites no raceway, a shared raceway in which
nothing was left behind counts as many items, and as many current-carrying conductors, as its
occupants add. The private conduit and the private bundle of a circuit count what the circuit adds,
or nothing if it does not run through them. Over all conduits of a circuit there are the conductors
of all its sets. -/
theorem counts_in_raceways (actions : List Action) (ha : ∀ a ∈ actions, a.overwrites = false) :
    let w := run {} actions
    (∀ r k, w.site.contents? r = some k → leftBehind {} actions r = [] →
      k.size = ((w.occupants r).map Circuit.filling).sum ∧
        k.carryingCount = ((w.occupants r).map Circuit.carrying).sum) ∧
      ∀ n c, w.circuit? n = some c →
        (c.conduit.contents.size = (if c.mode = .privateConduit then c.filling else 0) ∧
          c.conduit.contents.carryingCount =
            if c.mode = .privateConduit then c.carrying else 0) ∧
        (c.bundle.contents.size = (if c.mode = .privateBundle then c.filling else 0) ∧
          c.bundle.contents.carryingCount =
            if c.mode = .privateBundle then c.carrying else 0) ∧
        (c.wiring = .conductors →
          c.spread.conduits * c.items.length = c.spread.sets * c.layout.size) := by
  intro w
  have h : Accounted w.site w.circuits fun r i => i ∈ leftBehind {} actions r :=
    accounted_of_run actions ha
  have hshaped : ∀ n c, w.circuit? n = some c → c.Shaped := fun n c hc =>
    (lived_of_run actions n c hc).shaped
  refine ⟨fun r k hk hleft => ?_, fun n c hc => ⟨?_, ?_, (hshaped n c hc).conduits_mul_length⟩⟩
  · have hperm : k.toList.Perm ((w.occupants r).flatMap Circuit.items) :=
      perm_items_of_occupants h hk fun i hi => List.not_mem_nil (hleft ▸ hi)
    have hoccupant : ∀ c ∈ w.occupants r, c.Shaped := fun c hc => by
      obtain ⟨n, hn, -⟩ := (mem_occupants_iff r c).mp hc
      exact hshaped n c hn
    obtain ⟨hsize, hcarrying⟩ := Contents.counts_of_perm hperm
    constructor
    · rw [hsize, List.length_flatMap,
        List.map_congr_left fun c hc => (hoccupant c hc).length_items]
    · rw [hcarrying, List.map_flatMap, List.flatMap_def, List.sum_flatten, List.map_map]
      exact congrArg List.sum (List.map_congr_left fun c hc => (hoccupant c hc).sum_carryingCount)
  · refine (hshaped n c hc).counts_of_mem_iff (nodup_items h.apart hc) fun i => ?_
    rw [Circuit.mode_eq_privateConduit_iff]
    exact h.conduit n c hc i
  · refine (hshaped n c hc).counts_of_mem_iff (nodup_items h.apart hc) fun i => ?_
    rw [Circuit.mode_eq_privateBundle_iff]
    exact h.bundle n c hc i

/-- Three circuits go into one bundle: one with two sets of conductors for each of its conduits, one
with three cables, and one that is taken down again. -/
def traffic : List Action :=
  let load : Load := { system := .wye277x480, ampacity := 16, verdict := some true }
  let shared : Change Place := .route (.sharedBundle (some (.loose 0)))
  [.newBundle 1 false, .newCircuit load true false, .newCircuit load false false,
    .newCircuit load false false, .change (.loose 0) (.setSets 4), .change (.loose 0) .narrow,
    .change (.loose 0) shared, .change (.loose 1) (.setSets 3), .change (.loose 1) shared,
    .change (.loose 1) (.useWiring .cables), .change (.loose 2) shared,
    .dropCircuit 2 none none]

theorem traffic_in_bundle :
    (∀ a ∈ traffic, a.overwrites = false) ∧ leftBehind {} traffic (.bundle 0) = [] ∧
      ((run {} traffic).occupants (.bundle 0)).map Circuit.filling = [10, 3] ∧
      ∃ k, (run {} traffic).site.contents? (.bundle 0) = some k ∧ k.size = 13 ∧
        k.carryingCount = 17 := by
  have hleft : leftBehind {} traffic (.bundle 0) = [] := by rfl
  have hfilling : ((run {} traffic).occupants (.bundle 0)).map Circuit.filling = [10, 3] := by
    decide +kernel
  have hcarrying : ((run {} traffic).occupants (.bundle 0)).map Circuit.carrying = [8, 9] := by
    decide +kernel
  obtain ⟨hsize, hcount⟩ := (counts_in_raceways traffic (by decide)).1 (.bundle 0) _ rfl hleft
  exact ⟨by decide, hleft, hfilling, _, rfl, hsize.trans (congrArg List.sum hfilling),
    hcount.trans (congrArg List.sum hcarrying)⟩

end Installation

end Raceways
