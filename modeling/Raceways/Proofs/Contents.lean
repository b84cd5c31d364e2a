import Mathlib.Algebra.GroupWithZero.Nat
import Mathlib.Data.List.Nodup
import Raceways.Raceway.Contents

/-!
What is in a raceway after items are put in or taken out: membership, item by item, and the
items that stay as they are.
-/

namespace Raceways

namespace Item

theorem key_eq_iff (i : Item) (id : Nat) : i.key = (id : Int) ↔ i.id = id := by
  unfold key
  omega

end Item

namespace Contents

theorem nodup_ids (c : Contents) : c.ids.Nodup := by
  unfold ids
  refine List.Nodup.of_map (fun n : Nat => (n : Int)) ?_
  rw [List.map_map]
  exact (List.pairwise_map.mpr c.ascending).imp Int.ne_of_lt

theorem nodup_toList (c : Contents) : c.toList.Nodup := List.Nodup.of_map Item.id c.nodup_ids

theorem mem_iff_find? (c : Contents) (i : Item) :
    i ∈ c.toList ↔ c.find? (i.id : Int) = some i :=
  Ascending.mem_iff_find?

theorem mem_ids_iff (c : Contents) (id : Nat) :
    id ∈ c.ids ↔ (c.find? (id : Int)).isSome := by
  constructor
  · intro h
    obtain ⟨i, hi, rfl⟩ := List.mem_map.mp h
    rw [(mem_iff_find? c i).mp hi, Option.isSome_some]
  · intro h
    obtain ⟨i, hi⟩ := Option.isSome_iff_exists.mp h
    have hid : i.id = id := (Item.key_eq_iff i id).mp (Ascending.key_of_find? hi)
    exact List.mem_map.mpr ⟨i, (mem_iff_find? c i).mpr (hid ▸ hi), hid⟩

theorem carryingCount_eq_sum (k : Contents) :
    k.carryingCount = (k.toList.map Item.carryingCount).sum := by
  unfold carryingCount
  rw [List.sum_eq_foldl, List.foldl_map]

/-- Among items with distinct ids, the one with a given id is found. -/
theorem find?_reverse_of_nodup (items : List Item) (h : (items.map Item.id).Nodup) (i : Item)
    (hi : i ∈ items) : items.reverse.find? (fun a => a.key = (i.id : Int)) = some i := by
  cases hf : items.reverse.find? (fun a => a.key = (i.id : Int)) with
  | none =>
    have hne := List.find?_eq_none.mp hf i (List.mem_reverse.mpr hi)
    simp [Item.key_eq_iff] at hne
  | some j =>
    have hj : j ∈ items := List.mem_reverse.mp (List.mem_of_find?_eq_some hf)
    have hid : j.id = i.id := by simpa [Item.key_eq_iff] using List.find?_some hf
    rw [List.inj_on_of_nodup_map h hj hi hid]

theorem find?_reverse_of_not_mem (items : List Item) (id : Nat) (h : id ∉ items.map Item.id) :
    items.reverse.find? (fun a => a.key = (id : Int)) = none := by
  rw [List.find?_eq_none]
  intro a ha
  have hne : a.id ≠ id := fun he => h (List.mem_map.mpr ⟨a, List.mem_reverse.mp ha, he⟩)
  simpa [Item.key_eq_iff] using hne

/-! ## Items that are neither put in nor taken out -/

theorem find?_adding_of_not_mem (items : List Item) (c : Contents) (id : Nat)
    (h : id ∉ items.map Item.id) : (c.adding items).find? (id : Int) = c.find? (id : Int) := by
  unfold adding
  rw [Ascending.find?_putAll, find?_reverse_of_not_mem items id h, Option.none_or]

theorem find?_without_of_not_mem (items : List Item) (c : Contents) (id : Nat)
    (h : id ∉ items.map Item.id) : (c.without items).find? (id : Int) = c.find? (id : Int) := by
  unfold without
  rw [Ascending.find?_eraseAll, if_neg]
  rintro ⟨a, ha, hk⟩
  exact h (List.mem_map.mpr ⟨a, ha, (Item.key_eq_iff a id).mp hk⟩)

/-! ## Membership -/

theorem mem_adding (items : List Item) (c : Contents) (h : (items.map Item.id).Nodup) (i : Item) :
    i ∈ (c.adding items).toList ↔ i ∈ items ∨ i ∈ c.toList ∧ i.id ∉ items.map Item.id := by
  rw [mem_iff_find?, mem_iff_find?]
  by_cases hid : i.id ∈ items.map Item.id
  · obtain ⟨j, hj, hji⟩ := List.mem_map.mp hid
    have hfound : (c.adding items).find? (i.id : Int) = some j := by
      unfold adding
      rw [Ascending.find?_putAll, ← hji, find?_reverse_of_nodup items h j hj, Option.some_or]
    rw [hfound, Option.some.injEq]
    constructor
    · rintro rfl
      exact Or.inl hj
    · rintro (hi | ⟨_, hnot⟩)
      · exact List.inj_on_of_nodup_map h hj hi hji
      · exact absurd hid hnot
  · rw [find?_adding_of_not_mem items c i.id hid]
    constructor
    · intro hi
      exact Or.inr ⟨hi, hid⟩
    · rintro (hi | ⟨hi, _⟩)
      · exact absurd (List.mem_map.mpr ⟨i, hi, rfl⟩) hid
      · exact hi

theorem mem_without (items : List Item) (c : Contents) (i : Item) :
    i ∈ (c.without items).toList ↔ i ∈ c.toList ∧ i.id ∉ items.map Item.id := by
  rw [mem_iff_find?, mem_iff_find?]
  by_cases hid : i.id ∈ items.map Item.id
  · obtain ⟨j, hj, hji⟩ := List.mem_map.mp hid
    have hgone : (c.without items).find? (i.id : Int) = none := by
      unfold without
      rw [Ascending.find?_eraseAll, if_pos ⟨j, hj, (Item.key_eq_iff j i.id).mpr hji⟩]
    rw [hgone]
    simp [hid]
  · rw [find?_without_of_not_mem items c i.id hid]
    simp [hid]

end Contents

end Raceways
