import Mathlib.Algebra.BigOperators.Group.Finset.Basic
import Mathlib.Data.List.Induction
import Raceways.Proofs.Comparison
import Raceways.Proofs.Contents

/-!
How the contents of a raceway come about. Items are put in and taken out in batches, in which an id
may come up any number of times. Each id has its own story, and of it only the last move counts: an
item that was put in then is held as it was then.
-/

namespace Raceways

namespace Contents

/-- One item that is put in, or taken out with whatever is held under its id. -/
inductive Move where
  | putIn (i : Item)
  | takeOut (i : Item)
  deriving DecidableEq

namespace Move

def item : Move → Item
  | putIn i => i
  | takeOut i => i

/-- The item that is held after the move. -/
def held? : Move → Option Item
  | putIn i => some i
  | takeOut _ => none

def make (m : Move) (c : Contents) : Contents :=
  match m with
  | putIn i => c.put i
  | takeOut i => c.erase i.key

/-- A move settles what is held under its id, and leaves the rest alone. -/
theorem find?_make (m : Move) (c : Contents) (id : Nat) :
    (m.make c).find? (id : Int) = if m.item.id = id then m.held? else c.find? (id : Int) := by
  cases m with
  | putIn i =>
    change (c.put i).find? (id : Int) = if i.id = id then some i else c.find? (id : Int)
    simp only [Ascending.find?_put, Item.key_eq_iff]
  | takeOut i =>
    change (c.erase i.key).find? (id : Int) = if i.id = id then none else c.find? (id : Int)
    simp only [Ascending.find?_erase, eq_comm (b := i.key), Item.key_eq_iff]

theorem held?_eq_some_iff (m : Move) (i : Item) : m.held? = some i ↔ m = putIn i := by
  cases m <;> simp [held?]

end Move

/-- Items that are put in or taken out together. -/
inductive Batch where
  | putIn (items : List Item)
  | takeOut (items : List Item)

namespace Batch

def make (b : Batch) (c : Contents) : Contents :=
  match b with
  | putIn items => c.adding items
  | takeOut items => c.without items

/-- A batch, item by item. -/
def moves : Batch → List Move
  | putIn items => items.map .putIn
  | takeOut items => items.map .takeOut

theorem make_eq_foldl (b : Batch) (c : Contents) :
    b.make c = b.moves.foldl (fun c m => m.make c) c := by
  cases b with
  | putIn items =>
    unfold make moves
    rw [List.foldl_map]
    rfl
  | takeOut items =>
    unfold make moves
    rw [List.foldl_map]
    rfl

end Batch

/-! ## One id after another -/

/-- What a raceway holds after batches, starting with nothing. -/
def filled (batches : List Batch) : Contents :=
  batches.foldl (fun c b => b.make c) Ascending.empty

/-- The last move of an item with the given id. -/
def lastMove? (id : Nat) (batches : List Batch) : Option Move :=
  ((batches.flatMap Batch.moves).filter fun m => m.item.id = id).getLast?

/-- The items that were put in by the last move under their ids. -/
def survivors (batches : List Batch) : Finset Item :=
  ((batches.flatMap Batch.moves).filterMap Move.held?).toFinset.filter fun i =>
    lastMove? i.id batches = some (.putIn i)

theorem filled_eq_foldl (batches : List Batch) :
    filled batches =
      (batches.flatMap Batch.moves).foldl (fun c m => m.make c) Ascending.empty := by
  unfold filled
  rw [List.foldl_flatMap]
  simp only [Batch.make_eq_foldl]

/-- Of all moves under an id the last one decides. -/
theorem find?_foldl_make (moves : List Move) (id : Nat) :
    (moves.foldl (fun c m => m.make c) Ascending.empty).find? (id : Int) =
      (moves.filter fun m => m.item.id = id).getLast?.bind Move.held? := by
  -- from the end, where each move is the last one so far
  induction moves using List.reverseRecOn with
  | nil => rfl
  | append_singleton past m ih =>
    rw [List.foldl_concat, Move.find?_make, ih, List.filter_append]
    by_cases h : m.item.id = id <;> simp [h]

theorem find?_filled (batches : List Batch) (id : Nat) :
    (filled batches).find? (id : Int) = (lastMove? id batches).bind Move.held? := by
  rw [filled_eq_foldl, find?_foldl_make]
  rfl

theorem find?_filled_eq_some_iff (batches : List Batch) (id : Nat) (i : Item) :
    (filled batches).find? (id : Int) = some i ↔ lastMove? id batches = some (.putIn i) := by
  simp [find?_filled, Option.bind_eq_some_iff, Move.held?_eq_some_iff]

theorem holds_filled_iff (batches : List Batch) (id : Nat) :
    (filled batches).holds id ↔ ∃ i, lastMove? id batches = some (.putIn i) := by
  unfold holds
  simp only [Ascending.contains_eq_isSome_find?, Option.isSome_iff_exists,
    find?_filled_eq_some_iff]

theorem mem_filled_iff (batches : List Batch) (i : Item) :
    i ∈ (filled batches).toList ↔ lastMove? i.id batches = some (.putIn i) := by
  rw [mem_iff_find?, find?_filled_eq_some_iff]

/-! ## All that is held -/

theorem mem_survivors_iff (batches : List Batch) (i : Item) :
    i ∈ survivors batches ↔ lastMove? i.id batches = some (.putIn i) := by
  unfold survivors
  rw [Finset.mem_filter, List.mem_toFinset]
  refine and_iff_right_of_imp fun h => ?_
  exact List.mem_filterMap.mpr ⟨_, (List.mem_filter.mp (List.mem_of_getLast? h)).1, rfl⟩

theorem toFinset_filled (batches : List Batch) :
    (filled batches).toList.toFinset = survivors batches := by
  ext i
  rw [List.mem_toFinset, mem_filled_iff, mem_survivors_iff]

/-- There are as many items as ids. -/
theorem size_eq_card (c : Contents) : c.size = (c.toList.toFinset.image Item.id).card := by
  have hinj : Set.InjOn Item.id c.toList.toFinset := by
    intro i hi j hj hij
    exact List.inj_on_of_nodup_map c.nodup_ids (List.mem_toFinset.mp hi) (List.mem_toFinset.mp hj)
      hij
  rw [Finset.card_image_of_injOn hinj, List.toFinset_card_of_nodup c.nodup_toList]
  rfl

theorem carryingCount_eq_sum_toFinset (c : Contents) :
    c.carryingCount = ∑ i ∈ c.toList.toFinset, i.carryingCount := by
  rw [carryingCount_eq_sum, List.sum_toFinset _ c.nodup_toList]

theorem ascending_ids (c : Contents) : c.ids.Pairwise (· < ·) :=
  List.pairwise_map.mpr (c.ascending.imp Int.ofNat_lt.mp)

/-- There is only one way to list what is held in order of id. -/
theorem toList_eq_of_pairwise {c : Contents} {l : List Item}
    (h : l.Pairwise fun i j => i.id < j.id) (hl : l.toFinset = c.toList.toFinset) :
    c.toList = l := by
  have hkeys : l.Pairwise fun i j => i.key < j.key := h.imp Int.ofNat_lt.mpr
  have hmem : ∀ i, i ∈ c.toList ↔ i ∈ l := by
    intro i
    rw [← List.mem_toFinset, ← List.mem_toFinset, hl]
  exact congrArg Ascending.toList (Ascending.ext_mem (m := ⟨l, hkeys⟩) hmem)

theorem eq_of_toFinset_eq {c d : Contents} (h : c.toList.toFinset = d.toList.toFinset) :
    c = d := by
  refine Ascending.ext_mem fun i => ?_
  rw [← List.mem_toFinset, h, List.mem_toFinset]

/-! ## In and out again -/

theorem without_adding {items : List Item} {c : Contents}
    (h : ∀ i ∈ items, c.holds i.id = false) : (c.adding items).without items = c := by
  have hfree : ∀ i ∈ c.toList, i.id ∉ items.map Item.id := by
    intro i hi hid
    obtain ⟨j, hj, hji⟩ := List.mem_map.mp hid
    have hnone := h j hj
    rw [hji, holds, Ascending.contains_eq_isSome_find?, (mem_iff_find? c i).mp hi] at hnone
    cases hnone
  refine Ascending.ext_mem fun i => ?_
  rw [mem_without]
  constructor
  · rintro ⟨hi, hid⟩
    rw [mem_iff_find?, find?_adding_of_not_mem items c i.id hid] at hi
    exact (mem_iff_find? c i).mpr hi
  · intro hi
    have hid := hfree i hi
    refine ⟨?_, hid⟩
    rw [mem_iff_find?, find?_adding_of_not_mem items c i.id hid]
    exact (mem_iff_find? c i).mp hi

/-! ## All batches -/

/-- **Contents follow the moves.** An item is held if the last move under its id put it in. Contents
are in order of id, one item for each id that was put in last, and are counted by the items that
survive. The same survivors make for the same contents, in whatever order they came in, and so for
the same area, which is added up in order of id; survivors that compare equal make for contents that
compare equal and for the same area. What is put in under new ids and taken out again leaves no
trace. -/
theorem contents_follow_moves (batches : List Batch) :
    let c := filled batches
    c.ids.Pairwise (· < ·) ∧
    (∀ id, c.holds id ↔ ∃ i, lastMove? id batches = some (.putIn i)) ∧
    (∀ i, i ∈ c.toList ↔ lastMove? i.id batches = some (.putIn i)) ∧
    c.size = ((survivors batches).image Item.id).card ∧
    c.carryingCount = ∑ i ∈ survivors batches, i.carryingCount ∧
    (∀ l : List Item, l.Pairwise (fun i j => i.id < j.id) → l.toFinset = survivors batches →
      Fill.total Item.area c = (l.map Item.area).foldl (· + ·) 0) ∧
    (∀ batches', survivors batches' = survivors batches →
      filled batches' = c ∧ Fill.total Item.area (filled batches') = Fill.total Item.area c) ∧
    (∀ batches', (∀ i ∈ survivors batches', ∃ j ∈ survivors batches, i == j) →
      (∀ j ∈ survivors batches, ∃ i ∈ survivors batches', i == j) →
      filled batches' == c ∧ Fill.total Item.area (filled batches') = Fill.total Item.area c) ∧
    ∀ items, (∀ i ∈ items, c.holds i.id = false) → (c.adding items).without items = c := by
  intro c
  have hkept : c.toList.toFinset = survivors batches := toFinset_filled batches
  refine ⟨c.ascending_ids, holds_filled_iff batches, mem_filled_iff batches, ?_, ?_, ?_, ?_, ?_,
    fun items => without_adding⟩
  · rw [← hkept, ← size_eq_card]
  · rw [← hkept, ← carryingCount_eq_sum_toFinset]
  · intro l hl hsame
    rw [← toList_eq_of_pairwise hl (hsame.trans hkept.symm), List.foldl_map]
    rfl
  · intro batches' hsame
    have heq : filled batches' = c :=
      eq_of_toFinset_eq ((toFinset_filled batches').trans (hsame.trans hkept.symm))
    exact ⟨heq, congrArg (Fill.total Item.area) heq⟩
  · intro batches' h h'
    have hbeq : filled batches' == c := by
      simp only [mem_survivors_iff, ← mem_filled_iff] at h h'
      exact beq_of_mem h h'
    exact ⟨hbeq, Fill.total_of_beq hbeq⟩

private def wire (id : Nat) (size : Size) : Item :=
  .conductor ⟨{ size, metal := .copper, insulation := .thhn }, id⟩

private def cable (id : Nat) (diameter : Float) : Item :=
  .cable ⟨{ type := .mc, size := .awg12, diameter }, id⟩

/-- A conductor is put in twice, the second time in another size, and so is a cable. Another
conductor is taken out twice. -/
def restocked : List Batch :=
  [.putIn [wire 3 .awg10, wire 1 .awg10, cable 2 0.5, wire 3 .awg8],
    .takeOut [wire 1 .awg10, wire 1 .awg10], .putIn [cable 2 0]]

theorem contents_of_restocked :
    let c := filled restocked
    let listed := [cable 2 0, wire 3 .awg8]
    let reversed : List Batch := [.putIn [wire 3 .awg8, cable 2 0]]
    let negated : List Batch := [.putIn [cable 2 (-0)], .putIn [wire 3 .awg8]]
    let fresh := [wire 1 .awg10, wire 4 .awg10, wire 4 .awg8]
    (lastMove? 3 restocked = some (.putIn (wire 3 .awg8)) ∧ c.holds 3) ∧
    (listed.Pairwise (fun i j => i.id < j.id) ∧ listed.toFinset = survivors restocked ∧
      Fill.total Item.area c = (listed.map Item.area).foldl (· + ·) 0) ∧
    (survivors reversed = survivors restocked ∧ filled reversed = c) ∧
    ((∀ i ∈ survivors negated, ∃ j ∈ survivors restocked, i == j) ∧
      (∀ j ∈ survivors restocked, ∃ i ∈ survivors negated, i == j) ∧
      filled negated == c ∧ filled negated ≠ c ∧
      Fill.total Item.area (filled negated) = Fill.total Item.area c) ∧
    (∀ i ∈ fresh, c.holds i.id = false) ∧ (c.adding fresh).without fresh = c := by
  intro c listed reversed negated fresh
  obtain ⟨-, hholds, -, -, -, htotal, hsame, hequal, hfresh⟩ := contents_follow_moves restocked
  have hlast : lastMove? 3 restocked = some (.putIn (wire 3 .awg8)) := by decide +kernel
  have horder : listed.Pairwise fun i j => i.id < j.id := by decide +kernel
  have hlisted : listed.toFinset = survivors restocked := by decide +kernel
  have hreversed : survivors reversed = survivors restocked := by decide +kernel
  have hleft : ∀ i ∈ survivors negated, ∃ j ∈ survivors restocked, i == j := by decide +kernel
  have hright : ∀ j ∈ survivors restocked, ∃ i ∈ survivors negated, i == j := by decide +kernel
  have habsent : ∀ i ∈ fresh, c.holds i.id = false := by decide +kernel
  obtain ⟨hbeq, harea⟩ := hequal negated hleft hright
  exact ⟨⟨hlast, (hholds 3).mpr ⟨_, hlast⟩⟩, ⟨horder, hlisted, htotal listed horder hlisted⟩,
    ⟨hreversed, (hsame reversed hreversed).1⟩,
    ⟨hleft, hright, hbeq, by decide +kernel, harea⟩, habsent, hfresh fresh habsent⟩

end Contents

end Raceways
