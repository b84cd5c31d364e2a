import Mathlib.Algebra.Order.BigOperators.Group.List
import Mathlib.Algebra.Order.Field.Basic
import Mathlib.Data.List.Perm.Subperm
import Mathlib.Tactic.Linarith
import Raceways.Proofs.Contents
import Raceways.Raceway.Conduit

/-!
How compliance with the fill rules changes with a conduit and with what is in it, where areas are
exact numbers. More space never hurts, and more items never help once the allowed percentage no
longer depends on how many there are.
-/

namespace Raceways

/-! ## Space in the tables -/

namespace ConduitType

/-- Of the trade sizes that a type is made in, the larger ones have at least as much space. -/
theorem areas_mono (t : ConduitType) :
    ∀ i j : Fin 13, i ≤ j → ∀ m ∈ t.areas[i], ∀ n ∈ t.areas[j], m ≤ n := by
  cases t <;> decide

theorem areas_pos (t : ConduitType) : ∀ i : Fin 13, ∀ n ∈ t.areas[i], 0 < n := by
  cases t <;> decide

end ConduitType

/-! ## Putting items in -/

namespace Contents

theorem ids_subset_adding (items : List Item) (c : Contents) : c.ids ⊆ (c.adding items).ids := by
  intro id h
  rw [mem_ids_iff] at h ⊢
  unfold adding
  rw [Ascending.find?_putAll, Option.isSome_or, h, Bool.or_true]

theorem size_le_adding (items : List Item) (c : Contents) : c.size ≤ (c.adding items).size := by
  have h := ((nodup_ids c).subperm (ids_subset_adding items c)).length_le
  simpa [ids, Ascending.size] using h

variable {K : Type} [AddCommMonoid K]

/-- The area taken up under an id. -/
def areaOf (area : Item → K) (c : Contents) (id : Nat) : K := (c.find? (id : Int)).elim 0 area

theorem map_area_eq (area : Item → K) (c : Contents) :
    c.toList.map area = c.ids.map (c.areaOf area) := by
  unfold ids
  rw [List.map_map]
  apply List.map_congr_left
  intro i hi
  rw [Function.comp_apply, areaOf, (mem_iff_find? c i).mp hi, Option.elim_some]

variable [PartialOrder K]

theorem areaOf_nonneg {area : Item → K} (harea : ∀ i, 0 ≤ area i) (c : Contents) (id : Nat) :
    0 ≤ c.areaOf area id := by
  unfold areaOf
  cases c.find? (id : Int) with
  | none => exact le_refl 0
  | some i => exact harea i

theorem areaOf_le_adding {area : Item → K} {items : List Item} {c : Contents}
    (hkept : ∀ i ∈ items, ∀ j ∈ c.toList, j.id = i.id → area j ≤ area i) {id : Nat}
    (h : id ∈ c.ids) : c.areaOf area id ≤ (c.adding items).areaOf area id := by
  obtain ⟨j, hj, rfl⟩ := List.mem_map.mp h
  unfold areaOf adding
  rw [Ascending.find?_putAll, (mem_iff_find? c j).mp hj]
  cases hi : items.reverse.find? (fun i => i.key = (j.id : Int)) with
  | none => exact le_refl _
  | some i =>
    have hid : i.id = j.id := (Item.key_eq_iff i j.id).mp (by simpa using List.find?_some hi)
    exact hkept i (List.mem_reverse.mp (List.mem_of_find?_eq_some hi)) j hj hid.symm

variable [IsOrderedAddMonoid K]

/-- Items put in take up no less, unless a smaller one replaces one that was there. -/
theorem sum_area_le_adding {area : Item → K} (harea : ∀ i, 0 ≤ area i) {items : List Item}
    {c : Contents} (hkept : ∀ i ∈ items, ∀ j ∈ c.toList, j.id = i.id → area j ≤ area i) :
    (c.toList.map area).sum ≤ ((c.adding items).toList.map area).sum := by
  -- The old ids, in another order, are a sublist of the new ones, and what is added counts for
  -- no less than nothing.
  obtain ⟨l, hperm, hsub⟩ := (nodup_ids c).subperm (ids_subset_adding items c)
  have hnonneg : ∀ x ∈ (c.adding items).ids.map ((c.adding items).areaOf area), 0 ≤ x := by
    intro x hx
    obtain ⟨id, _, rfl⟩ := List.mem_map.mp hx
    exact areaOf_nonneg harea _ id
  calc (c.toList.map area).sum
      = (c.ids.map (c.areaOf area)).sum := by rw [map_area_eq]
    _ ≤ (c.ids.map ((c.adding items).areaOf area)).sum :=
        List.sum_le_sum fun _ h => areaOf_le_adding hkept h
    _ = (l.map ((c.adding items).areaOf area)).sum := ((hperm.map _).sum_eq).symm
    _ ≤ ((c.adding items).ids.map ((c.adding items).areaOf area)).sum :=
        (hsub.map _).sum_le_sum hnonneg
    _ = ((c.adding items).toList.map area).sum := by rw [map_area_eq]

end Contents

/-! ## Exact numbers -/

/-- The number that a decimal stands for. -/
def Decimal.value {K : Type} [Field K] (d : Decimal) : K := d.digits / 10 ^ d.places

section

variable {K : Type} [Field K] [LinearOrder K]

/-- Exact numbers as quantities. -/
@[reducible] def Quantity.exact : Quantity K where
  ofDecimal := Decimal.value
  decLe := fun _ _ => inferInstance

attribute [local instance] Quantity.exact

theorem Quantity.whole_exact (n : Nat) : (Quantity.whole n : K) = n := by
  simp [Quantity.whole, Quantity.ofDecimal, Decimal.value]

theorem Fill.total_eq_sum (area : Item → K) (c : Contents) :
    Fill.total area c = (c.toList.map area).sum := by
  unfold Fill.total
  rw [Quantity.whole_exact, Nat.cast_zero, List.sum_eq_foldl, List.foldl_map]

theorem Conduit.compliesBy_of_not_made {area : Item → K} {k : Conduit}
    (h : k.type.area? k.trade = none) : k.compliesBy area = false ∧ k.percentBy area = 0 := by
  unfold compliesBy percentBy Fill.complies space?
  rw [h]
  exact ⟨rfl, by simp [Fill.percentage, Quantity.whole_exact]⟩

/-! ## The rule without a division -/

variable [IsStrictOrderedRing K]

theorem ConduitType.value_area?_pos {t : ConduitType} {trade : TradeSize} {d : Decimal}
    (h : t.area? trade = some d) : 0 < (d.value : K) := by
  obtain ⟨n, hn, rfl⟩ := Option.map_eq_some_iff.mp h
  have hpos : 0 < (n : K) := Nat.cast_pos.mpr (t.areas_pos _ n hn)
  exact div_pos hpos (by positivity)

theorem ConduitType.value_area?_mono {t : ConduitType} {a b : TradeSize} {d e : Decimal}
    (hab : a.rank ≤ b.rank) (hd : t.area? a = some d) (he : t.area? b = some e) :
    (d.value : K) ≤ e.value := by
  obtain ⟨m, hm, rfl⟩ := Option.map_eq_some_iff.mp hd
  obtain ⟨n, hn, rfl⟩ := Option.map_eq_some_iff.mp he
  have hmn : (m : K) ≤ n := Nat.cast_le.mpr (t.areas_mono _ _ hab m hm n hn)
  exact div_le_div_of_nonneg_right hmn (by positivity)

/-- A conduit complies if it is made and its items take up no more than the allowed part of its
space. -/
theorem Conduit.compliesBy_iff (area : Item → K) (k : Conduit) :
    k.compliesBy area ↔ ∃ d, k.type.area? k.trade = some d ∧
      100 * (k.contents.toList.map area).sum ≤ k.allowedPercent * d.value := by
  unfold compliesBy Fill.complies space?
  cases hd : k.type.area? k.trade with
  | none => simp
  | some d =>
    have hpos : 0 < (d.value : K) := ConduitType.value_area?_pos hd
    simp only [Option.map_some, Option.isSome_some, Bool.true_and, decide_eq_true_eq,
      Fill.percentage, Fill.total_eq_sum, Quantity.whole_exact, Option.some.injEq,
      exists_eq_left']
    exact div_le_iff₀ hpos

theorem Fill.allowedPercent_le (nipple : Bool) (count : Nat) :
    allowedPercent nipple count ≤ 60 := by
  unfold allowedPercent
  split_ifs <;> omega

/-- In a nipple, and with three items or more, the count makes no difference. -/
theorem Fill.allowedPercent_congr {nipple : Bool} {m n : Nat} (h : 3 ≤ m ∨ nipple = true)
    (hmn : m ≤ n) : allowedPercent nipple n = allowedPercent nipple m := by
  unfold allowedPercent
  cases nipple with
  | true => rfl
  | false =>
    have hm : 3 ≤ m := by simpa using h
    simp only [Bool.false_eq_true, if_false]
    split_ifs <;> omega

/-! ## Monotonicity -/

namespace Conduit

theorem compliesBy_of_larger {area : Item → K} {k : Conduit} {t : TradeSize}
    (h : k.compliesBy area) (hle : k.trade.rank ≤ t.rank) (ht : (k.type.area? t).isSome) :
    (k.edit { trade := some t }).compliesBy area := by
  obtain ⟨d, hd, hfill⟩ := (compliesBy_iff area k).mp h
  obtain ⟨e, he⟩ := Option.isSome_iff_exists.mp ht
  have hde : (d.value : K) ≤ e.value := ConduitType.value_area?_mono hle hd he
  have hallowed : (k.allowedPercent : K) * d.value ≤ k.allowedPercent * e.value :=
    mul_le_mul_of_nonneg_left hde (Nat.cast_nonneg _)
  exact (compliesBy_iff area _).mpr ⟨e, he, hfill.trans hallowed⟩

theorem compliesBy_of_nipple {area : Item → K} {k : Conduit} (h : k.compliesBy area) :
    (k.edit { nipple := some true }).compliesBy area := by
  obtain ⟨d, hd, hfill⟩ := (compliesBy_iff area k).mp h
  have hpos : 0 < (d.value : K) := ConduitType.value_area?_pos hd
  have hle : (k.allowedPercent : K) ≤ (60 : Nat) :=
    Nat.cast_le.mpr (Fill.allowedPercent_le k.nipple k.contents.size)
  exact (compliesBy_iff area _).mpr
    ⟨d, hd, hfill.trans (mul_le_mul_of_nonneg_right hle hpos.le)⟩

/-- With the allowed percentage settled, a conduit that complies did so before more was put in. -/
theorem compliesBy_of_adding {area : Item → K} (harea : ∀ i, 0 ≤ area i) {k : Conduit}
    {items : List Item}
    (hkept : ∀ i ∈ items, ∀ j ∈ k.contents.toList, j.id = i.id → area j ≤ area i)
    (hcount : 3 ≤ k.contents.size ∨ k.nipple = true)
    (h : (k.withContents (k.contents.adding items)).compliesBy area) : k.compliesBy area := by
  obtain ⟨d, hd, hfill⟩ := (compliesBy_iff area _).mp h
  have hsum := Contents.sum_area_le_adding harea hkept
  have hallowed : (k.withContents (k.contents.adding items)).allowedPercent = k.allowedPercent :=
    Fill.allowedPercent_congr hcount (Contents.size_le_adding items k.contents)
  rw [hallowed] at hfill
  refine (compliesBy_iff area k).mpr ⟨d, hd, le_trans ?_ hfill⟩
  exact mul_le_mul_of_nonneg_left hsum (by norm_num)

/-- **Compliance is monotone.** A conduit that complies still does in every larger trade size that
is made, and as a nipple. A conduit that is not made never complies, though it counts as empty.
With three items or more, or as a nipple, a conduit that does not comply will not comply with more
in it, unless something smaller takes the place of what it holds under the same id. -/
theorem compliance_monotone (area : Item → K) (harea : ∀ i, 0 ≤ area i) (k : Conduit) :
    (∀ t, k.compliesBy area → k.trade.rank ≤ t.rank → (k.type.area? t).isSome →
      (k.edit { trade := some t }).compliesBy area) ∧
    (k.compliesBy area → (k.edit { nipple := some true }).compliesBy area) ∧
    (k.type.area? k.trade = none →
      k.compliesBy area = false ∧ k.percentBy area = 0) ∧
    ∀ items, (∀ i ∈ items, ∀ j ∈ k.contents.toList, j.id = i.id → area j ≤ area i) →
      3 ≤ k.contents.size ∨ k.nipple = true → k.compliesBy area = false →
      (k.withContents (k.contents.adding items)).compliesBy area = false := by
  refine ⟨fun t h hle ht => compliesBy_of_larger h hle ht, compliesBy_of_nipple,
    compliesBy_of_not_made, ?_⟩
  intro items hkept hcount hnot
  rw [← Bool.not_eq_true] at hnot ⊢
  exact fun h => hnot (compliesBy_of_adding harea hkept hcount h)

/-- Three conductors fill 28.5% of a 3/4" conduit, and over half of a 1/2" one. -/
theorem compliance_of_three_conductors :
    let wire (id : Nat) : Item :=
      .conductor ⟨{ size := .awg6, metal := .copper, insulation := .thhn }, id⟩
    let area (i : Item) : ℚ := (Insulation.thhn.area i.size).value
    let k (trade : TradeSize) : Conduit :=
      { type := .emt, trade, contents := Contents.adding [wire 0, wire 1, wire 2] .empty }
    (∀ i, 0 ≤ area i) ∧
    ((k .threeQuarters).compliesBy area ∧
      ((k .threeQuarters).edit { trade := some .two }).compliesBy area ∧
      ((k .threeQuarters).edit { nipple := some true }).compliesBy area) ∧
    ((k .six).type.area? (k .six).trade = none ∧
      (k .six).compliesBy area = false ∧ (k .six).percentBy area = 0) ∧
    ((k .half).compliesBy area = false ∧
      ((k .half).withContents ((k .half).contents.adding [wire 2, wire 3])).compliesBy area
        = false) := by
  intro wire area k
  have harea : ∀ i, 0 ≤ area i :=
    fun i => div_nonneg (Nat.cast_nonneg _) (pow_nonneg (by norm_num) _)
  have hfits : (k .threeQuarters).compliesBy area := by decide +kernel
  have hnone : (k .six).type.area? (k .six).trade = none := by decide +kernel
  have hover : (k .half).compliesBy area = false := by decide +kernel
  obtain ⟨hlarger, hnipple, -⟩ := compliance_monotone area harea (k .threeQuarters)
  obtain ⟨-, -, hnotMade, -⟩ := compliance_monotone area harea (k .six)
  obtain ⟨-, -, -, hadding⟩ := compliance_monotone area harea (k .half)
  exact ⟨harea, ⟨hfits, hlarger .two hfits (by decide +kernel) (by decide +kernel),
    hnipple hfits⟩, ⟨hnone, hnotMade hnone⟩,
    hover, hadding _ (by decide +kernel) (by decide +kernel) hover⟩

end Conduit

end

end Raceways
