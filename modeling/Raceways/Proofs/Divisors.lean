import Mathlib.Data.Finset.Sort
import Mathlib.NumberTheory.Divisors
import Mathlib.Order.SuccPred.Archimedean
import Raceways.Proofs.Spread

/-!
The numbers of conduits that sets can be spread over are the divisors of the number of sets. The
searches for the next larger and the next smaller number go from one divisor to its neighbour, so
each takes back what the other does, and going down from the top comes past all of them.
-/

namespace Raceways

namespace Spread

/-! ## Neighbours -/

/-- What it comes to, to ask for more conduits: the least divisor of the sets above the number of
conduits, unless every set already has a conduit of its own. -/
inductive Widened (s : Spread) : Spread → Prop
  | over {d : ℕ} (least : IsLeast {d | d ∣ s.sets ∧ s.conduits < d} d) :
      Widened s ⟨s.sets, d, s.sets / d⟩
  | apart (apart : s.conduits = s.sets) : Widened s s

/-- What it comes to, to ask for fewer conduits: the greatest divisor of the sets below the number
of conduits, unless all sets are already together. -/
inductive Narrowed (s : Spread) : Spread → Prop
  | over {d : ℕ} (greatest : IsGreatest {d | d ∣ s.sets ∧ d < s.conduits} d) :
      Narrowed s ⟨s.sets, d, s.sets / d⟩
  | together (together : s.conduits = 1) : Narrowed s s

variable {s t : Spread}

theorem Even.conduits_dvd (h : s.Even) : s.conduits ∣ s.sets := ⟨_, h.product.symm⟩

/-- An even spread is known by its sets and conduits. -/
theorem Even.across_conduits (h : s.Even) : s.across s.conduits = s := by
  have hper : s.sets / s.conduits = s.setsPerConduit := by
    rw [← h.product, Nat.mul_div_cancel_left _ h.conduits_pos]
  rw [Spread.across, hper]

theorem wider?_eq_some_iff (h : s.Even) :
    s.wider? = some t ↔
      ∃ d, IsLeast {d | d ∣ s.sets ∧ s.conduits < d} d ∧ t = s.across d := by
  simp only [wider?, Option.map_eq_some_iff, nextDivisor?_eq_some_iff]
  constructor
  · rintro ⟨d, ⟨⟨hlt, -, hd⟩, hmin⟩, rfl⟩
    refine ⟨d, ⟨⟨Nat.dvd_of_mod_eq_zero hd, hlt⟩, fun j ⟨hj, hkj⟩ => ?_⟩, rfl⟩
    by_contra hjd
    exact hmin j hkj (by omega) (Nat.mod_eq_zero_of_dvd hj)
  · rintro ⟨d, ⟨⟨hd, hlt⟩, hmin⟩, rfl⟩
    have hle : d ≤ s.sets := Nat.le_of_dvd h.sets_pos hd
    refine ⟨d, ⟨⟨hlt, by omega, Nat.mod_eq_zero_of_dvd hd⟩, fun j hkj hjd hj => ?_⟩, rfl⟩
    exact absurd (hmin ⟨Nat.dvd_of_mod_eq_zero hj, hkj⟩) (by omega)

theorem narrower?_eq_some_iff (h : s.Even) :
    s.narrower? = some t ↔
      ∃ d, IsGreatest {d | d ∣ s.sets ∧ d < s.conduits} d ∧ t = s.across d := by
  simp only [narrower?, Option.map_eq_some_iff, previousDivisor?_eq_some_iff]
  constructor
  · rintro ⟨d, ⟨⟨-, hlt, hd⟩, hmax⟩, rfl⟩
    refine ⟨d, ⟨⟨Nat.dvd_of_mod_eq_zero hd, hlt⟩, fun j ⟨hj, hjk⟩ => ?_⟩, rfl⟩
    by_contra hjd
    exact hmax j (by omega) hjk (Nat.mod_eq_zero_of_dvd hj)
  · rintro ⟨d, ⟨⟨hd, hlt⟩, hmax⟩, rfl⟩
    have hpos : 0 < d := Nat.pos_of_dvd_of_pos hd h.sets_pos
    refine ⟨d, ⟨⟨hpos, hlt, Nat.mod_eq_zero_of_dvd hd⟩, fun j hdj hjk hj => ?_⟩, rfl⟩
    exact absurd (hmax ⟨Nat.dvd_of_mod_eq_zero hj, hjk⟩) (by omega)

/-- The number of sets divides itself, so only at the top there is no divisor above. -/
theorem conduits_eq_sets_of_wider?_eq_none (h : s.Even) (hw : s.wider? = none) :
    s.conduits = s.sets := by
  by_contra hne
  have hlt : s.conduits < s.sets := lt_of_le_of_ne h.conduits_le hne
  obtain ⟨d, hd⟩ := (OrderBot.bddBelow {d | d ∣ s.sets ∧ s.conduits < d}).exists_isLeast_of_nonempty
    ⟨s.sets, dvd_rfl, hlt⟩
  exact Option.some_ne_none _ (((wider?_eq_some_iff h).mpr ⟨d, hd, rfl⟩).symm.trans hw)

/-- One divides every number, so only at the bottom there is no divisor below. -/
theorem narrower?_eq_none_iff (h : s.Even) : s.narrower? = none ↔ s.conduits = 1 := by
  constructor
  · intro hn
    by_contra hne
    have hlt : 1 < s.conduits := lt_of_le_of_ne h.conduits_pos (Ne.symm hne)
    have hbdd : BddAbove {d | d ∣ s.sets ∧ d < s.conduits} := ⟨s.conduits, fun d hd => hd.2.le⟩
    obtain ⟨d, hd⟩ := hbdd.exists_isGreatest_of_nonempty ⟨1, one_dvd _, hlt⟩
    exact Option.some_ne_none _ (((narrower?_eq_some_iff h).mpr ⟨d, hd, rfl⟩).symm.trans hn)
  · intro hone
    refine Option.eq_none_iff_forall_ne_some.mpr fun t ht => ?_
    obtain ⟨d, ⟨⟨hd, hlt⟩, -⟩, -⟩ := (narrower?_eq_some_iff h).mp ht
    have hpos : 0 < d := Nat.pos_of_dvd_of_pos hd h.sets_pos
    omega

theorem widened_of_even (h : s.Even) : s.Widened (s.wider?.getD s) := by
  cases hw : s.wider? with
  | some t =>
    obtain ⟨d, hd, rfl⟩ := (wider?_eq_some_iff h).mp hw
    exact .over hd
  | none => exact .apart (conduits_eq_sets_of_wider?_eq_none h hw)

theorem narrowed_of_even (h : s.Even) : s.Narrowed (s.narrower?.getD s) := by
  cases hn : s.narrower? with
  | some t =>
    obtain ⟨d, hd, rfl⟩ := (narrower?_eq_some_iff h).mp hn
    exact .over hd
  | none => exact .together ((narrower?_eq_none_iff h).mp hn)

/-! ## There and back -/

/-- Below the least divisor above `k` there is no divisor greater than `k`. -/
theorem narrower?_of_wider? (h : s.Even) (hw : s.wider? = some t) : t.narrower? = some s := by
  obtain ⟨d, ⟨⟨hd, hlt⟩, hmin⟩, rfl⟩ := (wider?_eq_some_iff h).mp hw
  have heven : (s.across d).Even := h.wider? hw
  refine (narrower?_eq_some_iff heven).mpr ⟨s.conduits, ⟨⟨h.conduits_dvd, hlt⟩, ?_⟩,
    h.across_conduits.symm⟩
  rintro j ⟨hj, hjd⟩
  by_contra hkj
  exact absurd (hmin ⟨hj, not_le.mp hkj⟩) (not_le.mpr hjd)

theorem wider?_of_narrower? (h : s.Even) (hn : s.narrower? = some t) : t.wider? = some s := by
  obtain ⟨d, ⟨⟨hd, hlt⟩, hmax⟩, rfl⟩ := (narrower?_eq_some_iff h).mp hn
  have heven : (s.across d).Even := h.narrower? hn
  refine (wider?_eq_some_iff heven).mpr ⟨s.conduits, ⟨⟨h.conduits_dvd, hlt⟩, ?_⟩,
    h.across_conduits.symm⟩
  rintro j ⟨hj, hdj⟩
  by_contra hjk
  exact absurd (hmax ⟨hj, not_le.mp hjk⟩) (not_le.mpr hdj)

/-- Two ways to spread sets evenly over another number of conduits, of which the second goes back
from where the first has led. -/
structure Undoes (back next : Spread → Option Spread) : Prop where
  even : ∀ {s t : Spread}, s.Even → next s = some t → t.Even
  sets : ∀ {s t : Spread}, next s = some t → t.sets = s.sets
  conduits : ∀ {s t : Spread}, next s = some t → t.conduits ≠ s.conduits
  back : ∀ {s t : Spread}, s.Even → next s = some t → back t = some s

theorem wider?_undoes_narrower? : Undoes wider? narrower? where
  even := Even.narrower?
  sets := sets_of_narrower?
  conduits := conduits_ne_of_narrower?
  back := wider?_of_narrower?

theorem narrower?_undoes_wider? : Undoes narrower? wider? where
  even := Even.wider?
  sets := sets_of_wider?
  conduits := conduits_ne_of_wider?
  back := narrower?_of_wider?

/-! ## All the way down -/

/-- In a descending list the next element is the greatest of those below. -/
theorem isGreatest_below_iff {l : List ℕ} (hl : l.SortedGT) {i : ℕ} (hi : i < l.length) {d : ℕ} :
    IsGreatest {e | e ∈ l ∧ e < l[i]} d ↔ l[i + 1]? = some d := by
  constructor
  · rintro ⟨⟨hd, hlt⟩, hmax⟩
    obtain ⟨k, hk, rfl⟩ := List.getElem_of_mem hd
    have hik : i < k := hl.getElem_lt_getElem_iff.mp hlt
    have hnext : i + 1 < l.length := by omega
    have hle : l[i + 1] ≤ l[k] :=
      hmax ⟨List.getElem_mem hnext, hl.getElem_lt_getElem_iff.mpr (Nat.lt_succ_self i)⟩
    have hki : k ≤ i + 1 := hl.getElem_le_getElem_iff.mp hle
    have he : k = i + 1 := by omega
    subst he
    exact List.getElem?_eq_getElem hk
  · intro hd
    obtain ⟨hnext, rfl⟩ := List.getElem?_eq_some_iff.mp hd
    refine ⟨⟨List.getElem_mem hnext, hl.getElem_lt_getElem_iff.mpr (Nat.lt_succ_self i)⟩, ?_⟩
    rintro e ⟨he, hlt⟩
    obtain ⟨k, hk, rfl⟩ := List.getElem_of_mem he
    exact hl.getElem_le_getElem_iff.mpr (hl.getElem_lt_getElem_iff.mp hlt)

/-- The divisors of a number, the greatest first. -/
def divisorsDown (n : ℕ) : List ℕ := n.divisors.sort (· ≥ ·)

theorem divisorsDown_sortedGT (n : ℕ) : (divisorsDown n).SortedGT := Finset.sortedGT_sort _

theorem mem_divisorsDown {n d : ℕ} (hn : 0 < n) : d ∈ divisorsDown n ↔ d ∣ n := by
  simp [divisorsDown, Nat.ne_of_gt hn]

theorem conduits_narrower? (h : s.Even) {i : ℕ} (hi : i < (divisorsDown s.sets).length)
    (hs : s.conduits = (divisorsDown s.sets)[i]) :
    s.narrower?.map Spread.conduits = (divisorsDown s.sets)[i + 1]? := by
  have hset : {d | d ∣ s.sets ∧ d < s.conduits} =
      {d | d ∈ divisorsDown s.sets ∧ d < (divisorsDown s.sets)[i]} := by
    rw [hs]
    exact Set.ext fun d => and_congr_left fun _ => (mem_divisorsDown h.sets_pos).symm
  ext d
  rw [← isGreatest_below_iff (divisorsDown_sortedGT _) hi, ← hset, Option.map_eq_some_iff]
  constructor
  · rintro ⟨t, ht, rfl⟩
    obtain ⟨e, he, rfl⟩ := (narrower?_eq_some_iff h).mp ht
    exact he
  · intro hd
    exact ⟨_, (narrower?_eq_some_iff h).mpr ⟨d, hd, rfl⟩, rfl⟩

/-- The spread after so many requests for fewer conduits. -/
def descent (s : Spread) : ℕ → Spread
  | 0 => s
  | i + 1 => (s.descent i).narrower?.getD (s.descent i)

/-- The descent goes over even spreads of the same sets. -/
theorem even_descent (h : s.Even) (i : ℕ) :
    (s.descent i).Even ∧ (s.descent i).sets = s.sets := by
  induction i with
  | zero => exact ⟨h, rfl⟩
  | succ i ih =>
    rw [descent]
    cases hn : (s.descent i).narrower? with
    | none => exact ih
    | some t => exact ⟨ih.1.narrower? hn, (sets_of_narrower? hn).trans ih.2⟩

/-- From the top, one divisor after another is come past. -/
theorem conduits_descent (h : s.Even) (htop : s.conduits = s.sets) {i : ℕ}
    (hi : i < (divisorsDown s.sets).length) :
    (s.descent i).conduits = (divisorsDown s.sets)[i] := by
  induction i with
  | zero =>
    -- the number of sets is its own greatest divisor
    obtain ⟨k, hk, he⟩ := List.getElem_of_mem ((mem_divisorsDown h.sets_pos).mpr (dvd_refl s.sets))
    have hmem := (mem_divisorsDown h.sets_pos).mp (List.getElem_mem hi)
    have hle : (divisorsDown s.sets)[0] ≤ (divisorsDown s.sets)[k] :=
      (Nat.le_of_dvd h.sets_pos hmem).trans he.ge
    have hk0 := (divisorsDown_sortedGT _).getElem_le_getElem_iff.mp hle
    obtain rfl : k = 0 := by omega
    exact htop.trans he.symm
  | succ i ih =>
    obtain ⟨heven, hsets⟩ := even_descent h i
    have hi' : i < (divisorsDown s.sets).length := by omega
    have hnext := conduits_narrower? heven (i := i) (by rwa [hsets]) (by simp [hsets, ih hi'])
    rw [hsets, List.getElem?_eq_getElem hi] at hnext
    obtain ⟨t, ht, hconduits⟩ := Option.map_eq_some_iff.mp hnext
    rw [descent, ht]
    exact hconduits

/-- **All the way down.** From one conduit for each set down to a single conduit, every divisor is
come past once. -/
theorem map_conduits_descent (h : s.Even) (htop : s.conduits = s.sets) :
    (List.range s.sets.divisors.card).map (fun i => (s.descent i).conduits) =
      divisorsDown s.sets := by
  apply List.ext_getElem
  · simp [divisorsDown]
  · intro i _ hi
    rw [List.getElem_map, List.getElem_range]
    exact conduits_descent h htop hi

end Spread

end Raceways
