import Mathlib.Order.Bounds.Basic
import Raceways.Proofs.Doubles

/-!
Which rating protects an ampacity. The ratings are looked through from the greatest down, and every
double, whether a number or not, is sized by its exact value: a rating that equals it, else the next
higher one if it may be used and is not above the limit, else the next lower one.
-/

namespace Raceways

namespace Rating

open Double

/-! ## What is prescribed -/

/-- The standard ratings that an ampacity covers. -/
def upTo (x : Extended) : Set ℕ := {r | r ∈ standard ∧ (r : Extended) ≤ x}

/-- The standard ratings above an ampacity. -/
def above (x : Extended) : Set ℕ := {r | r ∈ standard ∧ x < r}

/-- The rating that is prescribed for an ampacity with an exact value, or with none. -/
inductive Prescribed (nextHigher : Bool) : Option Extended → ℕ → Prop
  | notANumber : Prescribed nextHigher none 15
  | tooSmall {x : Extended} (h : x < 15) : Prescribed nextHigher (some x) 15
  | equal {x : Extended} {low : ℕ} (hlow : IsGreatest (upTo x) low) (heq : (low : Extended) = x) :
    Prescribed nextHigher (some x) low
  | higher {x : Extended} {low high : ℕ} (hlow : IsGreatest (upTo x) low)
    (hne : (low : Extended) ≠ x) (hhigh : IsLeast (above x) high) (hmay : nextHigher = true)
    (hlimit : high ≤ 800) : Prescribed nextHigher (some x) high
  | lower {x : Extended} {low : ℕ} (hlow : IsGreatest (upTo x) low) (hne : (low : Extended) ≠ x)
    (hnone : ∀ high, IsLeast (above x) high → nextHigher = true → 800 < high) :
    Prescribed nextHigher (some x) low

/-! ## The table -/

theorem isWhole_ofNat : ∀ r ∈ standard, IsWhole r (Float.ofNat r).toModel.unpack := by
  decide +kernel

theorem standard_pairwise : standard.Pairwise (· < ·) := by decide

theorem least_le {r : ℕ} (h : r ∈ standard) : 15 ≤ r := by
  revert r
  decide

variable {x y : Extended} {r s t : ℕ} {nextHigher : Bool}

theorem lt_of_mem_upTo (hr : r ∈ upTo x) (hs : s ∈ above x) : r < s :=
  Nat.cast_lt.mp (hr.2.trans_lt hs.2)

theorem mem_upTo_or_mem_above (x : Extended) (h : r ∈ standard) : r ∈ upTo x ∨ r ∈ above x :=
  (le_or_gt (r : Extended) x).imp (⟨h, ·⟩) (⟨h, ·⟩)

/-! ## A cut through the table -/

section Cut

variable {below passed : List ℕ} (hsplit : below ++ r :: passed = standard)
  (hle : (r : Extended) ≤ x) (hpassed : ∀ s ∈ passed, x < s)

include hsplit hle hpassed

theorem above_eq_of_cut : above x = {s | s ∈ passed} := by
  ext s
  constructor
  · rintro ⟨hs, hlt⟩
    rw [← hsplit, List.mem_append, List.mem_cons] at hs
    rcases hs with h | rfl | h
    · have hsorted := standard_pairwise
      rw [← hsplit, List.pairwise_append] at hsorted
      have hsr : (s : Extended) < r := Nat.cast_lt.mpr (hsorted.2.2 s h r List.mem_cons_self)
      exact absurd (hlt.trans hsr) (not_lt.mpr hle)
    · exact absurd hlt (not_lt.mpr hle)
    · exact h
  · intro hs
    refine ⟨?_, hpassed s hs⟩
    rw [← hsplit]
    exact List.mem_append_right _ (List.mem_cons_of_mem r hs)

theorem isLeast_above_iff_of_cut : IsLeast (above x) s ↔ passed.head? = some s := by
  have hsorted := standard_pairwise
  rw [← hsplit, List.pairwise_append, List.pairwise_cons] at hsorted
  obtain ⟨-, ⟨-, hsorted⟩, -⟩ := hsorted
  rw [above_eq_of_cut hsplit hle hpassed]
  cases passed with
  | nil => exact iff_of_false (fun h => nomatch h.1) nofun
  | cons high rest =>
    have hhigh : IsLeast {s | s ∈ high :: rest} high := by
      refine ⟨List.mem_cons_self, fun t ht => ?_⟩
      rcases List.mem_cons.mp ht with rfl | ht
      · exact le_rfl
      · exact ((List.pairwise_cons.mp hsorted).1 t ht).le
    exact ⟨fun h => congrArg some (hhigh.unique h), fun h => Option.some.inj h ▸ hhigh⟩

theorem isGreatest_upTo_of_cut : IsGreatest (upTo x) r := by
  have hsorted := standard_pairwise
  rw [← hsplit, List.pairwise_append] at hsorted
  refine ⟨⟨hsplit ▸ List.mem_append_right _ List.mem_cons_self, hle⟩, fun s hs => ?_⟩
  have hmem := hs.1
  rw [← hsplit, List.mem_append, List.mem_cons] at hmem
  rcases hmem with h | rfl | h
  · exact (hsorted.2.2 s h r List.mem_cons_self).le
  · exact le_rfl
  · exact absurd (hpassed s h) (not_lt.mpr hs.2)

end Cut

/-! ## The scan -/

theorem prescribed_between {low : ℕ} {higher : Option ℕ} (hlow : IsGreatest (upTo x) low)
    (hne : (low : Extended) ≠ x) (hhigher : ∀ s, IsLeast (above x) s ↔ higher = some s) :
    Prescribed nextHigher (some x) (between nextHigher low higher) := by
  cases higher with
  | none => exact .lower hlow hne fun s hs => nomatch (hhigher s).mp hs
  | some high =>
    rw [between]
    split
    · rename_i hmay
      exact .higher hlow hne ((hhigher high).mpr rfl) hmay.2 hmay.1
    · rename_i hmay
      refine .lower hlow hne fun s hs hnext => ?_
      rw [Option.some.inj ((hhigher s).mp hs)] at hmay
      exact not_le.mp fun hle => hmay ⟨hle, hnext⟩

theorem scan_of_not_number {a : Float} (ha : value? a = none) (higher : Option ℕ) (l : List ℕ)
    (hl : l ⊆ standard) : scan a nextHigher higher l = 15 := by
  induction l generalizing higher with
  | nil => rfl
  | cons r lower ih =>
    have hr := isWhole_ofNat r (hl List.mem_cons_self)
    have heq : ¬ Float.ofNat r == a := by simp [hr.beq_iff, ha]
    have hlt : ¬ Float.ofNat r < a := by simp [hr.lt_iff, ha]
    rw [scan, if_neg heq, if_neg hlt]
    exact ih _ fun s hs => hl (List.mem_cons_of_mem r hs)

/-- The ratings that were looked at are above the ampacity. Where the scan stops, it is at the
prescribed rating or next to it. -/
theorem prescribed_scan {a : Float} (ha : value? a = some x) (l passed : List ℕ)
    (hall : l.reverse ++ passed = standard) (hpassed : ∀ s ∈ passed, x < s) :
    Prescribed nextHigher (some x) (scan a nextHigher passed.head? l) := by
  induction l generalizing passed with
  | nil =>
    have hleast : 15 ∈ passed := by
      rw [← List.nil_append passed, ← List.reverse_nil, hall]
      decide
    exact .tooSmall (hpassed 15 hleast)
  | cons r lower ih =>
    have hsplit : lower.reverse ++ r :: passed = standard := by simpa using hall
    have hr := isWhole_ofNat r (hsplit ▸ List.mem_append_right _ List.mem_cons_self)
    have hgreatest (hle : (r : Extended) ≤ x) := isGreatest_upTo_of_cut hsplit hle hpassed
    rw [scan]
    split
    · rename_i heq
      have hx : x = r := Option.some.inj (ha.symm.trans ((hr.beq_iff a).mp heq))
      exact .equal (hgreatest hx.ge) hx.symm
    · rename_i hne
      have hne : (r : Extended) ≠ x := fun h => hne ((hr.beq_iff a).mpr (h ▸ ha))
      split
      · rename_i hlt
        have hlt : (r : Extended) < x := by
          obtain ⟨z, hz, hlt⟩ := (hr.lt_iff a).mp hlt
          exact Option.some.inj (hz.symm.trans ha) ▸ hlt
        exact prescribed_between (hgreatest hlt.le) hne
          fun s => isLeast_above_iff_of_cut hsplit hlt.le hpassed
      · rename_i hlt
        have hnot : ¬ (r : Extended) < x := fun h => hlt ((hr.lt_iff a).mpr ⟨x, ha, h⟩)
        refine ih (r :: passed) hsplit fun s hs => ?_
        rcases List.mem_cons.mp hs with rfl | hs
        · exact lt_of_le_of_ne (not_lt.mp hnot) hne.symm
        · exact hpassed s hs

/-- The rating that is selected is the prescribed one. -/
theorem prescribed_select (a : Float) (nextHigher : Bool) :
    Prescribed nextHigher (value? a) (select a nextHigher) := by
  cases ha : value? a with
  | none =>
    have hscan : select a nextHigher = 15 :=
      scan_of_not_number ha none standard.reverse (List.reverse_subset.mpr (List.Subset.refl _))
    rw [hscan]
    exact .notANumber
  | some x => exact prescribed_scan ha standard.reverse [] (by simp) nofun

/-! ## What follows from the prescription -/

theorem not_lt_of_mem_upTo (h : r ∈ upTo x) : ¬ x < 15 :=
  not_lt.mpr ((Nat.cast_le.mpr (least_le h.1)).trans h.2)

namespace Prescribed

/-- Only one rating is prescribed. -/
theorem unique {o : Option Extended} (hr : Prescribed nextHigher o r)
    (hs : Prescribed nextHigher o s) : r = s := by
  cases hr with
  | notANumber =>
    cases hs
    rfl
  | tooSmall hx =>
    cases hs with
    | tooSmall _ => rfl
    | equal hlow _ | higher hlow _ _ _ _ | lower hlow _ _ =>
      exact absurd hx (not_lt_of_mem_upTo hlow.1)
  | equal hr heq =>
    cases hs with
    | tooSmall hx => exact absurd hx (not_lt_of_mem_upTo hr.1)
    | equal hs _ => exact hr.unique hs
    | higher hs hne _ _ _ | lower hs hne _ => exact absurd (hr.unique hs ▸ heq) hne
  | higher hr hne hhigh hmay hlimit =>
    cases hs with
    | tooSmall hx => exact absurd hx (not_lt_of_mem_upTo hr.1)
    | equal hs heq => exact absurd (hs.unique hr ▸ heq) hne
    | higher _ _ hhigh' _ _ => exact hhigh.unique hhigh'
    | lower _ _ hnone => exact absurd hlimit (not_le.mpr (hnone _ hhigh hmay))
  | lower hr hne hnone =>
    cases hs with
    | tooSmall hx => exact absurd hx (not_lt_of_mem_upTo hr.1)
    | equal hs heq => exact absurd (hs.unique hr ▸ heq) hne
    | higher _ _ hhigh hmay hlimit => exact absurd hlimit (not_le.mpr (hnone _ hhigh hmay))
    | lower hs _ _ => exact hr.unique hs

theorem mem_standard {o : Option Extended} (h : Prescribed nextHigher o r) : r ∈ standard := by
  cases h with
  | notANumber | tooSmall _ => decide
  | equal hlow _ | lower hlow _ _ => exact hlow.1.1
  | higher _ _ hhigh _ _ => exact hhigh.1.1

/-- No rating is passed over upwards. -/
theorem le_of_le (h : Prescribed nextHigher (some x) r) (ht : t ∈ standard)
    (hxt : x ≤ (t : Extended)) : r ≤ t := by
  cases h with
  | tooSmall _ => exact least_le ht
  | equal hlow _ | lower hlow _ _ => exact Nat.cast_le.mp (hlow.1.2.trans hxt)
  | higher hlow hne hhigh _ _ =>
    refine hhigh.2 ⟨ht, lt_of_le_of_ne hxt fun heq => hne ?_⟩
    have hle : t ≤ _ := hlow.2 ⟨ht, heq.ge⟩
    exact le_antisymm hlow.1.2 (heq.trans_le (Nat.cast_le.mpr hle))

/-- No rating is passed over downwards. -/
theorem le_of_ge (h : Prescribed nextHigher (some x) r) (ht : t ∈ standard)
    (htx : (t : Extended) ≤ x) : t ≤ r := by
  cases h with
  | tooSmall hx => exact absurd hx (not_lt_of_mem_upTo ⟨ht, htx⟩)
  | equal hlow _ | lower hlow _ _ => exact hlow.2 ⟨ht, htx⟩
  | higher _ _ hhigh _ _ => exact Nat.cast_le.mp (htx.trans hhigh.1.2.le)

/-- Between two ratings the same one is prescribed throughout. -/
theorem of_between (h : Prescribed nextHigher (some x) r) (hxy : x ≤ y)
    (hnone : ∀ t ∈ standard, ¬ (x ≤ t ∧ (t : Extended) ≤ y)) :
    Prescribed nextHigher (some y) r := by
  have hbelow : ∀ t ∈ standard, ((t : Extended) ≤ y ↔ (t : Extended) ≤ x) := fun t ht =>
    ⟨fun hty => le_of_not_ge fun hxt => hnone t ht ⟨hxt, hty⟩, fun htx => htx.trans hxy⟩
  have hupTo : upTo x = upTo y := Set.ext fun t => and_congr_right fun ht => (hbelow t ht).symm
  have habove : above x = above y :=
    Set.ext fun t => and_congr_right fun ht => lt_iff_lt_of_le_iff_le (hbelow t ht).symm
  have hne : ∀ t ∈ standard, (t : Extended) ≠ y := fun t ht he => hnone t ht ⟨he ▸ hxy, he.le⟩
  cases h with
  | tooSmall hx =>
    refine .tooSmall (lt_of_not_ge fun hy => hnone 15 (by decide) ⟨hx.le, hy⟩)
  | equal hlow heq => exact absurd ⟨heq.ge, heq.le.trans hxy⟩ (hnone r hlow.1.1)
  | higher hlow _ hhigh hmay hlimit =>
    exact .higher (hupTo ▸ hlow) (hne _ hlow.1.1) (habove ▸ hhigh) hmay hlimit
  | lower hlow _ hnext => exact .lower (hupTo ▸ hlow) (hne _ hlow.1.1) (habove ▸ hnext)

/-- More ampacity never makes for a lower rating. -/
theorem mono (hr : Prescribed nextHigher (some x) r) (hs : Prescribed nextHigher (some y) s)
    (hxy : x ≤ y) : r ≤ s := by
  by_cases hbetween : ∃ t ∈ standard, x ≤ t ∧ (t : Extended) ≤ y
  · obtain ⟨t, ht, hxt, hty⟩ := hbetween
    exact (hr.le_of_le ht hxt).trans (hs.le_of_ge ht hty)
  · push Not at hbetween
    have hnone : ∀ t ∈ standard, ¬ (x ≤ t ∧ (t : Extended) ≤ y) :=
      fun t ht h => absurd h.2 (not_le.mpr (hbetween t ht h.1))
    exact ((hr.of_between hxy hnone).unique hs).le

/-- A rating is prescribed for itself. -/
theorem of_mem_standard (h : r ∈ standard) : Prescribed nextHigher (some r) r :=
  .equal ⟨⟨h, le_rfl⟩, fun _ ht => Nat.cast_le.mp ht.2⟩ rfl

/-- Above the limit no device may exceed the ampacity. -/
theorem le_of_limit_lt (h : Prescribed nextHigher (some x) r) (hx : 800 < x) :
    (r : Extended) ≤ x := by
  cases h with
  | tooSmall hsmall =>
    have hlt : (15 : Extended) < 800 := by
      change ((15 : ℕ) : Extended) < (800 : ℕ)
      exact Nat.cast_lt.mpr (by decide)
    exact absurd (hx.trans hsmall) (not_lt.mpr hlt.le)
  | equal hlow _ | lower hlow _ _ => exact hlow.1.2
  | higher _ _ _ _ hlimit =>
    have hle : (r : Extended) ≤ (800 : ℕ) := Nat.cast_le.mpr hlimit
    exact hle.trans hx.le

theorem unrounded {low : ℕ} (hlow : IsGreatest (upTo x) low) (hne : (low : Extended) ≠ x) :
    Prescribed false (some x) low :=
  .lower hlow hne fun _ _ h => nomatch h

/-- Where the next higher rating may be used, the rating is the one without, or the next. -/
theorem eq_or_next {o : Option Extended} (hr : Prescribed true o r) (hs : Prescribed false o s) :
    r = s ∨ IsLeast {t | t ∈ standard ∧ s < t} r := by
  cases hr with
  | notANumber => exact .inl (Prescribed.notANumber.unique hs)
  | tooSmall hx => exact .inl ((Prescribed.tooSmall hx).unique hs)
  | equal hlow heq => exact .inl ((Prescribed.equal hlow heq).unique hs)
  | lower hlow hne _ => exact .inl ((Prescribed.unrounded hlow hne).unique hs)
  | higher hlow hne hhigh _ _ =>
    obtain rfl := (Prescribed.unrounded hlow hne).unique hs
    refine .inr ⟨⟨hhigh.1.1, lt_of_mem_upTo hlow.1 hhigh.1⟩, fun t ht => ?_⟩
    rcases mem_upTo_or_mem_above _ ht.1 with h | h
    · exact absurd (hlow.2 h) (not_le.mpr ht.2)
    · exact hhigh.2 h

end Prescribed

/-- **Ratings.** Every double gets the rating that is prescribed for its exact value and no other.
So the rating is a standard one, grows with the ampacity, is a standard ampacity itself, and never
exceeds an ampacity above 800. Leave to use the next higher rating leads to the next one at most. -/
theorem select_eq_iff_prescribed (a : Float) (nextHigher : Bool) :
    (∀ r, select a nextHigher = r ↔ Prescribed nextHigher (value? a) r) ∧
      select a nextHigher ∈ standard ∧
      (∀ b x y, value? a = some x → value? b = some y → x ≤ y →
        select a nextHigher ≤ select b nextHigher) ∧
      (∀ r ∈ standard, value? a = some (r : Extended) → select a nextHigher = r) ∧
      (∀ r ∈ standard, value? (Float.ofNat r) = some (r : Extended) ∧
        select (Float.ofNat r) nextHigher = r) ∧
      (∀ x, value? a = some x → 800 < x → (select a nextHigher : Extended) ≤ x) ∧
      (select a true = select a false ∨
        IsLeast {r | r ∈ standard ∧ select a false < r} (select a true)) := by
  have hselect : ∀ b, Prescribed nextHigher (value? b) (select b nextHigher) :=
    fun b => prescribed_select b nextHigher
  have hfixed : ∀ b, ∀ r ∈ standard, value? b = some (r : Extended) → select b nextHigher = r :=
    fun b r hr hb => (hb ▸ hselect b).unique (.of_mem_standard hr)
  refine ⟨fun r => ⟨fun h => h ▸ hselect a, (hselect a).unique⟩, (hselect a).mem_standard, ?_,
    hfixed a, ?_, ?_, (prescribed_select a true).eq_or_next (prescribed_select a false)⟩
  · intro b x y hx hy hxy
    exact (hx ▸ hselect a).mono (hy ▸ hselect b) hxy
  · intro r hr
    have hvalue := (isWhole_ofNat r hr).value?_eq
    exact ⟨hvalue, hfixed _ r hr hvalue⟩
  · intro x hx hlimit
    exact (hx ▸ hselect a).le_of_limit_lt hlimit

/-- Between 800 and 1000 the next higher rating may not be used, whoever allows it. -/
theorem no_rounding_above_limit :
    value? 850 = some ((850 : ℕ) : Extended) ∧ 800 < ((850 : ℕ) : Extended) ∧
      (select 850 true : Extended) ≤ (850 : ℕ) ∧ select 850 true = 800 := by
  have hvalue : value? 850 = some ((850 : ℕ) : Extended) :=
    IsWhole.value?_eq (by decide +kernel)
  have hlimit : 800 < ((850 : ℕ) : Extended) := by
    change ((800 : ℕ) : Extended) < (850 : ℕ)
    exact Nat.cast_lt.mpr (by decide)
  exact ⟨hvalue, hlimit, (select_eq_iff_prescribed 850 true).2.2.2.2.2.1 _ hvalue hlimit,
    by decide +kernel⟩

end Rating

end Raceways
