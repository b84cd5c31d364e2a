import Mathlib.Algebra.Order.Field.Power
import Mathlib.Algebra.Order.Monoid.WithTop
import Mathlib.Algebra.Order.Ring.Cast
import Mathlib.Data.Rat.Cast.Order
import Mathlib.Order.Compare
import Mathlib.Tactic.GCongr
import Mathlib.Tactic.Positivity
import Mathlib.Tactic.Ring
import Raceways.Supply.Rating

/-!
Doubles by their exact values. A double is a sign, a mantissa and an exponent, and is compared with
another one by these. Where a whole number is compared with any double, this comes to a comparison
of the exact values, and a double that is not a number compares with nothing.
-/

namespace Raceways

/-- The rational numbers and both infinities. -/
abbrev Extended := WithBot (WithTop ℚ)

namespace Double

open Float.Model UnpackedFloat

def scaled (s : Sign) (m : ℕ) (e : ℤ) : ℚ := s.apply m * 2 ^ e

def number? : UnpackedFloat → Option Extended
  | .notANumber => none
  | .infinity .negative => some ⊥
  | .infinity .positive => some ⊤
  | .zero _ => some ((0 : ℚ) : WithTop ℚ)
  | .finite s m e _ => some (scaled s m e : WithTop ℚ)

/-- The exact value of a double, unless it is not a number. -/
def value? (a : Float) : Option Extended := number? a.toModel.unpack

/-! ## Mantissas and exponents -/

/-- A mantissa fills its 53 bits, unless the exponent is the least there is. -/
structure Normal (m : ℕ) (e : ℤ) : Prop where
  lt : m < 2 ^ 53
  least_le : -1074 ≤ e
  full : e ≠ -1074 → 2 ^ 52 ≤ m

theorem normal_of_unpack {a : Float.Model} {s : Sign} {m : ℕ} {e : ℤ} {h : 0 < m}
    (ha : a.unpack = .finite s m e h) : Normal m e := by
  unfold Float.Model.unpack UnpackedFloat.unpack at ha
  have hm := (@unpackMantissa Format.binary64 a.toBits.toBitVec).isLt
  change _ < 2 ^ 52 at hm
  dsimp only at ha
  by_cases hones : @unpackExponent Format.binary64 a.toBits.toBitVec = -1#11
  · rw [if_pos hones] at ha
    by_cases hnone : @unpackMantissa Format.binary64 a.toBits.toBitVec = 0#52
    · rw [if_pos hnone] at ha
      cases ha
    · rw [if_neg hnone] at ha
      cases ha
  · rw [if_neg hones] at ha
    by_cases hzero : @unpackExponent Format.binary64 a.toBits.toBitVec = 0#11
    · rw [if_pos hzero] at ha
      by_cases hnone : @unpackMantissa Format.binary64 a.toBits.toBitVec = 0#52
      · rw [dif_pos hnone] at ha
        cases ha
      · rw [dif_neg hnone] at ha
        cases ha
        rw [hzero]
        exact ⟨by omega, by decide, fun he => absurd rfl he⟩
    · rw [if_neg hzero] at ha
      cases ha
      -- the leading bit of the mantissa is not stored
      have hfull : (1#1 ++ @unpackMantissa Format.binary64 a.toBits.toBitVec).toNat =
          2 ^ 52 + (@unpackMantissa Format.binary64 a.toBits.toBitVec).toNat := by
        rw [BitVec.toNat_append, ← Nat.shiftLeft_add_eq_or_of_lt hm]
        rfl
      have he : (@unpackExponent Format.binary64 a.toBits.toBitVec).toNat ≠ 0 :=
        fun h => hzero (BitVec.eq_of_toNat_eq h)
      refine ⟨hfull ▸ by omega, ?_, fun _ => hfull ▸ by omega⟩
      change -1074 ≤
        ((@unpackExponent Format.binary64 a.toBits.toBitVec).toNat : ℤ) - 1075
      omega

theorem scaled_pos {m : ℕ} (hm : 0 < m) (e : ℤ) : 0 < scaled .positive m e := by
  change (0 : ℚ) < m * 2 ^ e
  positivity

theorem scaled_neg {m : ℕ} (hm : 0 < m) (e : ℤ) : scaled .negative m e < 0 := by
  have hneg : scaled .negative m e = - scaled .positive m e := by simp [scaled, Sign.apply]
  rw [hneg]
  exact neg_neg_of_pos (scaled_pos hm e)

/-- A greater exponent makes for a greater number, whatever the mantissas. -/
theorem scaled_lt_scaled {m n : ℕ} {d e : ℤ} (hm : Normal m d) (hn : Normal n e) (h : d < e) :
    scaled .positive m d < scaled .positive n e := by
  have hlt : (m : ℚ) < 2 ^ 53 := by exact_mod_cast hm.lt
  have hle : (2 : ℚ) ^ 52 ≤ n := by
    have hd := hm.least_le
    exact_mod_cast hn.full (by omega)
  have hpow : (2 : ℚ) ^ (d + 1) ≤ 2 ^ e := zpow_le_zpow_right₀ one_le_two h
  calc (m : ℚ) * 2 ^ d < 2 ^ 53 * 2 ^ d := by gcongr
    _ = 2 ^ 52 * 2 ^ (d + 1) := by rw [zpow_add_one₀ two_ne_zero]; ring
    _ ≤ 2 ^ 52 * 2 ^ e := by gcongr
    _ ≤ n * 2 ^ e := by gcongr

theorem compare_scaled {m n : ℕ} {d e : ℤ} (hm : Normal m d) (hn : Normal n e) :
    (compare d e).then (compare m n) = cmp (scaled .positive m d) (scaled .positive n e) := by
  rcases lt_trichotomy d e with h | rfl | h
  · rw [Int.compare_eq_lt.mpr h, (cmp_eq_lt_iff _ _).mpr (scaled_lt_scaled hm hn h)]
    rfl
  · have hpos : (0 : ℚ) < 2 ^ d := by positivity
    have hcast : cmp (m : ℚ) n = cmp m n := Nat.strictMono_cast.cmp_map_eq m n
    rw [Int.compare_eq_eq.mpr rfl]
    exact (cmp_eq_compare m n).symm.trans (hcast.symm.trans (cmp_mul_pos_right hpos _ _).symm)
  · rw [Int.compare_eq_gt.mpr h, (cmp_eq_gt_iff _ _).mpr (scaled_lt_scaled hn hm h)]
    rfl

theorem cmp_coe (x y : ℚ) : cmp ((x : WithTop ℚ) : Extended) (y : WithTop ℚ) = cmp x y :=
  (WithBot.coe_strictMono.comp WithTop.coe_strictMono).cmp_map_eq x y

/-- A positive number is compared with any double by the exact value of it. -/
theorem compare_positive {m : ℕ} {e : ℤ} {h : 0 < m} (hm : Normal m e) (a : Float.Model) :
    (finite .positive m e h).compare a.unpack =
      (number? a.unpack).map (cmp ((scaled .positive m e : WithTop ℚ) : Extended)) := by
  cases ha : a.unpack with
  | notANumber => rfl
  | infinity s =>
    cases s with
    | negative => exact congrArg some ((cmp_eq_gt_iff _ _).mpr (WithBot.bot_lt_coe _)).symm
    | positive =>
      have htop : ((scaled .positive m e : WithTop ℚ) : Extended) < (⊤ : WithTop ℚ) :=
        WithBot.coe_lt_coe.mpr (WithTop.coe_lt_top _)
      exact congrArg some ((cmp_eq_lt_iff _ _).mpr htop).symm
  | zero s =>
    have hcmp := (cmp_coe _ _).trans ((cmp_eq_gt_iff _ _).mpr (scaled_pos h e))
    exact congrArg some hcmp.symm
  | finite s n d hn =>
    cases s with
    | negative =>
      have hlt := (scaled_neg hn d).trans (scaled_pos h e)
      exact congrArg some ((cmp_coe _ _).trans ((cmp_eq_gt_iff _ _).mpr hlt)).symm
    | positive =>
      have hcmp := compare_scaled hm (normal_of_unpack ha)
      exact congrArg some (hcmp.trans (cmp_coe _ _).symm)

/-! ## Whole numbers -/

/-- The parts of a whole number of at most 53 bits: it is shifted until the mantissa is full. -/
def IsWhole (n : ℕ) : UnpackedFloat → Prop
  | .finite .positive m e _ => m = n * 2 ^ (52 - n.log2) ∧ e = -(52 - n.log2 : ℕ)
  | _ => False

instance (n : ℕ) (u : UnpackedFloat) : Decidable (IsWhole n u) := by
  unfold IsWhole
  split <;> infer_instance

namespace IsWhole

variable {n : ℕ} {b : Float}

theorem exists_scaled (h : IsWhole n b.toModel.unpack) :
    ∃ m e hm, b.toModel.unpack = .finite .positive m e hm ∧ scaled .positive m e = n := by
  cases hb : b.toModel.unpack with
  | finite s m e hm =>
    rw [hb] at h
    cases s with
    | positive =>
      obtain ⟨rfl, rfl⟩ := h
      refine ⟨_, _, hm, rfl, ?_⟩
      change (((n * 2 ^ (52 - n.log2) : ℕ) : ℤ) : ℚ) * 2 ^ (-((52 - n.log2 : ℕ) : ℤ)) = n
      push_cast
      rw [zpow_neg, zpow_natCast, mul_assoc, mul_inv_cancel₀ (by positivity), mul_one]
    | negative => exact h.elim
  | zero s =>
    rw [hb] at h
    exact h.elim
  | infinity s =>
    rw [hb] at h
    exact h.elim
  | notANumber =>
    rw [hb] at h
    exact h.elim

theorem value?_eq (h : IsWhole n b.toModel.unpack) : value? b = some (n : Extended) := by
  obtain ⟨m, e, hm, hb, hn⟩ := h.exists_scaled
  unfold value?
  rw [hb]
  change some ((scaled .positive m e : WithTop ℚ) : Extended) = _
  rw [hn]
  rfl

theorem compare (h : IsWhole n b.toModel.unpack) (a : Float) :
    b.toModel.unpack.compare a.toModel.unpack = (value? a).map (cmp (n : Extended)) := by
  obtain ⟨m, e, hm, hb, hn⟩ := h.exists_scaled
  rw [hb, compare_positive (normal_of_unpack hb), hn]
  rfl

theorem beq_iff (h : IsWhole n b.toModel.unpack) (a : Float) :
    b == a ↔ value? a = some (n : Extended) := by
  change (b.toModel.unpack.compare a.toModel.unpack == some .eq) = true ↔ _
  rw [h.compare]
  cases value? a with
  | none => exact iff_of_false nofun nofun
  | some x =>
    rw [Option.map_some, beq_iff_eq, Option.some_inj, Option.some_inj, cmp_eq_eq_iff]
    exact eq_comm

theorem lt_iff (h : IsWhole n b.toModel.unpack) (a : Float) :
    b < a ↔ ∃ x, value? a = some x ∧ (n : Extended) < x := by
  change decide ((b.toModel.unpack.compare a.toModel.unpack == some .lt) = true) = true ↔ _
  rw [h.compare, decide_eq_true_iff]
  cases value? a with
  | none => exact iff_of_false nofun nofun
  | some x =>
    rw [Option.map_some, beq_iff_eq, Option.some_inj, cmp_eq_lt_iff]
    constructor
    · exact fun h => ⟨x, rfl, h⟩
    · rintro ⟨y, hy, h⟩
      cases hy
      exact h

end IsWhole

end Double

end Raceways
