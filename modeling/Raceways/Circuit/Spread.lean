import Raceways.Word

/-!
How the parallel sets of a circuit are spread over its conduits: every conduit has the same
number of sets, so the number of conduits is a divisor of the number of sets. The searches for
another number of conduits are also written out in words.
-/

namespace Raceways

structure Spread where
  sets : Nat := 1
  conduits : Nat := 1
  setsPerConduit : Nat := 1
  deriving DecidableEq

namespace Spread

/-- One set in each conduit. -/
def onePerConduit (sets : Nat) : Spread := ⟨sets, sets, 1⟩

/-- The same sets over another number of conduits. -/
def across (s : Spread) (conduits : Nat) : Spread := ⟨s.sets, conduits, s.sets / conduits⟩

/-- The least divisor of `n` among the next `room` numbers after `k`. -/
def nextDivisor? (n : Nat) : Nat → Nat → Option Nat
  | 0, _ => none
  | room + 1, k => if n % (k + 1) = 0 then some (k + 1) else nextDivisor? n room (k + 1)

/-- The greatest positive divisor of `n` below `k`. -/
def previousDivisor? (n : Nat) : Nat → Option Nat
  | 0 => none
  | k + 1 => if 0 < k ∧ n % k = 0 then some k else previousDivisor? n k

/-- Over the next larger number of conduits that the sets can be spread over. -/
def wider? (s : Spread) : Option Spread :=
  (nextDivisor? s.sets (s.sets - s.conduits) s.conduits).map s.across

/-- Over the next smaller number of conduits that the sets can be spread over. -/
def narrower? (s : Spread) : Option Spread := (previousDivisor? s.sets s.conduits).map s.across

theorem nextDivisor?_eq_some_iff {n room k d : Nat} :
    nextDivisor? n room k = some d ↔
      (k < d ∧ d ≤ k + room ∧ n % d = 0) ∧ ∀ j, k < j → j < d → n % j ≠ 0 := by
  induction room generalizing k with
  | zero =>
    simp only [nextDivisor?, reduceCtorEq, false_iff]
    rintro ⟨⟨h, h', _⟩, _⟩
    omega
  | succ room ih =>
    unfold nextDivisor?
    split
    · rename_i hk
      constructor
      · intro h
        cases h
        exact ⟨⟨by omega, by omega, hk⟩, fun j _ _ => by omega⟩
      · rintro ⟨⟨h, _, _⟩, hmin⟩
        by_cases hd : d = k + 1
        · rw [hd]
        · exact absurd hk (hmin (k + 1) (by omega) (by omega))
    · rename_i hk
      rw [ih]
      constructor
      · rintro ⟨⟨h, h', hd⟩, hmin⟩
        refine ⟨⟨by omega, by omega, hd⟩, fun j hj hjd => ?_⟩
        by_cases hjk : j = k + 1
        · rw [hjk]
          exact hk
        · exact hmin j (by omega) hjd
      · rintro ⟨⟨h, h', hd⟩, hmin⟩
        have hne : d ≠ k + 1 := fun he => hk (he ▸ hd)
        exact ⟨⟨by omega, by omega, hd⟩, fun j hj hjd => hmin j (by omega) hjd⟩

theorem previousDivisor?_eq_some_iff {n k d : Nat} :
    previousDivisor? n k = some d ↔
      (0 < d ∧ d < k ∧ n % d = 0) ∧ ∀ j, d < j → j < k → n % j ≠ 0 := by
  induction k with
  | zero =>
    simp only [previousDivisor?, reduceCtorEq, false_iff]
    rintro ⟨⟨_, h, _⟩, _⟩
    omega
  | succ k ih =>
    unfold previousDivisor?
    split
    · rename_i hk
      constructor
      · intro h
        cases h
        exact ⟨⟨hk.1, by omega, hk.2⟩, fun j _ _ => by omega⟩
      · rintro ⟨⟨h, h', _⟩, hmax⟩
        by_cases hd : d = k
        · rw [hd]
        · exact absurd hk.2 (hmax k (by omega) (by omega))
    · rename_i hk
      rw [ih]
      constructor
      · rintro ⟨⟨h, h', hd⟩, hmax⟩
        refine ⟨⟨h, by omega, hd⟩, fun j hj hjk => ?_⟩
        by_cases hjk' : j = k
        · rw [hjk']
          exact fun h0 => hk ⟨by omega, h0⟩
        · exact hmax j hj (by omega)
      · rintro ⟨⟨h, h', hd⟩, hmax⟩
        have hne : d ≠ k := fun he => hk ⟨by omega, he ▸ hd⟩
        exact ⟨⟨h, by omega, hd⟩, fun j hj hjk => hmax j hj (by omega)⟩

/-! ## In words -/

/-- The search for a divisor of `n` among the next `room` numbers after `k`, in words. -/
def seekAbove (n : Nat) : Nat → Nat → Except Word.Fault (Option Nat)
  | 0, _ => .ok none
  | room + 1, k => do
    let next ← Word.succ k
    let r ← Word.rem n next
    if r = 0 then return some next else seekAbove n room next

/-- The search for a divisor of `n` among the `room` numbers before `k`, in words. -/
def seekBelow (n : Nat) : Nat → Nat → Except Word.Fault (Option Nat)
  | 0, _ => .ok none
  | room + 1, k => do
    let next ← Word.pred k
    let r ← Word.rem n next
    if r = 0 then return some next else seekBelow n room next

/-- The same sets over a number of conduits that was sought, in words. -/
def acrossInWords (s : Spread) : Option Nat → Except Word.Fault (Option Spread)
  | none => .ok none
  | some d => do
    let setsPerConduit ← Word.quot s.sets d
    return some ⟨s.sets, d, setsPerConduit⟩

/-- The search for the next larger number of conduits, in words. The number after the present one
is counted first, whether or not it is tried. -/
def widerInWords (s : Spread) : Except Word.Fault (Option Spread) := do
  let _ ← Word.succ s.conduits
  let found ← seekAbove s.sets (s.sets - s.conduits) s.conduits
  s.acrossInWords found

/-- The search for the next smaller number of conduits, in words. -/
def narrowerInWords (s : Spread) : Except Word.Fault (Option Spread) := do
  let found ← seekBelow s.sets (s.conduits - 1) s.conduits
  s.acrossInWords found

theorem seekAbove_eq {n : Nat} (hn : n < Word.limit) (room : Nat) {k : Nat} (hk : k + room ≤ n) :
    seekAbove n room k = .ok (nextDivisor? n room k) := by
  induction room generalizing k with
  | zero => rfl
  | succ room ih =>
    have hnext : Word.succ k = .ok (k + 1) := Word.succ_eq (by omega)
    have hrem : Word.rem n (k + 1) = .ok (n % (k + 1)) := Word.rem_eq n (Nat.succ_pos k)
    simp only [seekAbove, nextDivisor?, hnext, hrem, bind, Except.bind]
    split
    · rfl
    · exact ih (by omega)

theorem seekBelow_eq (n room : Nat) :
    seekBelow n room (room + 1) = .ok (previousDivisor? n (room + 1)) := by
  induction room with
  | zero => rfl
  | succ room ih =>
    have hrem : Word.rem n (room + 1) = .ok (n % (room + 1)) := Word.rem_eq n (Nat.succ_pos room)
    rw [previousDivisor?]
    simp only [seekBelow, Word.pred_succ, hrem, bind, Except.bind, Nat.succ_pos, true_and]
    split
    · rfl
    · exact ih

theorem acrossInWords_eq (s : Spread) {found : Option Nat} (h : ∀ d, found = some d → 0 < d) :
    s.acrossInWords found = .ok (found.map s.across) := by
  cases found with
  | none => rfl
  | some d =>
    simp only [acrossInWords, Word.quot_eq s.sets (h d rfl), bind, Except.bind]
    rfl

end Spread

end Raceways
