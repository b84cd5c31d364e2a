/-!
Counting in words of 64 bits, which stops where a number does not fit a word or would be divided by
zero.
-/

namespace Raceways

namespace Word

/-- What a calculation in words stops at. -/
inductive Fault where
  | overflow
  | divisionByZero
  deriving DecidableEq

/-- The words are the numbers below this one. -/
def limit : Nat := UInt64.size

def succ (n : Nat) : Except Fault Nat :=
  if n + 1 < limit then .ok (n + 1) else .error .overflow

def pred (n : Nat) : Except Fault Nat := if n = 0 then .error .overflow else .ok (n - 1)

def quot (n d : Nat) : Except Fault Nat :=
  if d = 0 then .error .divisionByZero else .ok (n / d)

def rem (n d : Nat) : Except Fault Nat :=
  if d = 0 then .error .divisionByZero else .ok (n % d)

theorem succ_eq {n : Nat} (h : n + 1 < limit) : succ n = .ok (n + 1) := if_pos h

theorem pred_succ (n : Nat) : pred (n + 1) = .ok n := rfl

theorem quot_eq (n : Nat) {d : Nat} (h : 0 < d) : quot n d = .ok (n / d) :=
  if_neg (Nat.ne_of_gt h)

theorem rem_eq (n : Nat) {d : Nat} (h : 0 < d) : rem n d = .ok (n % d) :=
  if_neg (Nat.ne_of_gt h)

end Word

end Raceways
