import Raceways.Supply.Load

/-! Standard ratings of overcurrent devices (NEC 240.6(A)), and the choice among them. -/

namespace Raceways

namespace Rating

/-- The standard ampere ratings in ascending order. -/
def standard : List Nat :=
  [15, 20, 25, 30, 35, 40, 45, 50, 60, 70, 80, 90, 100, 110, 125, 150, 175, 200, 225, 250, 300,
    350, 400, 450, 500, 600, 700, 800, 1000, 1200, 1600, 2000, 2500, 3000, 4000, 5000, 6000]

def least : Nat := 15

/-- Above this rating a device is never rounded up (NEC 240.4(B)(3)). -/
def roundingLimit : Nat := 800

/-- The rating for an ampacity between a rating and the next higher one, if there is one. -/
def between (nextHigher : Bool) (low : Nat) : Option Nat → Nat
  | some high => if high ≤ roundingLimit ∧ nextHigher then high else low
  | none => low

/-- Looks down the ratings for the first that an ampacity covers, with the one looked at before as
the next higher. Nothing is covered by an ampacity that is not a number. -/
def scan (a : Float) (nextHigher : Bool) (higher : Option Nat) : List Nat → Nat
  | [] => least
  | r :: lower =>
    if Float.ofNat r == a then r
    else if Float.ofNat r < a then between nextHigher r higher
    else scan a nextHigher (some r) lower

/-- The rating of a device for an ampacity: the one that equals it, else the next higher one
where that is allowed, else the next lower one. -/
def select (a : Float) (nextHigher : Bool) : Nat := scan a nextHigher none standard.reverse

end Rating

namespace Load

/-- The standard rating of the device that protects the load. -/
def rating (l : Load) : Nat := Rating.select l.target l.nextHigher

end Load

end Raceways
