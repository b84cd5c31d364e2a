import Raceways.Raceway.Bundle
import Raceways.Raceway.Conduit

/-!
What the circuits of an installation have in common: the shared raceways, which are numbered as
they are put up and never taken down, and the ids that items are told apart by.
-/

namespace Raceways

/-- A shared raceway, by its kind and number. -/
inductive SharedRaceway where
  | conduit (n : Nat)
  | bundle (n : Nat)
  deriving DecidableEq

/-- Every id below `nextId` is taken. -/
structure Site where
  conduits : List Conduit := []
  bundles : List Bundle := []
  nextId : Nat := 1
  deriving DecidableEq

namespace Site

def contents? (s : Site) : SharedRaceway → Option Contents
  | .conduit n => s.conduits[n]?.map (·.contents)
  | .bundle n => s.bundles[n]?.map (·.contents)

def updateConduit (n : Nat) (f : Conduit → Conduit) (s : Site) : Site :=
  { s with conduits := s.conduits.modify n f }

def updateBundle (n : Nat) (f : Bundle → Bundle) (s : Site) : Site :=
  { s with bundles := s.bundles.modify n f }

/-- Changes what is in a shared raceway and nothing else. -/
def updateContents (r : SharedRaceway) (f : Contents → Contents) (s : Site) : Site :=
  match r with
  | .conduit n => s.updateConduit n (fun k => k.withContents (f k.contents))
  | .bundle n => s.updateBundle n (fun b => b.withContents (f b.contents))

/-- Takes the next ids. -/
def issue (count : Nat) (s : Site) : Site := { s with nextId := s.nextId + count }

@[simp] theorem nextId_updateContents (r : SharedRaceway) (f : Contents → Contents) (s : Site) :
    (s.updateContents r f).nextId = s.nextId := by
  cases r <;> rfl

theorem contents?_updateContents_self (r : SharedRaceway) (f : Contents → Contents) (s : Site) :
    (s.updateContents r f).contents? r = (s.contents? r).map f := by
  cases r <;>
    simp [updateContents, updateConduit, updateBundle, contents?, Conduit.withContents,
      Bundle.withContents, Function.comp_def]

theorem contents?_updateContents_of_ne {r q : SharedRaceway} (h : r ≠ q)
    (f : Contents → Contents) (s : Site) :
    (s.updateContents r f).contents? q = s.contents? q := by
  cases r <;> cases q <;>
    simp_all [updateContents, updateConduit, updateBundle, contents?]

end Site

end Raceways
