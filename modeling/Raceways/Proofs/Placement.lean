import Raceways.Circuit.Change
import Raceways.Proofs.Contents

/-!
Where the items of a circuit can be. The private raceways of a circuit and the shared ones of
its site are looked at in one way, so that a change of what is in a raceway has one law.
-/

namespace Raceways

theorem Conduit.eq_iff (k l : Conduit) :
    k = l ↔ k.toConduitSpec = l.toConduitSpec ∧ k.contents = l.contents := by
  cases k
  cases l
  simp

theorem Bundle.eq_iff (b d : Bundle) :
    b = d ↔ b.distance = d.distance ∧ b.contents = d.contents := by
  cases b
  cases d
  simp

namespace Site

/-- A shared raceway with everything that is in it. -/
def raceway? (s : Site) : SharedRaceway → Option (Conduit ⊕ Bundle)
  | .conduit n => s.conduits[n]?.map Sum.inl
  | .bundle n => s.bundles[n]?.map Sum.inr

/-- What is said of a shared raceway apart from what is in it. -/
def fittings? (s : Site) : SharedRaceway → Option (ConduitSpec ⊕ Float)
  | .conduit n => s.conduits[n]?.map fun k => .inl k.toConduitSpec
  | .bundle n => s.bundles[n]?.map fun b => .inr b.distance

/-- The copy of an item that a shared raceway holds. -/
def copy? (s : Site) (r : SharedRaceway) (id : Nat) : Option Item :=
  (s.contents? r).bind fun c => c.find? (id : Int)

theorem raceway?_eq_iff (s t : Site) (r : SharedRaceway) :
    s.raceway? r = t.raceway? r ↔
      s.fittings? r = t.fittings? r ∧ s.contents? r = t.contents? r := by
  cases r with
  | conduit n =>
    simp only [raceway?, fittings?, contents?]
    cases s.conduits[n]? <;> cases t.conduits[n]? <;> simp [Conduit.eq_iff]
  | bundle n =>
    simp only [raceway?, fittings?, contents?]
    cases s.bundles[n]? <;> cases t.bundles[n]? <;> simp [Bundle.eq_iff]

theorem contents?_updateContents (r q : SharedRaceway) (f : Contents → Contents) (s : Site) :
    (s.updateContents r f).contents? q =
      if r = q then (s.contents? q).map f else s.contents? q := by
  split
  · rename_i h
    rw [← h, contents?_updateContents_self]
  · rename_i h
    exact contents?_updateContents_of_ne h f s

@[simp] theorem fittings?_updateContents (r q : SharedRaceway) (f : Contents → Contents)
    (s : Site) : (s.updateContents r f).fittings? q = s.fittings? q := by
  cases r with
  | conduit n =>
    cases q with
    | conduit k =>
      by_cases h : n = k
      · simp [updateContents, updateConduit, fittings?, Conduit.withContents, h, Function.comp_def]
      · simp [updateContents, updateConduit, fittings?, h]
    | bundle k => rfl
  | bundle n =>
    cases q with
    | conduit k => rfl
    | bundle k =>
      by_cases h : n = k
      · simp [updateContents, updateBundle, fittings?, Bundle.withContents, h, Function.comp_def]
      · simp [updateContents, updateBundle, fittings?, h]

@[simp] theorem contents?_issue (s : Site) (n : Nat) (r : SharedRaceway) :
    (s.issue n).contents? r = s.contents? r := by
  cases r <;> rfl

@[simp] theorem fittings?_issue (s : Site) (n : Nat) (r : SharedRaceway) :
    (s.issue n).fittings? r = s.fittings? r := by
  cases r <;> rfl

end Site

namespace Job

/-- What is in the raceway that a routing leads to. There is none in free air. -/
def within? (j : Job) : Routing → Option Contents
  | .freeAir => none
  | .privateConduit => some j.circuit.conduit.contents
  | .privateBundle => some j.circuit.bundle.contents
  | .shared r => j.site.contents? r

theorem within?_updateRaceway (f : Contents → Contents) (j : Job) (q : Routing) :
    (j.updateRaceway f).within? q =
      if j.circuit.routing = q then (j.within? q).map f else j.within? q := by
  simp only [updateRaceway]
  split
  · rename_i hr
    rw [hr]
    cases q <;> rfl
  · rename_i hr
    rw [hr]
    cases q <;> rfl
  · rename_i hr
    rw [hr]
    cases q <;> rfl
  · rename_i r hr
    rw [hr]
    cases q with
    | shared q => simp [within?, Site.contents?_updateContents]
    | _ => rfl

end Job

end Raceways
