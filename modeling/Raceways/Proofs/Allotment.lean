import Raceways.Proofs.Destination

/-!
Requests for a number of sets. Other sets than before get a conduit each, wherever the circuit runs
and however the old ones were spread. A request for as many sets as there are already is no request
to spread them anew.
-/

namespace Raceways

theorem Spread.Even.eq_onePerConduit {s : Spread} (h : s.Even) (htop : s.conduits = s.sets) :
    s = .onePerConduit s.sets := by
  rcases s with ⟨sets, conduits, setsPerConduit⟩
  have hper : conduits * setsPerConduit = conduits * 1 := by
    rw [Nat.mul_one]
    exact h.product.trans htop.symm
  obtain rfl : conduits = sets := htop
  obtain rfl : setsPerConduit = 1 := Nat.eq_of_mul_eq_mul_left h.conduits_pos hper
  rfl

namespace Circuit

/-- With one set in each conduit the items are one set of conductors, or one cable for each set. -/
theorem InShape.of_onePerConduit {c : Circuit} {n : Nat} (h : c.InShape)
    (hs : c.spread = .onePerConduit n) :
    (c.wiring = .conductors → c.items.map Item.role = c.layout.roles.map some) ∧
      (c.wiring = .cables → c.items.length = n ∧ ∀ i ∈ c.items, i.isCable) := by
  unfold InShape at h
  constructor
  · intro hw
    simp only [hw, hs, Spread.onePerConduit] at h
    simpa using h.1
  · intro hw
    simp only [hw, hs, Spread.onePerConduit] at h
    refine ⟨h.1, fun i hi => ?_⟩
    obtain ⟨id, rfl⟩ := h.2.1 i hi
    rfl

/-- **One set in each conduit.** A circuit that is asked for some number of sets has as many. If
they are not as many as before, or each had a conduit of its own already, then each has one now. If
they are as many as before, nothing at all has changed. -/
theorem sets_as_asked (load : Load) (nonlinear : Bool) (site : Site)
    (history : List (Site × Occurrence)) (s : Site) (log : List Event) (n : Nat) (hn : 1 ≤ n) :
    let c := (create load nonlinear site).circuit.after history
    let j := Job.apply (.setSets n) ⟨c, s, log⟩
    j.circuit.spread.sets = n ∧
      (n ≠ c.spread.sets ∨ c.spread.conduits = c.spread.sets →
        j.circuit.spread.conduits = n ∧ j.circuit.spread.setsPerConduit = 1 ∧
        (j.circuit.wiring = .conductors →
          j.circuit.items.map Item.role = j.circuit.layout.roles.map some) ∧
        (j.circuit.wiring = .cables →
          j.circuit.items.length = n ∧ ∀ i ∈ j.circuit.items, i.isCable)) ∧
      (n = c.spread.sets → j = ⟨c, s, log⟩) := by
  intro c j
  have hlived : c.Lived := ⟨load, nonlinear, site, history, rfl⟩
  have hshape : j.circuit.InShape :=
    (Job.settles_apply (.setSets n) (j := ⟨c, s, log⟩) hlived.shaped).shaped.inShape
  have hspread := Job.spread_setSets n ⟨c, s, log⟩
  refine ⟨?_, fun h => ?_, fun h => ?_⟩
  · exact (Job.sets_setSets n ⟨c, s, log⟩).trans (if_neg (by omega))
  · have hone : j.circuit.spread = .onePerConduit n := by
      refine hspread.trans ?_
      split
      · rename_i hsame
        have hsets : n = c.spread.sets := hsame.resolve_left (by omega)
        rw [hsets]
        exact hlived.shaped.even.eq_onePerConduit (h.resolve_left fun hne => hne hsets)
      · rfl
    refine ⟨by rw [hone]; rfl, by rw [hone]; rfl, ?_⟩
    exact hshape.of_onePerConduit hone
  · exact if_pos (Or.inr h)

/-- Two sets are put into one conduit. -/
def pairTogether : List (Site × Occurrence) := [({}, .change (.setSets 2)), ({}, .change .narrow)]

/-- Three sets are more than there were, so each has a conduit. -/
theorem third_set_brings_conduits :
    1 ≤ 3 ∧ ∀ s log,
      let load : Load := { system := .split120x240, ampacity := 16, verdict := some true }
      let c := (create load false {}).circuit.after pairTogether
      (Job.apply (.setSets 3) ⟨c, s, log⟩).circuit.spread.conduits = 3 := by
  refine ⟨by decide, fun s log => ?_⟩
  exact ((sets_as_asked { system := .split120x240, ampacity := 16, verdict := some true } false {}
    pairTogether s log 3 (by decide)).2.1 (Or.inl (by decide +kernel))).1

/-- Two sets are asked for where there are two in one conduit, and they stay there. -/
theorem pair_stays_together :
    let load : Load := { system := .split120x240, ampacity := 16, verdict := some true }
    let c := (create load false {}).circuit.after pairTogether
    let d := c.after [({}, .change (.setSets 2))]
    ¬ (d.spread.sets = 2 ∧ d.spread.conduits = 2 ∧ d.spread.setsPerConduit = 1) ∧
      d.spread = ⟨2, 1, 2⟩ ∧ d.items.map Item.role ≠ d.layout.roles.map some := by
  decide +kernel

end Circuit

end Raceways
