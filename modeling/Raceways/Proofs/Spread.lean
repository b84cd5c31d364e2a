import Raceways.Circuit.Spread

/-! Even spreads: the conduits of a circuit hold one number of sets each, and no set is lost. -/

namespace Raceways

namespace Spread

structure Even (s : Spread) : Prop where
  conduits_pos : 0 < s.conduits
  setsPerConduit_pos : 0 < s.setsPerConduit
  product : s.conduits * s.setsPerConduit = s.sets

namespace Even

theorem sets_pos {s : Spread} (h : s.Even) : 0 < s.sets := by
  rw [← h.product]
  exact Nat.mul_pos h.conduits_pos h.setsPerConduit_pos

theorem conduits_le {s : Spread} (h : s.Even) : s.conduits ≤ s.sets := by
  rw [← h.product]
  exact Nat.le_mul_of_pos_right _ h.setsPerConduit_pos

theorem default : ({} : Spread).Even := ⟨Nat.one_pos, Nat.one_pos, rfl⟩

theorem onePerConduit {n : Nat} (h : 0 < n) : (Spread.onePerConduit n).Even :=
  ⟨h, Nat.one_pos, Nat.mul_one n⟩

/-- The sets may be spread over any number of conduits that divides them. -/
theorem across {s : Spread} {d : Nat} (hs : 0 < s.sets) (hd : s.sets % d = 0) :
    (s.across d).Even := by
  have hdvd : d ∣ s.sets := Nat.dvd_of_mod_eq_zero hd
  have hpos : 0 < d := Nat.pos_of_dvd_of_pos hdvd hs
  exact ⟨hpos, Nat.div_pos (Nat.le_of_dvd hs hdvd) hpos, Nat.mul_div_cancel' hdvd⟩

theorem wider? {s t : Spread} (h : s.Even) (ht : s.wider? = some t) : t.Even := by
  obtain ⟨d, hd, rfl⟩ := Option.map_eq_some_iff.mp ht
  exact across h.sets_pos (nextDivisor?_eq_some_iff.mp hd).1.2.2

theorem narrower? {s t : Spread} (h : s.Even) (ht : s.narrower? = some t) : t.Even := by
  obtain ⟨d, hd, rfl⟩ := Option.map_eq_some_iff.mp ht
  exact across h.sets_pos (previousDivisor?_eq_some_iff.mp hd).1.2.2

end Even

theorem sets_of_wider? {s t : Spread} (h : s.wider? = some t) : t.sets = s.sets := by
  obtain ⟨d, _, rfl⟩ := Option.map_eq_some_iff.mp h
  rfl

theorem sets_of_narrower? {s t : Spread} (h : s.narrower? = some t) : t.sets = s.sets := by
  obtain ⟨d, _, rfl⟩ := Option.map_eq_some_iff.mp h
  rfl

theorem conduits_ne_of_wider? {s t : Spread} (h : s.wider? = some t) : t.conduits ≠ s.conduits := by
  obtain ⟨d, hd, rfl⟩ := Option.map_eq_some_iff.mp h
  exact Nat.ne_of_gt (nextDivisor?_eq_some_iff.mp hd).1.1

theorem conduits_ne_of_narrower? {s t : Spread} (h : s.narrower? = some t) :
    t.conduits ≠ s.conduits := by
  obtain ⟨d, hd, rfl⟩ := Option.map_eq_some_iff.mp h
  exact Nat.ne_of_lt (previousDivisor?_eq_some_iff.mp hd).1.2.1

end Spread

end Raceways
