import Raceways.Proofs.Standing

/-!
Where a circuit runs, and with how many sets. Only attempts to route a circuit bring it elsewhere,
and only a request for a number of sets gives it another one.
-/

namespace Raceways

namespace Attempt

/-- Where a circuit comes to run by an attempt to route it. -/
def destination : Attempt → Routing
  | asked t sets => t.destination sets
  | crowded _ => .freeAir

end Attempt

namespace Occurrence

/-- The number of sets of a circuit after something happens to it. -/
def setsAfter (sets : Nat) : Occurrence → Nat
  | .change (.setSets n) => if n = 0 then sets else n
  | _ => sets

end Occurrence

namespace Job

/-! ## The courses that a change can take -/

theorem useWiring_cases (w : Wiring) (j : Job) :
    j.useWiring w = j ∨
      j.useWiring w = ({ j with circuit.wiring := w } : Job).rederive.reviewPractice := by
  simp only [useWiring]
  split
  · exact Or.inl rfl
  · exact Or.inr rfl

theorem refitIf_cases (w : Wiring) (j : Job) : j.refitIf w = j.refit ∨ j.refitIf w = j := by
  simp only [refitIf]
  split
  · exact Or.inl rfl
  · exact Or.inr rfl

/-- The same sets, spread in another way. -/
def redistribute (s : Spread) (j : Job) : Job :=
  ({ j with circuit.spread := s } : Job).note (.distributed s.sets s.conduits)

/-- The three courses that a request for another number of conduits can take: it is refused, or
there is no such number, or the sets are spread in another way. -/
theorem respread_cases (next : Spread → Option Spread) (j : Job) :
    j.respread next = j.report .conduitsOutsidePrivateConduit ∨
      j.respread next = j.forget [.conduitsOutsidePrivateConduit] ∨
      ∃ s, next j.circuit.spread = some s ∧
        j.respread next =
          ((j.forget [.conduitsOutsidePrivateConduit]).redistribute s).rederive := by
  unfold respread
  split
  · exact Or.inl rfl
  · dsimp only
    split
    · exact Or.inr (Or.inl rfl)
    · rename_i s hs
      exact Or.inr (Or.inr ⟨s, hs, rfl⟩)

/-- Another number of sets, each in a conduit of its own. -/
def recast (n : Nat) (j : Job) : Job :=
  ({ j with circuit.spread := .onePerConduit n } : Job).note (.setsChanged n)

theorem routing_recast (n : Nat) (j : Job) :
    (j.recast n).rederive.circuit.routing = j.circuit.routing :=
  routing_rederive (j.recast n)

theorem setSets_eq_recast {n : Nat} {j : Job} (h : ¬ (n = 0 ∨ n = j.circuit.spread.sets)) :
    j.setSets n =
      match (j.recast n).rederive.circuit.routing.setsError with
      | some m =>
        if 1 < n then
          (((j.recast n).rederive.forget Message.aboutRouting).giveUp m).reviewPractice
        else (j.recast n).rederive
      | none => (j.recast n).rederive := by
  unfold setSets
  rw [if_neg h]
  rfl

/-- The three courses that a request for a number of sets can take: there is nothing to change, or
the circuit gets the sets where it is, or it has to leave the shared raceway for them. -/
theorem setSets_cases (n : Nat) (j : Job) :
    ((n = 0 ∨ n = j.circuit.spread.sets) ∧
      Occurrence.attempt? j.circuit (.change (.setSets n)) = none ∧ j.setSets n = j) ∨
    ((n ≠ 0 ∧ n ≠ j.circuit.spread.sets) ∧
      Occurrence.attempt? j.circuit (.change (.setSets n)) = none ∧
      j.setSets n = (j.recast n).rederive) ∨
    (n ≠ 0 ∧ n ≠ j.circuit.spread.sets) ∧ ∃ r m, m ∈ Message.failures ∧
      (Routing.shared r).setsError = some m ∧
      Occurrence.attempt? j.circuit (.change (.setSets n)) = some (.crowded r) ∧
      j.setSets n =
        (((j.recast n).rederive.forget Message.aboutRouting).giveUp m).reviewPractice := by
  simp only [Occurrence.attempt?]
  by_cases hsame : n = 0 ∨ n = j.circuit.spread.sets
  · have hno : ¬ (n ≠ j.circuit.spread.sets ∧ 1 < n) := by omega
    have hj : j.setSets n = j := if_pos hsame
    exact Or.inl ⟨hsame, if_neg hno, hj⟩
  · have hrouting := routing_recast n j
    rw [setSets_eq_recast hsame, hrouting]
    generalize (j.recast n).rederive = k
    by_cases hn : 1 < n
    · have hyes : n ≠ j.circuit.spread.sets ∧ 1 < n := ⟨fun h => hsame (Or.inr h), hn⟩
      rw [if_pos hyes]
      cases j.circuit.routing with
      | shared r =>
        obtain ⟨m, hm, hr⟩ := Routing.exists_setsError r
        simp only [hr, if_pos hn]
        exact Or.inr (Or.inr ⟨not_or.mp hsame, r, m, hm, hr, rfl, rfl⟩)
      | _ => exact Or.inr (Or.inl ⟨not_or.mp hsame, rfl, rfl⟩)
    · have hno : ¬ (n ≠ j.circuit.spread.sets ∧ 1 < n) := fun h => hn h.2
      refine Or.inr (Or.inl ⟨not_or.mp hsame, if_neg hno, ?_⟩)
      simp only [if_neg hn]
      split <;> rfl

/-! ## Where a circuit comes to run -/

theorem routing_setSets (n : Nat) (j : Job) :
    (j.setSets n).circuit.routing =
      ((Occurrence.attempt? j.circuit (.change (.setSets n))).map Attempt.destination).getD
        j.circuit.routing := by
  rcases j.setSets_cases n with ⟨-, ha, hj⟩ | ⟨-, ha, hj⟩ | ⟨-, r, m, -, -, ha, hj⟩
  · rw [ha, hj]
    rfl
  · rw [ha, hj]
    exact routing_rederive _
  · rw [ha, hj, routing_reviewPractice]
    exact routing_moveTo .freeAir _

/-- Nothing but an attempt to route a circuit brings it elsewhere. -/
theorem routing_meet (o : Occurrence) (j : Job) :
    (j.meet o).circuit.routing =
      ((o.attempt? j.circuit).map Attempt.destination).getD j.circuit.routing := by
  cases o with
  | change c =>
    cases c with
    | route t => exact routing_route t j
    | useWiring w =>
      change (j.useWiring w).circuit.routing = j.circuit.routing
      rcases j.useWiring_cases w with h | h <;> rw [h]
      exact (routing_reviewPractice _).trans (routing_rederive _)
    | replaceConductor spec => exact routing_refitIf .conductors _
    | replaceCable spec => exact routing_refitIf .cables _
    | resize s => exact routing_resize s j
    | setSets n => exact routing_setSets n j
    | widen => exact routing_respread _ j
    | narrow => exact routing_respread _ j
    | updateLoad f => exact routing_rederive _
  | _ => rfl

/-! ## How many sets a circuit has -/

theorem settings_refitIf (w : Wiring) (j : Job) :
    (j.refitIf w).circuit.settings = j.circuit.settings := by
  rcases j.refitIf_cases w with h | h <;> rw [h]
  exact settings_refit j

theorem sets_of_settings_eq {c d : Circuit} (h : d.settings = c.settings) :
    d.spread.sets = c.spread.sets :=
  congrArg (fun s => s.2.2.sets) h

theorem sets_rederive (j : Job) : j.rederive.circuit.spread.sets = j.circuit.spread.sets :=
  sets_of_settings_eq (settings_rederive j)

theorem spread_setSets (n : Nat) (j : Job) :
    (j.setSets n).circuit.spread =
      if n = 0 ∨ n = j.circuit.spread.sets then j.circuit.spread else .onePerConduit n := by
  have hrecast : (j.recast n).rederive.circuit.spread = .onePerConduit n :=
    congrArg (·.2.2) (settings_rederive (j.recast n))
  rcases j.setSets_cases n with ⟨hn, -, hj⟩ | ⟨hn, -, hj⟩ | ⟨hn, r, m, -, -, -, hj⟩
  · rw [hj, if_pos hn]
  · rw [hj, if_neg (not_or.mpr hn), hrecast]
  · rw [hj, if_neg (not_or.mpr hn), ← hrecast]
    generalize (j.recast n).rederive = k
    exact congrArg (·.2.2) ((settings_reviewPractice _).trans (settings_giveUp m _))

theorem sets_setSets (n : Nat) (j : Job) :
    (j.setSets n).circuit.spread.sets = if n = 0 then j.circuit.spread.sets else n := by
  rw [spread_setSets]
  by_cases hsame : n = 0 ∨ n = j.circuit.spread.sets
  · rw [if_pos hsame]
    split
    · rfl
    · exact (hsame.resolve_left ‹_›).symm
  · rw [if_neg hsame, if_neg fun h0 => hsame (Or.inl h0)]
    rfl

theorem sets_respread {next : Spread → Option Spread}
    (hnext : ∀ {s t : Spread}, next s = some t → t.sets = s.sets) (j : Job) :
    (j.respread next).circuit.spread.sets = j.circuit.spread.sets := by
  rcases j.respread_cases next with h | h | ⟨s, hs, h⟩ <;> rw [h]
  · rw [circuit_report]
  · rfl
  · rw [sets_rederive]
    exact hnext hs

theorem sets_meet (o : Occurrence) (j : Job) :
    (j.meet o).circuit.spread.sets = o.setsAfter j.circuit.spread.sets := by
  cases o with
  | change c =>
    cases c with
    | route t => exact sets_of_settings_eq (settings_route t j)
    | useWiring w =>
      change (j.useWiring w).circuit.spread.sets = j.circuit.spread.sets
      rcases j.useWiring_cases w with h | h <;> rw [h]
      exact (sets_of_settings_eq (settings_reviewPractice _)).trans (sets_rederive _)
    | replaceConductor spec => exact sets_of_settings_eq (settings_refitIf .conductors _)
    | replaceCable spec => exact sets_of_settings_eq (settings_refitIf .cables _)
    | resize s =>
      obtain ⟨k, b, hc⟩ := circuit_resize s j
      change (j.resize s).circuit.spread.sets = j.circuit.spread.sets
      rw [hc]
    | setSets n => exact sets_setSets n j
    | widen => exact sets_respread Spread.sets_of_wider? j
    | narrow => exact sets_respread Spread.sets_of_narrower? j
    | updateLoad f => exact sets_rederive _
  | _ => rfl

end Job

end Raceways
