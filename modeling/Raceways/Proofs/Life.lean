import Raceways.Proofs.Turn

/-!
The life of one circuit. It is made at some site, and then things happen to it, each at a site that
the rest of the world has changed meanwhile in whatever way. Every circuit of an installation has
such a life behind it.
-/

namespace Raceways

namespace Circuit

/-- The circuit after what has happened to it, each time at the given site. -/
def after (c : Circuit) : List (Site × Occurrence) → Circuit
  | [] => c
  | (s, o) :: rest => (Job.meet o ⟨c, s, []⟩).circuit.after rest

theorem after_append (c : Circuit) (past rest : List (Site × Occurrence)) :
    c.after (past ++ rest) = (c.after past).after rest := by
  induction past generalizing c with
  | nil => rfl
  | cons e past ih => exact ih _

/-- Whether the load changed at no time without the circuit's knowing. -/
def Unpoked (history : List (Site × Occurrence)) : Prop :=
  ∀ e ∈ history, ∀ f, e.2 ≠ .poke f

/-- Whether a circuit has come about by being made and by what happened to it since. -/
def Lived (c : Circuit) : Prop :=
  ∃ load nonlinear site history, c = (create load nonlinear site).circuit.after history

theorem Lived.meet {c : Circuit} (h : c.Lived) (s : Site) (o : Occurrence) :
    (Job.meet o ⟨c, s, []⟩).circuit.Lived := by
  obtain ⟨load, nonlinear, site, history, rfl⟩ := h
  exact ⟨load, nonlinear, site, history ++ [(s, o)], (after_append _ history [(s, o)]).symm⟩

end Circuit

namespace Installation

theorem lived_of_turn {w : Installation} {a : Action} {s : Site}
    {circuits : List (Option Circuit)} (t : Turn w a s circuits)
    (h : ∀ n c, w.circuit? n = some c → c.Lived) (n : Nat) (c : Circuit)
    (hc : circuits[n]?.join = some c) : c.Lived := by
  cases t with
  | rest _ => exact h n c hc
  | build load nonlinear _ =>
    rcases (replaced_append _ _).eq_or hc with ⟨_, rfl⟩ | ⟨_, hc⟩
    · exact ⟨load, nonlinear, w.site, [], rfl⟩
    · exact h n c hc
  | alter _ _ _ => exact h n c hc
  | work p m d o _ _ hd _ _ _ =>
    rcases (replaced_set hd _).eq_or hc with ⟨_, rfl⟩ | ⟨_, hc⟩
    · exact (h m d hd).meet w.site o
    · exact h n c hc
  | takeDown _ _ _ _ _ _ _ _ _ _ => exact h n c (join_set_none_eq_some hc).2

/-- Every circuit of an installation has a life behind it. -/
theorem lived_of_run (actions : List Action) (n : Nat) (c : Circuit)
    (h : (run {} actions).circuit? n = some c) : c.Lived := by
  refine run_induction (P := fun w => ∀ n c, w.circuit? n = some c → c.Lived) ?_ {} actions ?_ n c h
  · intro w a hw m d hd
    exact lived_of_turn (turn_of_step w a) hw m d hd
  · intro m d hd
    cases hd

end Installation

end Raceways
