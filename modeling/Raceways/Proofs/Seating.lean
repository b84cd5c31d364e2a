import Raceways.Proofs.Rerouting

/-!
Which circuit stands where. A circuit has one place, on the panel or among the loose ones. It gets
its place when it is made, and another when it is added to the panel or taken from it.
-/

namespace Raceways

/-! ## Lists with vacant slots -/

theorem join_getElem?_set_none {α : Type} (l : List (Option α)) (i j : Nat) (a : α) :
    (l.set i none)[j]?.join = some a ↔ j ≠ i ∧ l[j]?.join = some a := by
  rw [List.getElem?_set]
  by_cases h : i = j
  · subst h
    by_cases hlt : i < l.length <;> simp [hlt]
  · simp [h, Ne.symm h]

theorem join_getElem?_append_some {α : Type} (l : List (Option α)) (a b : α) (j : Nat) :
    (l ++ [some a])[j]?.join = some b ↔ j = l.length ∧ b = a ∨ l[j]?.join = some b := by
  rcases Nat.lt_trichotomy j l.length with hlt | heq | hgt
  · rw [List.getElem?_append_left hlt]
    simp [Nat.ne_of_lt hlt]
  · subst heq
    simp [eq_comm]
  · have hnone : (l ++ [some a])[j]? = none := List.getElem?_eq_none (by simp; omega)
    rw [hnone, List.getElem?_eq_none (by omega)]
    simp [Nat.ne_of_gt hgt]

/-- Whether an action may bring a circuit elsewhere: only changes and removals can. -/
def Action.reroutes : Action → Bool
  | change _ _ | removeCircuit _ => true
  | _ => false

namespace Installation

/-! ## Places -/

theorem circuitAt_panel_iff (w : Installation) (id n : Nat) :
    w.circuitAt (.panel id) = .ok n ↔ w.panel.circuits[id]?.join = some n := by
  simp only [circuitAt]
  cases w.panel.circuits[id]?.join <;> simp

theorem circuitAt_loose_iff (w : Installation) (slot n : Nat) :
    w.circuitAt (.loose slot) = .ok n ↔ w.looseCircuits[slot]?.join = some n := by
  simp only [circuitAt]
  cases w.looseCircuits[slot]?.join <;> simp

/-- Nothing stands at a place any more. -/
def vacate (p : Place) (w : Installation) : Installation :=
  match p with
  | .panel id => { w with panel.circuits := w.panel.circuits.set id none }
  | .loose slot => { w with looseCircuits := w.looseCircuits.set slot none }

theorem circuitAt_vacate_iff (w : Installation) (p q : Place) (n : Nat) :
    (w.vacate p).circuitAt q = .ok n ↔ q ≠ p ∧ w.circuitAt q = .ok n := by
  cases p <;> cases q <;>
    simp [circuitAt_panel_iff, circuitAt_loose_iff, vacate, join_getElem?_set_none]

theorem circuitAt_enroll_iff (w : Installation) (m : Nat) (p : Place) (n : Nat) :
    (w.enroll m).1.circuitAt p = .ok n ↔
      p = (w.enroll m).2 ∧ n = m ∨ w.circuitAt p = .ok n := by
  cases p <;>
    simp [circuitAt_panel_iff, circuitAt_loose_iff, enroll, join_getElem?_append_some]

theorem circuitAt_release_iff (w : Installation) (m : Nat) (p : Place) (n : Nat) :
    (w.release m).1.circuitAt p = .ok n ↔
      p = (w.release m).2 ∧ n = m ∨ w.circuitAt p = .ok n := by
  cases p <;>
    simp [circuitAt_panel_iff, circuitAt_loose_iff, release, join_getElem?_append_some]

theorem circuitAt_takeDown (w : Installation) (n : Nat) (held : List SharedRaceway) (p : Place) :
    (w.takeDown n held).after.circuitAt p = w.circuitAt p := by
  unfold takeDown
  split <;> rfl

theorem circuit?_work (w : Installation) (n : Nat) (f : Job → Job) (m : Nat) :
    (w.work n f).after.circuit? m =
      if m = n then (w.circuit? n).map fun c => (f ⟨c, w.site, []⟩).circuit else w.circuit? m := by
  cases hc : w.circuit? n with
  | none =>
    simp only [work, hc]
    split
    · rename_i h
      rw [h, hc]
      rfl
    · rfl
  | some c =>
    rw [after_work hc]
    split
    · rename_i h
      rw [h]
      exact join_set_self hc _
    · rename_i h
      exact join_set_of_ne _ (Ne.symm h) _

theorem circuit?_takeDown_of_ne {w : Installation} {m n : Nat} (h : m ≠ n)
    (held : List SharedRaceway) : (w.takeDown n held).after.circuit? m = w.circuit? m := by
  unfold takeDown
  split
  · rfl
  · exact join_set_of_ne _ (Ne.symm h) _

/-! ## What an action does to places and circuits -/

/-- What an action that is not refused does to the places and to the circuits. It leaves both alone,
or a circuit is made, added to the panel, taken from it or taken down, or there is work on one. -/
inductive Motion (w : Installation) : Action → Installation → Prop
  | still {a : Action} {v : Installation} (hon : a.on? = none)
      (hseats : ∀ p, v.circuitAt p = w.circuitAt p) (hcircuits : ∀ m, v.circuit? m = w.circuit? m) :
      Motion w a v
  | make (load : Load) (nonlinear : Bool) {inPanel : Bool} {v : Installation} (q : Place)
      (hseats : ∀ p m, v.circuitAt p = .ok m ↔
        p = q ∧ m = w.circuits.length ∨ w.circuitAt p = .ok m)
      (hcircuits : v.circuits =
        w.circuits ++ [some (Circuit.create load nonlinear w.site).circuit]) :
      Motion w (.newCircuit load nonlinear inPanel) v
  | add {slot : Nat} {v : Installation} (id n : Nat) (hn : w.circuitAt (.loose slot) = .ok n)
      (hseats : ∀ p m, v.circuitAt p = .ok m ↔
        p = .panel id ∧ m = n ∨ p ≠ .loose slot ∧ w.circuitAt p = .ok m)
      (hcircuits : ∀ m, v.circuit? m = w.circuit? m) : Motion w (.addCircuit slot) v
  | remove {id : Nat} {v : Installation} (slot n : Nat) (hn : w.circuitAt (.panel id) = .ok n)
      (hseats : ∀ p m, v.circuitAt p = .ok m ↔
        p = .loose slot ∧ m = n ∨ p ≠ .panel id ∧ w.circuitAt p = .ok m)
      (hcircuits : ∀ m, v.circuit? m =
        if m = n then
          (w.circuit? n).map fun c => (Job.route .privateConduit ⟨c, w.site, []⟩).circuit
        else w.circuit? m) :
      Motion w (.removeCircuit id) v
  | drop {slot : Nat} {k b : Option Place} {v : Installation} (n : Nat)
      (hn : w.circuitAt (.loose slot) = .ok n)
      (hseats : ∀ p m, v.circuitAt p = .ok m ↔ p ≠ .loose slot ∧ w.circuitAt p = .ok m)
      (hcircuits : ∀ m, m ≠ n → v.circuit? m = w.circuit? m) : Motion w (.dropCircuit slot k b) v
  | change {p : Place} {c : Change Place} {v : Installation} (n : Nat) (d : Change Nat)
      (hd : w.findChange c = .ok d) (hn : w.circuitAt p = .ok n)
      (hseats : ∀ p, v.circuitAt p = w.circuitAt p)
      (hcircuits : ∀ m, v.circuit? m =
        if m = n then (w.circuit? n).map fun c => (Job.apply d ⟨c, w.site, []⟩).circuit
        else w.circuit? m) :
      Motion w (.change p c) v
  | modify {a : Action} {v : Installation} (p : Place) (n : Nat) (f : Circuit → Circuit)
      (hother : a.reroutes = false)
      (hn : w.circuitAt p = .ok n) (hf : ∀ c, (f c).routing = c.routing)
      (hseats : ∀ p, v.circuitAt p = w.circuitAt p)
      (hcircuits : ∀ m, v.circuit? m =
        if m = n then (w.circuit? n).map f else w.circuit? m) :
      Motion w a v

/-- Once a place is found, an action moves what follows for the number that is there. -/
theorem motion_of_lookup {w : Installation} {a : Action} {e : Effect} {x : Except Refusal Nat}
    {f : Nat → Effect} (h : (x >>= fun n => pure (f n)) = .ok e)
    (hf : ∀ n, x = .ok n → Motion w a (f n).after) : Motion w a e.after := by
  obtain ⟨n, hn, he⟩ := (bind_eq_ok_iff _ _ _).mp h
  cases he
  exact hf n hn

theorem motion_modifyCircuit {w : Installation} {a : Action} {p : Place} {n : Nat}
    {f : Circuit → Circuit} (hother : a.reroutes = false)
    (hn : w.circuitAt p = .ok n) (hf : ∀ c, (f c).routing = c.routing) :
    Motion w a (w.modifyCircuit n f).after :=
  .modify p n f hother hn hf (circuitAt_work w n _) (circuit?_work w n _)

theorem motion_of_attempt (w : Installation) (a : Action) (e : Effect) (h : w.attempt a = .ok e) :
    Motion w a e.after := by
  cases a with
  | newCircuit load nonlinear inPanel =>
    cases h
    cases inPanel with
    | false => exact .make load nonlinear _ (circuitAt_release_iff _ _) rfl
    | true => exact .make load nonlinear _ (circuitAt_enroll_iff _ _) rfl
  | newConduit spec inPanel =>
    cases h
    cases inPanel <;> exact .still rfl (fun p => by cases p <;> rfl) fun _ => rfl
  | newBundle distance inPanel =>
    cases h
    cases inPanel <;> exact .still rfl (fun p => by cases p <;> rfl) fun _ => rfl
  | newItem =>
    cases h
    exact .still rfl (fun p => by cases p <;> rfl) fun _ => rfl
  | addCircuit slot =>
    refine motion_of_lookup h fun n hn =>
      .add w.panel.circuits.length n hn (fun p m => ?_) fun _ => rfl
    refine (circuitAt_enroll_iff (w.vacate (.loose slot)) n p m).trans ?_
    rw [circuitAt_vacate_iff]
    rfl
  | removeCircuit id =>
    refine motion_of_lookup h fun n hn => ?_
    let routed := (w.vacate (.panel id)).work n (Job.route .privateConduit)
    refine .remove routed.after.looseCircuits.length n hn (fun p m => ?_)
      (circuit?_work (w.vacate (.panel id)) n _)
    refine (circuitAt_release_iff routed.after n p m).trans ?_
    rw [circuitAt_work, circuitAt_vacate_iff]
    rfl
  | dropCircuit slot k b =>
    obtain ⟨held, _, h⟩ := (bind_eq_ok_iff _ _ _).mp h
    refine motion_of_lookup h fun n hn => .drop n hn (fun p m => ?_) fun m hm => ?_
    · change ((w.vacate (.loose slot)).takeDown n held).after.circuitAt p = .ok m ↔ _
      rw [circuitAt_takeDown, circuitAt_vacate_iff]
    · exact circuit?_takeDown_of_ne hm held
  | change p c =>
    obtain ⟨d, hd, h⟩ := (bind_eq_ok_iff _ _ _).mp h
    exact motion_of_lookup h fun n hn =>
      .change n d hd hn (circuitAt_work w n _) (circuit?_work w n _)
  | pokeLoad | editPrivateConduit | replacePrivateConduit | setPrivateDistance
  | overwritePrivate =>
    exact motion_of_lookup h fun _ hn => motion_modifyCircuit rfl hn fun _ => rfl
  | copyConduit source target | copyBundle source target =>
    obtain ⟨k, _, h⟩ := (bind_eq_ok_iff _ _ _).mp h
    exact motion_of_lookup h fun n _ => .still rfl (fun p => by cases p <;> rfl) fun _ => rfl
  | _ => exact motion_of_lookup h fun n _ => .still rfl (fun p => by cases p <;> rfl) fun _ => rfl

/-! ## Every circuit has one place -/

/-- No circuit stands at two places, and at every place that is not vacant there is a circuit. -/
structure Seated (w : Installation) : Prop where
  apart : ∀ {p q n}, w.circuitAt p = .ok n → w.circuitAt q = .ok n → p = q
  live : ∀ {p n}, w.circuitAt p = .ok n → ∃ c, w.circuit? n = some c

namespace Seated

variable {w v : Installation}

theorem empty : Seated {} where
  apart {p _ _} h := by cases p <;> cases h
  live {p _} h := by cases p <;> cases h

theorem lt (h : Seated w) {p : Place} {n : Nat} (hn : w.circuitAt p = .ok n) :
    n < w.circuits.length := by
  obtain ⟨c, hc⟩ := h.live hn
  exact lt_of_join_eq_some hc

theorem exists_circuit?_of_work {n m : Nat} {f : Circuit → Circuit} {c : Circuit}
    (hcircuits : ∀ m, v.circuit? m = if m = n then (w.circuit? n).map f else w.circuit? m)
    (hc : w.circuit? m = some c) : ∃ d, v.circuit? m = some d := by
  rw [hcircuits]
  split
  · rename_i hm
    rw [← hm, hc]
    exact ⟨f c, rfl⟩
  · exact ⟨c, hc⟩

/-- Work on a circuit leaves it where it is. -/
theorem of_work (h : Seated w) {n : Nat} {f : Circuit → Circuit}
    (hseats : ∀ p, v.circuitAt p = w.circuitAt p)
    (hcircuits : ∀ m, v.circuit? m = if m = n then (w.circuit? n).map f else w.circuit? m) :
    Seated v := by
  constructor
  · intro p q m hp hq
    rw [hseats] at hp hq
    exact h.apart hp hq
  · intro p m hp
    rw [hseats] at hp
    obtain ⟨c, hc⟩ := h.live hp
    exact exists_circuit?_of_work hcircuits hc

/-- A circuit that changes its place has only the new one. -/
theorem of_transfer (h : Seated w) {p q : Place} {n : Nat} {f : Circuit → Circuit}
    (hn : w.circuitAt p = .ok n)
    (hseats : ∀ r m, v.circuitAt r = .ok m ↔ r = q ∧ m = n ∨ r ≠ p ∧ w.circuitAt r = .ok m)
    (hcircuits : ∀ m, v.circuit? m = if m = n then (w.circuit? n).map f else w.circuit? m) :
    Seated v := by
  constructor
  · intro r s m hr hs
    rcases (hseats r m).mp hr with ⟨hrq, rfl⟩ | ⟨hrp, hr⟩
    · rcases (hseats s m).mp hs with ⟨hsq, -⟩ | ⟨hsp, hs⟩
      · exact hrq.trans hsq.symm
      · exact absurd (h.apart hs hn) hsp
    · rcases (hseats s m).mp hs with ⟨-, rfl⟩ | ⟨-, hs⟩
      · exact absurd (h.apart hr hn) hrp
      · exact h.apart hr hs
  · intro r m hr
    have hold : ∃ s, w.circuitAt s = .ok m := by
      rcases (hseats r m).mp hr with ⟨-, rfl⟩ | ⟨-, hr⟩
      · exact ⟨p, hn⟩
      · exact ⟨r, hr⟩
    obtain ⟨s, hs⟩ := hold
    obtain ⟨c, hc⟩ := h.live hs
    exact exists_circuit?_of_work hcircuits hc

theorem motion (h : Seated w) {a : Action} (hm : Motion w a v) : Seated v := by
  cases hm with
  | still _ hseats hcircuits =>
    refine ⟨fun hp hq => ?_, fun hp => ?_⟩
    · rw [hseats] at hp hq
      exact h.apart hp hq
    · rw [hseats] at hp
      rw [hcircuits]
      exact h.live hp
  | make load nonlinear q hseats hcircuits =>
    have hnew := replaced_append w.circuits (Circuit.create load nonlinear w.site).circuit
    constructor
    · intro r s m hr hs
      rcases (hseats r m).mp hr with ⟨hrq, rfl⟩ | hr
      · rcases (hseats s _).mp hs with ⟨hsq, -⟩ | hs
        · exact hrq.trans hsq.symm
        · exact absurd (h.lt hs) (Nat.lt_irrefl _)
      · rcases (hseats s m).mp hs with ⟨-, rfl⟩ | hs
        · exact absurd (h.lt hr) (Nat.lt_irrefl _)
        · exact h.apart hr hs
    · intro r m hr
      unfold circuit?
      rw [hcircuits]
      rcases (hseats r m).mp hr with ⟨-, rfl⟩ | hr
      · exact ⟨_, hnew.self⟩
      · rw [hnew.other m (Nat.ne_of_lt (h.lt hr))]
        exact h.live hr
  | add id n hn hseats hcircuits =>
    refine h.of_transfer (f := fun c => c) hn hseats fun m => ?_
    rw [hcircuits]
    split
    · rename_i hm
      rw [hm, Option.map_id']
    · rfl
  | remove slot n hn hseats hcircuits => exact h.of_transfer hn hseats hcircuits
  | drop n hn hseats hcircuits =>
    refine ⟨fun hp hq => h.apart ((hseats _ _).mp hp).2 ((hseats _ _).mp hq).2, ?_⟩
    intro p m hp
    obtain ⟨hne, hp⟩ := (hseats p m).mp hp
    have hmn : m ≠ n := fun he => hne (h.apart hp (he ▸ hn))
    rw [hcircuits m hmn]
    exact h.live hp
  | change n d _ _ hseats hcircuits => exact h.of_work hseats hcircuits
  | modify p n f _ _ _ hseats hcircuits => exact h.of_work hseats hcircuits

theorem step (h : Seated w) (a : Action) : Seated (w.step a).after := by
  unfold Installation.step
  cases he : w.attempt a with
  | error r => exact h
  | ok e => exact h.motion (motion_of_attempt w a e he)

end Seated

/-- In every installation that can be come to, every circuit has one place. -/
theorem seated_run (actions : List Action) : Seated (run {} actions) :=
  run_induction (P := Seated) (fun _ a h => h.step a) {} actions .empty

end Installation

end Raceways
