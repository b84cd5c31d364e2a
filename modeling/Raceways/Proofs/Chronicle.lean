import Mathlib.Data.List.Induction
import Raceways.Proofs.Standing

/-!
What the record of a circuit tells of its past. Of all that has happened to a circuit, its errors
about routing tell exactly the latest attempt to route it, and whether conduits were miscounted
since. The rest of the record is told by the circuit as it is.
-/

namespace Raceways

namespace Circuit

/-- What has happened to a circuit, with the circuit as it was each time. -/
def moments (c : Circuit) : List (Site × Occurrence) → List (Circuit × Occurrence)
  | [] => []
  | (s, o) :: rest => (c, o) :: (Job.meet o ⟨c, s, []⟩).circuit.moments rest

theorem moments_append (c : Circuit) (past : List (Site × Occurrence)) (s : Site)
    (o : Occurrence) : c.moments (past ++ [(s, o)]) = c.moments past ++ [(c.after past, o)] := by
  induction past generalizing c with
  | nil => rfl
  | cons e past ih => exact congrArg _ (ih _)

theorem unpoked_append {past : List (Site × Occurrence)} {s : Site} {o : Occurrence}
    (h : Unpoked (past ++ [(s, o)])) : Unpoked past ∧ ∀ f, o ≠ .poke f :=
  ⟨fun e he => h e (List.mem_append_left _ he), h (s, o) (by simp)⟩

end Circuit

/-- The latest of the attempts that were made on a circuit. -/
def latest? (moments : List (Circuit × Occurrence)) : Option Attempt :=
  (moments.filterMap fun e => e.2.attempt? e.1).getLast?

theorem latest?_append (moments : List (Circuit × Occurrence)) (c : Circuit) (o : Occurrence) :
    latest? (moments ++ [(c, o)]) = (o.attempt? c).or (latest? moments) := by
  unfold latest?
  rw [List.filterMap_append, List.getLast?_append]
  cases h : o.attempt? c <;> simp [h]

/-- Whether conduits have been miscounted with no attempt after it. -/
def Miscounted (moments : List (Circuit × Occurrence)) : Prop :=
  ∃ before c o after, moments = before ++ (c, o) :: after ∧ o.Miscounts c ∧
    ∀ e ∈ after, e.2.attempt? e.1 = none

theorem not_miscounted_nil : ¬ Miscounted [] := by
  rintro ⟨before, c, o, after, h, _⟩
  simp at h

/-- A miscount is told until there is another attempt. -/
theorem miscounted_append (moments : List (Circuit × Occurrence)) (c : Circuit) (o : Occurrence) :
    Miscounted (moments ++ [(c, o)]) ↔
      o.Miscounts c ∨ Miscounted moments ∧ o.attempt? c = none := by
  constructor
  · rintro ⟨before, d, p, after, h, hp, hafter⟩
    rcases List.eq_nil_or_concat after with rfl | ⟨rest, e, rfl⟩
    · obtain ⟨_, he⟩ := List.append_inj' h rfl
      cases he
      exact Or.inl hp
    · rw [List.concat_eq_append, ← List.cons_append, ← List.append_assoc] at h
      obtain ⟨hm, he⟩ := List.append_inj' h rfl
      cases he
      refine Or.inr ⟨⟨before, d, p, rest, hm, hp, fun e he => ?_⟩, ?_⟩
      · exact hafter e (by simp [he])
      · exact hafter (c, o) (by simp)
  · rintro (hp | ⟨⟨before, d, p, after, rfl, hp, hafter⟩, ho⟩)
    · exact ⟨moments, c, o, [], rfl, hp, by simp⟩
    · refine ⟨before, d, p, after ++ [(c, o)], by simp, hp, fun e he => ?_⟩
      rcases List.mem_append.mp he with he | he
      · exact hafter e he
      · rw [List.mem_singleton.mp he]
        exact ho

namespace Circuit

/-- All through the life of a circuit its record stands as its past has made it. -/
theorem stands_after (load : Load) (nonlinear : Bool) (site : Site)
    (history : List (Site × Occurrence)) :
    let c := (create load nonlinear site).circuit
    Stands (c.after history) (Unpoked history)
      ((latest? (c.moments history)).bind Attempt.failure?) (Miscounted (c.moments history)) := by
  intro c
  induction history using List.reverseRecOn with
  | nil =>
    have hc : Stands c True none False := stands_create load nonlinear site
    exact hc.congr (fun _ => trivial) (iff_of_false not_miscounted_nil id)
  | append_singleton past e ih =>
    obtain ⟨s, o⟩ := e
    have hstep := Stands.meet (j := ⟨c.after past, s, []⟩) _ ih o
    rw [moments_append, latest?_append, after_append]
    exact hstep.congr unpoked_append (miscounted_append _ _ _)

end Circuit

/-! ## What a standing record has -/

theorem Message.mem_aboutPractice_of_pos {m : Message} (h : 0 < m.number) :
    m ∈ aboutPractice := by
  cases m <;> simp [number, aboutPractice] at h ⊢

theorem Mode.discouraged_eq_conductorsInFreeAir_iff (mode : Mode) (w : Wiring) :
    mode.discouraged w = some .conductorsInFreeAir ↔ mode = .freeAir ∧ w = .conductors := by
  cases mode <;> cases w <;> simp [discouraged]

theorem Mode.discouraged_eq_conductorsInBundle_iff (mode : Mode) (w : Wiring) :
    mode.discouraged w = some .conductorsInBundle ↔
      (mode = .privateBundle ∨ mode = .sharedBundle) ∧ w = .conductors := by
  cases mode <;> cases w <;> simp [discouraged]

theorem Mode.discouraged_eq_cableInConduit_iff (mode : Mode) (w : Wiring) :
    mode.discouraged w = some .cableInConduit ↔
      (mode = .privateConduit ∨ mode = .sharedConduit) ∧ w = .cables := by
  cases mode <;> cases w <;> simp [discouraged]

namespace Stands

variable {c : Circuit} {known : Prop} {failure : Option Message} {miscounted : Prop}

theorem has_failure_iff (h : Stands c known failure miscounted) {m : Message}
    (hm : m ∈ Message.failures) : c.ledger.has m.number ↔ failure = some m := by
  obtain ⟨invalid, hs, _⟩ := h.record
  rw [hs.has_number_iff]
  simp only [Message.failures, List.mem_cons, List.not_mem_nil, or_false] at hm
  rcases hm with rfl | rfl | rfl | rfl <;> simp [due, Message.aboutPractice]

theorem failure_unique (h : Stands c known failure miscounted) {m x : Message}
    (hm : m ∈ Message.failures) (hx : x ∈ Message.failures) (hasm : c.ledger.has m.number)
    (hasx : c.ledger.has x.number) : x = m := by
  have hfail := (h.has_failure_iff hm).mp hasm
  have hfail' := (h.has_failure_iff hx).mp hasx
  exact Option.some.inj (hfail'.symm.trans hfail)

theorem mode_of_has_failure (h : Stands c known failure miscounted) {m : Message}
    (hm : m ∈ Message.failures) (hasm : c.ledger.has m.number) : c.mode = .freeAir := by
  have hfail := (h.has_failure_iff hm).mp hasm
  exact congrArg Routing.mode (h.failed (by simp [hfail]))

theorem has_miscount_iff (h : Stands c known failure miscounted) :
    c.ledger.has Message.conduitsOutsidePrivateConduit.number ↔ miscounted := by
  obtain ⟨invalid, hs, _⟩ := h.record
  rw [hs.has_number_iff]
  simp [due]

theorem has_warning_iff (h : Stands c known failure miscounted) {m : Message}
    (hm : m ∈ Message.aboutPractice) :
    c.ledger.has m.number ↔ c.mode.discouraged c.wiring = some m := by
  obtain ⟨invalid, hs, _⟩ := h.record
  rw [hs.has_number_iff]
  simp only [Message.aboutPractice, List.mem_cons, List.not_mem_nil, or_false] at hm
  rcases hm with rfl | rfl | rfl <;> simp [due, Message.aboutPractice]

theorem has_invalidLoad_iff (h : Stands c known failure miscounted) (hk : known) :
    c.ledger.has Message.invalidLoad.number ↔ c.load.isValid = false := by
  obtain ⟨invalid, hs, hload⟩ := h.record
  rw [hs.has_number_iff]
  simpa [due] using hload hk

/-- A way of routing deserves one warning at most. -/
theorem warning_unique (h : Stands c known failure miscounted) {j k : Int} (hj : 0 < j)
    (hk : 0 < k) (hasj : c.ledger.has j) (hask : c.ledger.has k) : j = k := by
  obtain ⟨invalid, hs, _⟩ := h.record
  have hwarn : ∀ n : Int, 0 < n → c.ledger.has n →
      ∃ m ∈ Message.aboutPractice, m.number = n := by
    intro n hn hhas
    obtain ⟨m, _, rfl⟩ := (hs.has_iff n).mp hhas
    exact ⟨m, Message.mem_aboutPractice_of_pos hn, rfl⟩
  obtain ⟨m, hm, rfl⟩ := hwarn j hj hasj
  obtain ⟨x, hx, rfl⟩ := hwarn k hk hask
  have hmode := (h.has_warning_iff hm).mp hasj
  have hmode' := (h.has_warning_iff hx).mp hask
  exact congrArg Message.number (Option.some.inj (hmode.symm.trans hmode'))

theorem eq_of_mem_ledger (h : Stands c known failure miscounted) {e : Int × String}
    (he : e ∈ c.ledger.toList) : ∃ m ∈ Message.all, e = (m.number, m.text) := by
  obtain ⟨invalid, hs, _⟩ := h.record
  obtain ⟨m, _, hn, ht⟩ := (hs e.1 e.2).mp ((Ledger.mem_toList_iff _ _ _).mp he)
  exact ⟨m, m.mem_all, by rw [hn, ht]⟩

end Stands

/-! ## The errors about routing -/

namespace Attempt

/-- The attempts that fail for the reason that a message gives. -/
def FailsFor (a : Attempt) : Message → Prop
  | .setsInSharedConduit =>
    (∃ n sets, 1 < sets ∧ a = .asked (.sharedConduit (some n)) sets) ∨
      ∃ n, a = .crowded (.conduit n)
  | .setsInSharedBundle => ∃ n, a = .crowded (.bundle n)
  | .noSharedConduit => ∃ sets, a = .asked (.sharedConduit none) sets
  | .noSharedBundle => ∃ sets, a = .asked (.sharedBundle none) sets
  | _ => False

theorem failure?_eq_some_iff (a : Attempt) (m : Message) :
    a.failure? = some m ↔ a.FailsFor m := by
  rcases a with ⟨_ | _ | _ | ⟨_ | n⟩ | ⟨_ | n⟩, sets⟩ | ⟨n | n⟩
  case asked.sharedConduit.some =>
    by_cases h : 1 < sets <;> cases m <;>
      simp [failure?, Target.failure?, Target.routingFor, FailsFor, h]
  all_goals
    cases m <;>
      simp [failure?, Target.failure?, Target.routingFor, Routing.setsError, FailsFor]

end Attempt

/-- A circuit that is taken from the panel is asked to go to its private conduit. -/
theorem Installation.circuit?_removeCircuit {w : Installation} {id n : Nat} {d : Circuit}
    (hn : w.circuitAt (.panel id) = .ok n) (hd : w.circuit? n = some d) :
    (w.step (.removeCircuit id)).after.circuit? n =
      some (Job.meet (.change (.route .privateConduit)) ⟨d, w.site, []⟩).circuit := by
  unfold circuit? at hd ⊢
  simp only [step, attempt, hn, work, circuit?, hd, release, bind, Except.bind, pure,
    Except.pure]
  exact join_set_self hd _

namespace Circuit

/-- Of the errors about an attempt there is the one that the latest attempt failed for. -/
theorem has_failure_after_iff (load : Load) (nonlinear : Bool) (site : Site)
    (history : List (Site × Occurrence)) {m : Message} (hm : m ∈ Message.failures) :
    let start := (create load nonlinear site).circuit
    (start.after history).ledger.has m.number ↔
      ∃ a, latest? (start.moments history) = some a ∧ a.FailsFor m := by
  intro start
  rw [(stands_after load nonlinear site history).has_failure_iff hm, Option.bind_eq_some_iff]
  exact exists_congr fun a => and_congr_right fun _ => a.failure?_eq_some_iff m

/-- **Errors about routing.** They tell of the latest attempt to route a circuit, and of conduits
that were miscounted since. To be taken from the panel is such an attempt. -/
theorem errors_tell_latest_attempt (load : Load) (nonlinear : Bool) (site : Site)
    (history : List (Site × Occurrence)) :
    let start := (create load nonlinear site).circuit
    let c := start.after history
    let latest := latest? (start.moments history)
    (c.ledger.has (-2) ↔
      (∃ n sets, 1 < sets ∧ latest = some (.asked (.sharedConduit (some n)) sets)) ∨
        ∃ n, latest = some (.crowded (.conduit n))) ∧
    (c.ledger.has (-3) ↔ ∃ n, latest = some (.crowded (.bundle n))) ∧
    (c.ledger.has (-4) ↔ ∃ sets, latest = some (.asked (.sharedConduit none) sets)) ∧
    (c.ledger.has (-5) ↔ ∃ sets, latest = some (.asked (.sharedBundle none) sets)) ∧
    (c.ledger.has (-6) ↔ Miscounted (start.moments history)) ∧
    (∀ j ∈ ([-5, -4, -3, -2] : List Int), c.ledger.has j →
      c.mode = .freeAir ∧ ∀ k ∈ ([-5, -4, -3, -2] : List Int), c.ledger.has k → k = j) ∧
    (c.ledger.has (-6) → c.mode ≠ .privateConduit) ∧
    ∀ (w : Installation) (id n : Nat) (d : Circuit), w.circuitAt (.panel id) = .ok n →
      w.circuit? n = some d →
        (w.step (.removeCircuit id)).after.circuit? n =
          some (Job.meet (.change (.route .privateConduit)) ⟨d, w.site, []⟩).circuit := by
  intro start c latest
  have hstands := stands_after load nonlinear site history
  have hfails := fun {m} => has_failure_after_iff load nonlinear site history (m := m)
  have hnumber : ∀ j ∈ ([-5, -4, -3, -2] : List Int), ∃ m ∈ Message.failures, m.number = j := by
    decide
  refine ⟨?_, ?_, ?_, ?_, hstands.has_miscount_iff, ?_, ?_,
    fun w id n d => Installation.circuit?_removeCircuit⟩
  · refine (hfails (m := .setsInSharedConduit) (by decide)).trans ?_
    constructor
    · rintro ⟨a, ha, ⟨n, sets, hsets, rfl⟩ | ⟨n, rfl⟩⟩
      · exact Or.inl ⟨n, sets, hsets, ha⟩
      · exact Or.inr ⟨n, ha⟩
    · rintro (⟨n, sets, hsets, ha⟩ | ⟨n, ha⟩)
      · exact ⟨_, ha, Or.inl ⟨n, sets, hsets, rfl⟩⟩
      · exact ⟨_, ha, Or.inr ⟨n, rfl⟩⟩
  · refine (hfails (m := .setsInSharedBundle) (by decide)).trans ?_
    simp [Attempt.FailsFor, latest, start]
  · refine (hfails (m := .noSharedConduit) (by decide)).trans ?_
    simp [Attempt.FailsFor, latest, start]
  · refine (hfails (m := .noSharedBundle) (by decide)).trans ?_
    simp [Attempt.FailsFor, latest, start]
  · intro j hj hhas
    obtain ⟨m, hm, rfl⟩ := hnumber j hj
    refine ⟨hstands.mode_of_has_failure hm hhas, fun k hk hhas' => ?_⟩
    obtain ⟨x, hx, rfl⟩ := hnumber k hk
    rw [hstands.failure_unique hm hx hhas hhas']
  · intro hhas hmode
    exact hstands.counted (hstands.has_miscount_iff.mp hhas)
      (c.mode_eq_privateConduit_iff.mp hmode)

/-- Two sets are asked into a shared conduit, and then their conduits are to be counted. -/
def crowding : List (Site × Occurrence) :=
  [({}, .change (.setSets 2)), ({}, .change (.route (.sharedConduit (some 0)))),
    ({}, .change .narrow)]

theorem crowding_recorded :
    let load : Load := { system := .ln120, ampacity := 16, verdict := some true }
    let start := (create load false {}).circuit
    let c := start.after crowding
    let w := Installation.run {} [.newCircuit load false true]
    (latest? (start.moments crowding) = some (.asked (.sharedConduit (some 0)) 2) ∧
      Miscounted (start.moments crowding)) ∧
    (c.ledger.has (-2) ∧ c.mode = .freeAir ∧ c.ledger.has (-6) ∧ c.mode ≠ .privateConduit) ∧
    w.circuitAt (.panel 0) = .ok 0 ∧ w.circuit? 0 = some start ∧
      (w.step (.removeCircuit 0)).after.circuit? 0 =
        some (Job.meet (.change (.route .privateConduit)) ⟨start, w.site, []⟩).circuit := by
  intro load start c w
  obtain ⟨htwo, -, -, -, hsix, hfree, hcounted, hremove⟩ :=
    errors_tell_latest_attempt load false {} crowding
  have hlatest : latest? (start.moments crowding) = some (.asked (.sharedConduit (some 0)) 2) := by
    decide +kernel
  have hmode : (start.after (crowding.take 2)).mode = .freeAir := by decide +kernel
  have hmiscounted : Miscounted (start.moments crowding) := by
    refine ⟨(start.moments crowding).take 2, start.after (crowding.take 2), .change .narrow, [],
      rfl, ?_, by simp⟩
    change (start.after (crowding.take 2)).mode ≠ .privateConduit
    rw [hmode]
    decide
  have htold := htwo.mpr (Or.inl ⟨0, 2, by decide, hlatest⟩)
  have hcount := hsix.mpr hmiscounted
  exact ⟨⟨hlatest, hmiscounted⟩,
    ⟨htold, (hfree (-2) (by decide) htold).1, hcount, hcounted hcount⟩,
    rfl, rfl, hremove w 0 0 start rfl rfl⟩

/-! ## The rest of the record -/

/-- **The rest of the record.** It goes by the present: the warnings by the way of routing, the
error about the load by the load, if it did not change unnoticed. Nothing else is ever on record. -/
theorem record_tells_present (load : Load) (nonlinear : Bool) (site : Site)
    (history : List (Site × Occurrence)) :
    let c := (create load nonlinear site).circuit.after history
    (c.ledger.has 1 ↔ c.mode = .freeAir ∧ c.wiring = .conductors) ∧
    (c.ledger.has 2 ↔
      (c.mode = .privateBundle ∨ c.mode = .sharedBundle) ∧ c.wiring = .conductors) ∧
    (c.ledger.has 3 ↔
      (c.mode = .privateConduit ∨ c.mode = .sharedConduit) ∧ c.wiring = .cables) ∧
    (∀ j k, 0 < j → 0 < k → c.ledger.has j → c.ledger.has k → j = k) ∧
    (Unpoked history → (c.ledger.has (-1) ↔ c.load.isValid = false)) ∧
    ∀ e ∈ c.ledger.toList, ∃ m ∈ Message.all, e = (m.number, m.text) := by
  intro c
  have h := stands_after load nonlinear site history
  refine ⟨?_, ?_, ?_, fun j k => h.warning_unique, h.has_invalidLoad_iff,
    fun e => h.eq_of_mem_ledger⟩
  · exact (h.has_warning_iff (m := .conductorsInFreeAir) (by decide)).trans
      (Mode.discouraged_eq_conductorsInFreeAir_iff _ _)
  · exact (h.has_warning_iff (m := .conductorsInBundle) (by decide)).trans
      (Mode.discouraged_eq_conductorsInBundle_iff _ _)
  · exact (h.has_warning_iff (m := .cableInConduit) (by decide)).trans
      (Mode.discouraged_eq_cableInConduit_iff _ _)

/-- Cables are laid in the conduit of a circuit, and its load turns invalid. -/
def overload : List (Site × Occurrence) :=
  [({}, .change (.useWiring .cables)),
    ({}, .change (.updateLoad fun l => { l with verdict := some false }))]

theorem overload_recorded :
    let c := (create { system := .ln120, ampacity := 16 } false {}).circuit.after overload
    Unpoked overload ∧ c.ledger.has (-1) ∧ c.ledger.has 3 ∧ ∀ j > 0, c.ledger.has j → j = 3 := by
  intro c
  have hp : Unpoked overload := by
    intro e he f hf
    simp only [overload, List.mem_cons, List.not_mem_nil, or_false] at he
    rcases he with rfl | rfl <;> cases hf
  obtain ⟨-, -, hcable, hone, hload, -⟩ :=
    record_tells_present { system := .ln120, ampacity := 16 } false {} overload
  have hinvalid : c.ledger.has (-1) := (hload hp).mpr (by rfl)
  have hthree : c.ledger.has 3 := hcable.mpr ⟨Or.inl (by rfl), by rfl⟩
  exact ⟨hp, hinvalid, hthree, fun j hj hhas => hone j 3 hj (by decide) hhas hthree⟩

end Circuit

end Raceways
