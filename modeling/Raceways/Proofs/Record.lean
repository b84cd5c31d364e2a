import Raceways.Proofs.Shape

/-!
What is on record about a circuit. A ledger is looked at as the set of messages that it says, and
every step of the work on a circuit turns one such set into another.
-/

namespace Raceways

namespace Ledger

/-- A ledger says exactly the given messages, each in its own words. -/
def Says (l : Ledger) (S : Message → Prop) : Prop :=
  ∀ k t, l.text? k = some t ↔ ∃ m, S m ∧ m.number = k ∧ m.text = t

theorem mem_toList_iff (l : Ledger) (k : Int) (t : String) :
    (k, t) ∈ l.toList ↔ l.text? k = some t := by
  unfold toList text?
  rw [Ascending.mem_iff_find?]
  constructor
  · intro h
    rw [h]
    rfl
  · intro h
    obtain ⟨⟨n, x⟩, he, rfl⟩ := Option.map_eq_some_iff.mp h
    have hn : n = k := Ascending.key_of_find? he
    rw [he, hn]

namespace Says

variable {l l' : Ledger} {S T : Message → Prop}

theorem empty : Ledger.empty.Says fun _ => False := by
  intro k t
  simp

theorem congr (h : l.Says S) (hs : ∀ m, S m ↔ T m) : l.Says T := by
  intro k t
  rw [h k t]
  exact exists_congr fun m => and_congr_left fun _ => hs m

/-- A ledger is known by what it says. -/
theorem unique (h : l.Says S) (h' : l'.Says S) : l = l' :=
  ext_text? fun k => Option.ext fun t => (h k t).trans (h' k t).symm

theorem has_iff (h : l.Says S) (k : Int) : l.has k ↔ ∃ m, S m ∧ m.number = k := by
  rw [has_eq_isSome_text?, Option.isSome_iff_exists]
  constructor
  · rintro ⟨t, ht⟩
    obtain ⟨m, hm, hk, _⟩ := (h k t).mp ht
    exact ⟨m, hm, hk⟩
  · rintro ⟨m, hm, hk⟩
    exact ⟨m.text, (h k m.text).mpr ⟨m, hm, hk, rfl⟩⟩

theorem has_number_iff (h : l.Says S) (m : Message) : l.has m.number ↔ S m := by
  rw [h.has_iff]
  constructor
  · rintro ⟨x, hx, hn⟩
    rwa [← Message.number_injective hn]
  · intro hm
    exact ⟨m, hm, rfl⟩

/-- The first words of a message are its only ones, so it may be recorded again. -/
theorem record (h : l.Says S) (m : Message) : (l.record m).Says fun x => x = m ∨ S x := by
  intro k t
  unfold Ledger.record
  rw [text?_add]
  split
  · rename_i hk
    subst hk
    have hor : (l.text? m.number).or (some m.text) = some m.text := by
      cases ht : l.text? m.number with
      | none => rfl
      | some u =>
        obtain ⟨x, _, hn, hu⟩ := (h _ _).mp ht
        rw [Message.number_injective hn] at hu
        rw [hu]
        rfl
    rw [hor]
    constructor
    · intro ht
      exact ⟨m, Or.inl rfl, rfl, Option.some.inj ht⟩
    · rintro ⟨x, _, hn, rfl⟩
      rw [Message.number_injective hn]
  · rename_i hk
    rw [h k t]
    refine exists_congr fun x => and_congr_left fun hx => ?_
    have hne : x ≠ m := fun he => hk (he ▸ hx.1)
    simp [hne]

theorem retractAll (h : l.Says S) (ms : List Message) :
    (l.retractAll ms).Says fun x => x ∉ ms ∧ S x := by
  intro k t
  rw [text?_retractAll]
  split
  · rename_i hk
    obtain ⟨m, hm, hmk⟩ := hk
    refine iff_of_false (by simp) ?_
    rintro ⟨x, ⟨hx, _⟩, hxk, _⟩
    rw [Message.number_injective (hxk.trans hmk.symm)] at hx
    exact hx hm
  · rename_i hk
    rw [h k t]
    refine exists_congr fun x => and_congr_left fun hx => ?_
    have hnot : x ∉ ms := fun hm => hk ⟨x, hm, hx.1⟩
    simp [hnot]

end Says

end Ledger

namespace Message

theorem mem_aboutRouting_iff (m : Message) : m ∈ aboutRouting ↔ m ≠ invalidLoad := by
  simp [aboutRouting, mem_all]

end Message

theorem Mode.discouraged_mem {mode : Mode} {w : Wiring} {m : Message}
    (h : mode.discouraged w = some m) : m ∈ Message.aboutPractice := by
  cases mode <;> cases w <;> cases h <;> decide

namespace Circuit

/-- What can be set about a circuit, its patterns aside. -/
def settings (c : Circuit) : Load × Wiring × Spread := (c.load, c.wiring, c.spread)

theorem settings_of_kit_eq {c d : Circuit} (e : d.kit = c.kit) : d.settings = c.settings := by
  change d.kit.settings = c.kit.settings
  rw [e]

end Circuit

namespace Job

/-! ## The settings are kept by the steps of the work -/

theorem settings_refit (j : Job) : j.refit.circuit.settings = j.circuit.settings := by
  obtain ⟨k, b, hc⟩ := circuit_refit j
  rw [hc]
  rfl

theorem settings_rederive (j : Job) : j.rederive.circuit.settings = j.circuit.settings := by
  have hi : j.inspectLoad.circuit.settings = j.circuit.settings :=
    Circuit.settings_of_kit_eq (kit_inspectLoad j)
  simp only [rederive]
  split
  · split
    · exact hi
    · exact (settings_refit _).trans hi
  · exact (settings_refit j.inspectLoad.adoptLayout).trans hi

theorem settings_moveTo (r : Routing) (j : Job) :
    (j.moveTo r).circuit.settings = j.circuit.settings :=
  Circuit.settings_of_kit_eq (kit_moveTo r j)

theorem settings_giveUp (m : Message) (j : Job) :
    (j.giveUp m).circuit.settings = j.circuit.settings :=
  Circuit.settings_of_kit_eq (kit_giveUp m j)

theorem settings_reviewPractice (j : Job) :
    j.reviewPractice.circuit.settings = j.circuit.settings :=
  Circuit.settings_of_kit_eq (kit_reviewPractice j)

/-! ## What each step does to the record -/

def Says (j : Job) (S : Message → Prop) : Prop := j.circuit.ledger.Says S

namespace Says

variable {j : Job} {S T : Message → Prop}

theorem congr (h : j.Says S) (hs : ∀ m, S m ↔ T m) : j.Says T := Ledger.Says.congr h hs

theorem report (h : j.Says S) (m : Message) : (j.report m).Says fun x => x = m ∨ S x := by
  unfold Job.Says
  rw [circuit_report]
  exact Ledger.Says.record h m

theorem forget (h : j.Says S) (ms : List Message) : (j.forget ms).Says fun x => x ∉ ms ∧ S x :=
  Ledger.Says.retractAll h ms

theorem refit (h : j.Says S) : j.refit.Says S := by
  obtain ⟨k, b, hc⟩ := circuit_refit j
  unfold Job.Says
  rw [hc]
  exact h

theorem inspectLoad (h : j.Says S) :
    j.inspectLoad.Says fun x =>
      if x = .invalidLoad then j.circuit.load.isValid = false else S x := by
  simp only [Job.inspectLoad]
  split
  · rename_i hv
    refine (h.forget _).congr fun x => ?_
    by_cases hx : x = .invalidLoad <;> simp [hx, hv]
  · rename_i hv
    refine (h.report _).congr fun x => ?_
    by_cases hx : x = .invalidLoad <;> simp [hx, hv]

theorem rederive (h : j.Says S) :
    j.rederive.Says fun x =>
      if x = .invalidLoad then j.circuit.load.isValid = false else S x := by
  have hi := h.inspectLoad
  simp only [Job.rederive]
  split
  · split
    · exact hi
    · exact hi.refit
  · exact Says.refit (j := j.inspectLoad.adoptLayout) hi

theorem moveTo (h : j.Says S) (r : Routing) : (j.moveTo r).Says S := by
  obtain ⟨k, b, hc⟩ := circuit_moveTo r j
  unfold Job.Says
  rw [hc]
  exact h

theorem giveUp (h : j.Says S) (m : Message) : (j.giveUp m).Says fun x => x = m ∨ S x :=
  (h.report m).moveTo .freeAir

theorem reviewPractice (h : j.Says S) :
    j.reviewPractice.Says fun x =>
      if x ∈ Message.aboutPractice then j.circuit.mode.discouraged j.circuit.wiring = some x
      else S x := by
  have hf := h.forget Message.aboutPractice
  simp only [Job.reviewPractice]
  split
  · rename_i m hm
    change j.circuit.mode.discouraged j.circuit.wiring = some m at hm
    refine (hf.report m).congr fun x => ?_
    by_cases hx : x ∈ Message.aboutPractice
    · simp [hx, hm, eq_comm]
    · have hne : x ≠ m := fun he => hx (he ▸ Mode.discouraged_mem hm)
      simp [hx, hne]
  · rename_i hm
    change j.circuit.mode.discouraged j.circuit.wiring = none at hm
    refine hf.congr fun x => ?_
    by_cases hx : x ∈ Message.aboutPractice <;> simp [hx, hm]

end Says

end Job

end Raceways
