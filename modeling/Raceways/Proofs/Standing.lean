import Raceways.Proofs.Membership
import Raceways.Proofs.Record

/-!
What the record of a circuit comes to. The warnings go by how the circuit is routed and wired now,
the message about the load by the load when it was last read, and the errors by the latest attempt
to route the circuit. Every change keeps this true.
-/

namespace Raceways

namespace Message

/-- The messages about an attempt that failed. -/
def failures : List Message :=
  [setsInSharedConduit, setsInSharedBundle, noSharedConduit, noSharedBundle]

end Message

namespace Target

/-- Why a circuit with the given number of sets may not go to a target. -/
def failure? (t : Target Nat) (sets : Nat) : Option Message :=
  match t.routingFor sets with
  | .ok _ => none
  | .error m => some m

/-- Where a circuit with the given number of sets comes to run if it is asked to go to a target. -/
def destination (t : Target Nat) (sets : Nat) : Routing :=
  match t.routingFor sets with
  | .ok r => r
  | .error _ => .freeAir

theorem failure?_mem {t : Target Nat} {sets : Nat} {m : Message} (h : t.failure? sets = some m) :
    m ∈ Message.failures := by
  unfold failure? routingFor at h
  rcases t with _ | _ | _ | ⟨_ | n⟩ | ⟨_ | n⟩
  case sharedConduit.some =>
    by_cases hs : 1 < sets
    · simp only [hs, ↓reduceIte, Option.some.injEq] at h
      rw [← h]
      decide
    · simp [hs] at h
  all_goals cases h <;> decide

theorem destination_of_failure? {t : Target Nat} {sets : Nat} (h : t.failure? sets ≠ none) :
    t.destination sets = .freeAir := by
  unfold failure? at h
  unfold destination
  cases hr : t.routingFor sets with
  | ok r => simp [hr] at h
  | error m => rfl

end Target

/-- Too many sets in a shared raceway are an error that fails an attempt. -/
theorem Routing.exists_setsError (r : SharedRaceway) :
    ∃ m ∈ Message.failures, (Routing.shared r).setsError = some m := by
  cases r with
  | conduit n => exact ⟨.setsInSharedConduit, by decide, rfl⟩
  | bundle n => exact ⟨.setsInSharedBundle, by decide, rfl⟩

/-- An attempt to route a circuit: it is asked to go somewhere with the sets that it has, or it gets
more sets than there may be in the shared raceway that it runs through. -/
inductive Attempt where
  | asked (t : Target Nat) (sets : Nat)
  | crowded (r : SharedRaceway)
  deriving DecidableEq

namespace Attempt

def failure? : Attempt → Option Message
  | asked t sets => t.failure? sets
  | crowded r => (Routing.shared r).setsError

end Attempt

namespace Occurrence

/-- The attempt that is made on a circuit. A number of sets makes one if the circuit is in a shared
raceway and gets other sets than it has, more than one. -/
def attempt? (c : Circuit) : Occurrence → Option Attempt
  | .change (.route t) => some (.asked t c.spread.sets)
  | .change (.setSets n) =>
    if n ≠ c.spread.sets ∧ 1 < n then c.routing.shared?.map .crowded else none
  | _ => none

/-- Whether the conduits of a circuit are counted though it does not run through its own. -/
def Miscounts (c : Circuit) : Occurrence → Prop
  | .change .widen | .change .narrow => c.mode ≠ .privateConduit
  | _ => False

end Occurrence

/-- The messages that should be on record about a circuit, given how it is routed and wired, whether
its load was found invalid, how the latest attempt failed and whether conduits were miscounted. -/
def due (mode : Mode) (w : Wiring) (invalid : Prop) (failure : Option Message) (miscounted : Prop)
    (m : Message) : Prop :=
  if m = .invalidLoad then invalid
  else if m = .conduitsOutsidePrivateConduit then miscounted
  else if m ∈ Message.aboutPractice then mode.discouraged w = some m
  else failure = some m

namespace Job

variable {j : Job} {S : Message → Prop} {invalid : Prop} {failure : Option Message}
  {miscounted : Prop}

/-- Once the practice is reviewed, all is as due if it was so apart from the warnings. -/
theorem Says.due_reviewPractice (h : j.Says S)
    (hS : ∀ m ∉ Message.aboutPractice,
      (S m ↔ due j.circuit.mode j.circuit.wiring invalid failure miscounted m)) :
    j.reviewPractice.Says
      (due j.circuit.mode j.circuit.wiring invalid failure miscounted) := by
  refine h.reviewPractice.congr fun m => ?_
  by_cases hm : m ∈ Message.aboutPractice
  · have hload : m ≠ .invalidLoad := fun he => by simp [he, Message.aboutPractice] at hm
    have hcount : m ≠ .conduitsOutsidePrivateConduit := fun he => by
      simp [he, Message.aboutPractice] at hm
    simp [due, hm, hload, hcount]
  · rw [if_neg hm]
    exact hS m hm

/-- Only the message about the load may be on record, if the load is invalid. -/
def Cleared (j : Job) : Prop :=
  j.Says fun m => m = .invalidLoad ∧ j.circuit.load.isValid = false

theorem load_rederive (j : Job) : j.rederive.circuit.load = j.circuit.load :=
  congrArg (·.1) (settings_rederive j)

theorem wiring_rederive (j : Job) : j.rederive.circuit.wiring = j.circuit.wiring :=
  congrArg (·.2.1) (settings_rederive j)

theorem Says.cleared_prepareMove (h : j.Says S) : j.prepareMove.Cleared := by
  unfold Cleared
  have hload : j.prepareMove.circuit.load = j.circuit.load := load_rederive _
  rw [hload]
  refine (h.forget Message.aboutRouting).rederive.congr fun m => ?_
  rw [Message.mem_aboutRouting_iff]
  by_cases hm : m = .invalidLoad
  · simp only [hm, ↓reduceIte, true_and]
    exact Iff.rfl
  · simp [hm]

theorem Says.cleared_rederive_forget (h : j.Says S) :
    (j.rederive.forget Message.aboutRouting).Cleared := by
  unfold Cleared
  have hload : (j.rederive.forget Message.aboutRouting).circuit.load = j.circuit.load :=
    load_rederive j
  rw [hload]
  refine (h.rederive.forget Message.aboutRouting).congr fun m => ?_
  rw [Message.mem_aboutRouting_iff]
  by_cases hm : m = .invalidLoad <;> simp [hm]

theorem Cleared.record_moveTo (h : j.Cleared) (r : Routing) :
    (j.moveTo r).reviewPractice.Says
      (due r.mode j.circuit.wiring (j.circuit.load.isValid = false) none False) := by
  have hmode : (j.moveTo r).circuit.mode = r.mode := congrArg Routing.mode (routing_moveTo r j)
  have hwiring : (j.moveTo r).circuit.wiring = j.circuit.wiring :=
    congrArg (·.2.1) (settings_moveTo r j)
  rw [← hmode, ← hwiring]
  refine (Says.moveTo h r).due_reviewPractice fun m hm => ?_
  cases m <;> simp [due, Message.aboutPractice] at hm ⊢

theorem Cleared.record_giveUp (h : j.Cleared) {m : Message} (hm : m ∈ Message.failures) :
    (j.giveUp m).reviewPractice.Says
      (due .freeAir j.circuit.wiring (j.circuit.load.isValid = false) (some m) False) := by
  have hmode : (j.giveUp m).circuit.mode = .freeAir :=
    congrArg Routing.mode (routing_moveTo .freeAir (j.report m))
  have hwiring : (j.giveUp m).circuit.wiring = j.circuit.wiring :=
    congrArg (·.2.1) (settings_giveUp m j)
  rw [← hmode, ← hwiring]
  refine (Says.giveUp h m).due_reviewPractice fun x hx => ?_
  simp only [Message.failures, List.mem_cons, List.not_mem_nil, or_false] at hm
  rcases hm with rfl | rfl | rfl | rfl <;> cases x <;> simp [due, Message.aboutPractice] at hx ⊢

/-! ## Going to a target -/

theorem sets_prepareMove (j : Job) :
    j.prepareMove.circuit.spread.sets = j.circuit.spread.sets :=
  congrArg (fun s => s.2.2.sets) (settings_rederive (j.forget Message.aboutRouting))

/-- Nothing of an old record matters once a circuit is asked to go somewhere. -/
theorem Says.route (h : j.Says S) (t : Target Nat) :
    (j.route t).Says (due (t.destination j.circuit.spread.sets).mode j.circuit.wiring
      (j.circuit.load.isValid = false) (t.failure? j.circuit.spread.sets) False) := by
  have hp := h.cleared_prepareMove
  have hload : j.prepareMove.circuit.load = j.circuit.load := load_rederive _
  have hwiring : j.prepareMove.circuit.wiring = j.circuit.wiring := wiring_rederive _
  rw [← hload, ← hwiring, ← sets_prepareMove]
  simp only [Job.route]
  cases hr : t.routingFor j.prepareMove.circuit.spread.sets with
  | ok r => simpa only [Target.destination, Target.failure?, hr] using hp.record_moveTo r
  | error m =>
    have hm : t.failure? j.prepareMove.circuit.spread.sets = some m := by
      unfold Target.failure?
      rw [hr]
    rw [hm, Target.destination_of_failure? (by simp [hm])]
    exact hp.record_giveUp (Target.failure?_mem hm)

theorem routing_route (t : Target Nat) (j : Job) :
    (j.route t).circuit.routing = t.destination j.circuit.spread.sets := by
  rw [← sets_prepareMove]
  simp only [route, routing_reviewPractice, Target.destination]
  cases t.routingFor j.prepareMove.circuit.spread.sets with
  | ok r => exact routing_moveTo r _
  | error m => exact routing_moveTo .freeAir _

theorem settings_route (t : Target Nat) (j : Job) :
    (j.route t).circuit.settings = j.circuit.settings := by
  have hp : j.prepareMove.circuit.settings = j.circuit.settings := settings_rederive _
  simp only [route, settings_reviewPractice]
  split
  · exact (settings_moveTo _ _).trans hp
  · exact (settings_giveUp _ _).trans hp

end Job

/-! ## The record stands -/

/-- The record of a circuit is as due. What it says of the load is right if the load is known to be
as it was read. After a failed attempt the circuit is in free air, and conduits are miscounted only
outside its private conduit. -/
structure Stands (c : Circuit) (known : Prop) (failure : Option Message) (miscounted : Prop) :
    Prop where
  record : ∃ invalid, c.ledger.Says (due c.mode c.wiring invalid failure miscounted) ∧
    (known → (invalid ↔ c.load.isValid = false))
  failed : failure ≠ none → c.routing = .freeAir
  counted : miscounted → c.routing ≠ .privateConduit

namespace Circuit

/-- What the record stands on. -/
def account (c : Circuit) : Ledger × Routing × Wiring × Load :=
  (c.ledger, c.routing, c.wiring, c.load)

end Circuit

namespace Stands

variable {j : Job} {c d : Circuit} {known known' : Prop} {failure : Option Message}
  {miscounted miscounted' : Prop}

theorem of_account_eq (h : Stands c known failure miscounted) (e : d.account = c.account) :
    Stands d known failure miscounted := by
  simp only [Circuit.account, Prod.mk.injEq] at e
  obtain ⟨hledger, hrouting, hwiring, hload⟩ := e
  refine ⟨?_, ?_, ?_⟩
  · unfold Circuit.mode
    rw [hledger, hrouting, hwiring, hload]
    exact h.record
  · rw [hrouting]
    exact h.failed
  · rw [hrouting]
    exact h.counted

theorem congr (h : Stands c known failure miscounted) (hk : known' → known)
    (hm : miscounted' ↔ miscounted) : Stands c known' failure miscounted' := by
  obtain ⟨invalid, hs, hl⟩ := h.record
  rw [propext hm]
  exact ⟨⟨invalid, hs, fun k => hl (hk k)⟩, h.failed, h.counted⟩

/-- A circuit stands with the settings of another if its record is as due for these and the load has
just been read. -/
theorem of_settings_eq (hsettings : d.settings = c.settings)
    (hrecord : d.ledger.Says (due d.mode c.wiring (c.load.isValid = false) failure miscounted))
    (hfailed : failure ≠ none → d.routing = .freeAir)
    (hcounted : miscounted → d.routing ≠ .privateConduit) (known : Prop) :
    Stands d known failure miscounted := by
  have hload : d.load = c.load := congrArg (·.1) hsettings
  have hwiring : d.wiring = c.wiring := congrArg (·.2.1) hsettings
  refine ⟨⟨c.load.isValid = false, ?_, fun _ => by rw [hload]⟩, hfailed, hcounted⟩
  rw [hwiring]
  exact hrecord

/-- The same where the circuit still runs as it did. -/
theorem of_routing_eq (h : Stands j.circuit known failure miscounted)
    (hrouting : d.routing = j.circuit.routing) (hsettings : d.settings = c.settings)
    (hrecord : d.ledger.Says
      (due j.circuit.mode c.wiring (c.load.isValid = false) failure miscounted))
    (known' : Prop) : Stands d known' failure miscounted := by
  refine of_settings_eq hsettings ?_ ?_ ?_ known'
  · unfold Circuit.mode at hrecord ⊢
    rw [hrouting]
    exact hrecord
  · rw [hrouting]
    exact h.failed
  · rw [hrouting]
    exact h.counted

/-- Whatever is not known of the load becomes known when it is read. -/
theorem rederive (h : Stands j.circuit known failure miscounted) (known' : Prop) :
    Stands j.rederive.circuit known' failure miscounted := by
  obtain ⟨invalid, hs, _⟩ := h.record
  refine h.of_routing_eq (Job.routing_rederive j) (Job.settings_rederive j) ?_ known'
  refine (Job.Says.rederive hs).congr fun m => ?_
  cases m <;> simp [due]

theorem route (h : Stands j.circuit known failure miscounted) (known' : Prop) (t : Target Nat) :
    Stands (j.route t).circuit known' (t.failure? j.circuit.spread.sets) False := by
  obtain ⟨_, hs, _⟩ := h.record
  have hrouting := Job.routing_route t j
  refine of_settings_eq (Job.settings_route t j) ?_ (fun hf => ?_) False.elim known'
  · unfold Circuit.mode
    rw [hrouting]
    exact Job.Says.route hs t
  · rw [hrouting]
    exact Target.destination_of_failure? hf

theorem useWiring (h : Stands j.circuit known failure miscounted) (w : Wiring) :
    Stands (j.useWiring w).circuit known failure miscounted := by
  simp only [Job.useWiring]
  split
  · exact h
  · obtain ⟨invalid, hs, _⟩ := h.record
    generalize hk : ({ j with circuit.wiring := w } : Job) = k
    have hsk : k.Says (due j.circuit.mode j.circuit.wiring invalid failure miscounted) := by
      rw [← hk]
      exact hs
    have hrouting : k.rederive.circuit.routing = j.circuit.routing := by
      rw [Job.routing_rederive, ← hk]
    have hreview := Job.routing_reviewPractice k.rederive
    refine h.of_routing_eq (hreview.trans hrouting)
      ((Job.settings_reviewPractice k.rederive).trans (Job.settings_rederive k)) ?_ known
    have hmode : j.circuit.mode = k.rederive.circuit.mode := congrArg Routing.mode hrouting.symm
    rw [hmode, ← Job.wiring_rederive k]
    refine Job.Says.due_reviewPractice (Job.Says.rederive hsk) fun m hm => ?_
    cases m <;> simp [due, Message.aboutPractice] at hm ⊢

theorem refitIf (h : Stands j.circuit known failure miscounted) (w : Wiring) :
    Stands (j.refitIf w).circuit known failure miscounted := by
  simp only [Job.refitIf]
  split
  · obtain ⟨k, b, hc⟩ := Job.circuit_refit j
    refine h.of_account_eq ?_
    rw [hc]
    rfl
  · exact h

theorem resize (h : Stands j.circuit known failure miscounted) (s : Size) :
    Stands (j.resize s).circuit known failure miscounted := by
  obtain ⟨k, b, hc⟩ := Job.circuit_resize s j
  refine h.of_account_eq ?_
  rw [hc]
  rfl

/-- A circuit that gets too many sets where it is goes to free air, and all else on record goes by
that. -/
theorem crowded (h : Stands j.circuit known failure miscounted) (known' : Prop) {m : Message}
    (hm : m ∈ Message.failures) :
    Stands ((j.rederive.forget Message.aboutRouting).giveUp m).reviewPractice.circuit known'
      (some m) False := by
  obtain ⟨_, hs, _⟩ := h.record
  have hclear : (j.rederive.forget Message.aboutRouting).Cleared :=
    Job.Says.cleared_rederive_forget hs
  generalize j.rederive.forget Message.aboutRouting = k at hclear
  have hrouting : (k.giveUp m).reviewPractice.circuit.routing = .freeAir :=
    (Job.routing_reviewPractice _).trans (Job.routing_moveTo .freeAir (k.report m))
  refine of_settings_eq ((Job.settings_reviewPractice _).trans (Job.settings_giveUp m k)) ?_
    (fun _ => hrouting) False.elim known'
  unfold Circuit.mode
  rw [hrouting]
  exact hclear.record_giveUp hm

/-- The failure of the attempt that a number of sets makes, or else of an earlier one. -/
theorem setSets (latest : Option Attempt)
    (h : Stands j.circuit known (latest.bind Attempt.failure?) miscounted) (n : Nat) :
    Stands (j.setSets n).circuit known
      (((Occurrence.attempt? j.circuit (.change (.setSets n))).or latest).bind Attempt.failure?)
      (miscounted ∧ Occurrence.attempt? j.circuit (.change (.setSets n)) = none) := by
  unfold Job.setSets
  simp only [Occurrence.attempt?]
  split
  · have hno : ¬ (n ≠ j.circuit.spread.sets ∧ 1 < n) := by omega
    rw [if_neg hno]
    exact h.congr id (by simp)
  · generalize hk : ({ j with circuit.spread := .onePerConduit n } : Job).note (.setsChanged n) = k
    have hset : Stands k.circuit known (latest.bind Attempt.failure?) miscounted := by
      rw [← hk]
      exact h.of_account_eq rfl
    have hrouting : k.rederive.circuit.routing = j.circuit.routing := by
      rw [Job.routing_rederive, ← hk]
      rfl
    rw [hrouting]
    by_cases hn : n ≠ j.circuit.spread.sets ∧ 1 < n
    · rw [if_pos hn]
      cases j.circuit.routing with
      | shared r =>
        obtain ⟨m, hm, hr⟩ := Routing.exists_setsError r
        have hfail : ((some (Attempt.crowded r)).or latest).bind Attempt.failure? = some m := hr
        simp only [hr, if_pos hn.2, Routing.shared?, Option.map_some, hfail]
        exact (hset.crowded known hm).congr id (by simp)
      | _ => exact (hset.rederive known).congr id (by simp [Routing.shared?])
    · have hone : ¬ 1 < n := by omega
      simp only [if_neg hn, if_neg hone]
      split <;> exact (hset.rederive known).congr id (by simp)

/-- Conduits are miscounted anywhere but in the private conduit. -/
theorem miscount (h : Stands j.circuit known failure miscounted)
    (hr : j.circuit.routing ≠ .privateConduit) :
    Stands (j.report .conduitsOutsidePrivateConduit).circuit known failure True := by
  obtain ⟨invalid, hs, hl⟩ := h.record
  have hrouting := Job.routing_report .conduitsOutsidePrivateConduit j
  have hsettings := Circuit.settings_of_kit_eq (Job.kit_report .conduitsOutsidePrivateConduit j)
  have hload : (j.report .conduitsOutsidePrivateConduit).circuit.load = j.circuit.load :=
    congrArg (·.1) hsettings
  have hwiring : (j.report .conduitsOutsidePrivateConduit).circuit.wiring = j.circuit.wiring :=
    congrArg (·.2.1) hsettings
  refine ⟨⟨invalid, ?_, fun k => by rw [hload]; exact hl k⟩, ?_, fun _ => ?_⟩
  · unfold Circuit.mode at hs ⊢
    rw [hrouting, hwiring]
    refine (Job.Says.report hs .conduitsOutsidePrivateConduit).congr fun m => ?_
    cases m <;> simp [due, Message.aboutPractice]
  · rw [hrouting]
    exact h.failed
  · rw [hrouting]
    exact hr

/-- In the private conduit nothing is miscounted, before and after. -/
theorem recount (h : Stands j.circuit known failure miscounted)
    (hr : j.circuit.routing = .privateConduit) :
    Stands (j.forget [.conduitsOutsidePrivateConduit]).circuit known failure miscounted := by
  obtain ⟨invalid, hs, hl⟩ := h.record
  have hnone : ¬ miscounted := fun hm => h.counted hm hr
  refine ⟨⟨invalid, ?_, hl⟩, h.failed, h.counted⟩
  refine (Job.Says.forget hs [.conduitsOutsidePrivateConduit]).congr fun m => ?_
  change m ∉ [Message.conduitsOutsidePrivateConduit] ∧ _ ↔
    due j.circuit.mode j.circuit.wiring invalid failure miscounted m
  cases m <;> simp [due, Message.aboutPractice, hnone]

theorem respread (h : Stands j.circuit known failure miscounted)
    (next : Spread → Option Spread) :
    Stands (j.respread next).circuit known failure
      (j.circuit.mode ≠ .privateConduit ∨ miscounted) := by
  unfold Job.respread
  split
  · rename_i hr
    have hmode : j.circuit.mode ≠ .privateConduit :=
      fun hm => hr (j.circuit.mode_eq_privateConduit_iff.mp hm)
    exact (h.miscount hr).congr id (by simp [hmode])
  · rename_i hr
    have hprivate : j.circuit.routing = .privateConduit := Classical.not_not.mp hr
    have hmode : j.circuit.mode = .privateConduit :=
      j.circuit.mode_eq_privateConduit_iff.mpr hprivate
    have hforget := h.recount hprivate
    have hsame : j.circuit.mode ≠ .privateConduit ∨ miscounted ↔ miscounted := by simp [hmode]
    generalize j.forget [.conduitsOutsidePrivateConduit] = k at hforget
    dsimp only
    split
    · exact hforget.congr id hsame
    · rename_i s _
      have hspread : Stands (({ k with circuit.spread := s } : Job).note
          (.distributed s.sets s.conduits)).circuit known failure miscounted :=
        hforget.of_account_eq rfl
      exact (hspread.rederive known).congr id hsame

/-! ## Every change -/

/-- What neither attempts anything nor counts conduits leaves the errors about routing alone. -/
theorem unnoticed {latest : Option Attempt} {o : Occurrence}
    (h : Stands d known (latest.bind Attempt.failure?) miscounted) (hm : ¬ o.Miscounts c)
    (ha : o.attempt? c = none) :
    Stands d known (((o.attempt? c).or latest).bind Attempt.failure?)
      (o.Miscounts c ∨ miscounted ∧ o.attempt? c = none) := by
  rw [ha]
  exact h.congr id (by simp [hm])

theorem apply (latest : Option Attempt)
    (h : Stands j.circuit known (latest.bind Attempt.failure?) miscounted) (c : Change Nat) :
    Stands (j.apply c).circuit known
      (((Occurrence.attempt? j.circuit (.change c)).or latest).bind Attempt.failure?)
      (Occurrence.Miscounts j.circuit (.change c) ∨
        miscounted ∧ Occurrence.attempt? j.circuit (.change c) = none) := by
  cases c with
  | route t =>
    exact (h.route known t).congr id (by simp [Occurrence.Miscounts, Occurrence.attempt?])
  | useWiring w => exact (h.useWiring w).unnoticed id rfl
  | replaceConductor spec =>
    have hnew : Stands ({ j with
        circuit.conductor := { spec with role := .hot, id := j.site.nextId }
        site := j.site.issue 1 } : Job).circuit known (latest.bind Attempt.failure?) miscounted :=
      h.of_account_eq rfl
    exact (hnew.refitIf .conductors).unnoticed id rfl
  | replaceCable spec =>
    have hnew : Stands ({ j with
        circuit.cable := { spec with conductors := j.circuit.layout.roles, id := j.site.nextId }
        site := j.site.issue 1 } : Job).circuit known (latest.bind Attempt.failure?) miscounted :=
      h.of_account_eq rfl
    exact (hnew.refitIf .cables).unnoticed id rfl
  | resize s => exact (h.resize s).unnoticed id rfl
  | setSets n => exact (h.setSets latest n).congr id (by simp [Occurrence.Miscounts])
  | widen =>
    exact (h.respread _).congr id (by simp [Occurrence.Miscounts, Occurrence.attempt?])
  | narrow =>
    exact (h.respread _).congr id (by simp [Occurrence.Miscounts, Occurrence.attempt?])
  | updateLoad f =>
    obtain ⟨invalid, hs, _⟩ := h.record
    have hnew : Stands ({ j with circuit.load := f j.circuit.load } : Job).circuit False
        (latest.bind Attempt.failure?) miscounted :=
      ⟨⟨invalid, hs, False.elim⟩, h.failed, h.counted⟩
    exact (hnew.rederive known).unnoticed id rfl

/-- Whatever happens to a circuit, its record stands. Only a poke at its load can make it unknown
whether the load is as it was read. -/
theorem meet (latest : Option Attempt)
    (h : Stands j.circuit known (latest.bind Attempt.failure?) miscounted) (o : Occurrence) :
    Stands (j.meet o).circuit (known ∧ ∀ f, o ≠ .poke f)
      (((o.attempt? j.circuit).or latest).bind Attempt.failure?)
      (o.Miscounts j.circuit ∨ miscounted ∧ o.attempt? j.circuit = none) := by
  cases o with
  | change c => exact (h.apply latest c).congr And.left Iff.rfl
  | poke f =>
    obtain ⟨invalid, hs, _⟩ := h.record
    have hnew : Stands (j.meet (.poke f)).circuit (known ∧ ∀ g, Occurrence.poke f ≠ .poke g)
        (latest.bind Attempt.failure?) miscounted :=
      ⟨⟨invalid, hs, fun hk => absurd rfl (hk.2 f)⟩, h.failed, h.counted⟩
    exact hnew.unnoticed id rfl
  | _ =>
    refine Stands.unnoticed (Stands.of_account_eq (h.congr ?_ Iff.rfl) ?_) id rfl
    · exact And.left
    · rfl

end Stands

/-- The record of a circuit that is made stands. -/
theorem Circuit.stands_create (load : Load) (nonlinear : Bool) (site : Site) :
    Stands (create load nonlinear site).circuit True none False := by
  rw [create_eq]
  have hbare : (bare load nonlinear site).Says fun _ => False := Ledger.Says.empty
  have hfitted := hbare.inspectLoad.refit
  have hsettings : (bare load nonlinear site).inspectLoad.refit.circuit.settings =
      (bare load nonlinear site).circuit.settings :=
    (Job.settings_refit _).trans (settings_of_kit_eq (Job.kit_inspectLoad _))
  have hload : (bare load nonlinear site).inspectLoad.refit.circuit.load = load :=
    congrArg (·.1) hsettings
  generalize (bare load nonlinear site).inspectLoad.refit = k at hfitted hload
  refine Stands.of_settings_eq (Job.settings_reviewPractice k) ?_ (fun hf => absurd rfl hf)
    False.elim True
  unfold mode
  rw [Job.routing_reviewPractice, hload]
  refine hfitted.due_reviewPractice fun m hm => ?_
  cases m <;> simp [due, Message.aboutPractice, bare] at hm ⊢

end Raceways
