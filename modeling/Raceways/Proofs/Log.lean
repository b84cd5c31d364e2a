import Raceways.Proofs.Chronicle
import Raceways.Proofs.Destination

/-!
What a circuit tells while something happens to it. An error is told when it comes onto the record
and when an attempt fails with it. Where the circuit runs is told when an attempt was made.
-/

namespace Raceways

/-! ## The lines of the log -/

/-- Whether a line begins with the given words. -/
def Begins (words line : String) : Prop := words.toList <+: line.toList

namespace Begins

variable {words line : String}

instance : Decidable (Begins words line) :=
  inferInstanceAs (Decidable (words.toList <+: line.toList))

theorem refl (line : String) : Begins line line := List.prefix_rfl

theorem append (h : Begins words line) (more : String) : Begins words (line ++ more) := by
  unfold Begins
  rw [String.toList_append]
  exact h.trans (List.prefix_append _ _)

theorem append_left (h : Begins words line) (tag : String) :
    Begins (tag ++ words) (tag ++ line) := by
  unfold Begins
  rw [String.toList_append, String.toList_append]
  exact (List.prefix_append_right_inj _).mpr h

/-- Of two beginnings of a line one begins the other. -/
theorem comparable {other : String} (h : Begins words line) (h' : Begins other line) :
    Begins words other ∨ Begins other words :=
  List.prefix_or_prefix_of_prefix h h'

end Begins

namespace Event

/-- The words that the text of an event begins with. -/
def head : Event → String
  | systemChanged _ _ => "Voltage system changed to "
  | rebuilt _ _ _ _ => "Rebuilt "
  | routed _ _ => "Routed "
  | setsChanged _ => "Circuit now has "
  | distributed _ _ => "Distributed "
  | failed _ => "Circuit error "
  | leftBehind _ => "Shared raceway is borrowed, leaving "

/-- The words that the line of an event begins with. -/
def opening (e : Event) : String := (if e.isWarning then "WARN " else "DEBUG ") ++ e.head

theorem begins_text (e : Event) : Begins e.head e.text := by
  cases e with
  | systemChanged => exact ((((Begins.refl _).append _).append _).append _).append _
  | rebuilt =>
    exact ((((((Begins.refl _).append _).append _).append _).append _).append _).append _
  | routed => exact ((((Begins.refl _).append _).append _).append _).append _
  | setsChanged => exact ((Begins.refl _).append _).append _
  | distributed => exact ((((Begins.refl _).append _).append _).append _).append _
  | failed => exact (((Begins.refl _).append _).append _).append _
  | leftBehind => exact ((Begins.refl _).append _).append _

theorem begins_line (e : Event) : Begins e.opening e.line := e.begins_text.append_left _

theorem eq_failed_of_begins {e : Event} (h : Begins "WARN Circuit error " e.line) :
    ∃ m, e = failed m := by
  have hc := h.comparable e.begins_line
  cases e with
  | failed m => exact ⟨m, rfl⟩
  | _ =>
    simp only [opening, head, isWarning, Bool.false_eq_true, ↓reduceIte] at hc
    exact absurd hc (by decide)

theorem eq_routed_of_begins {e : Event} (h : Begins "DEBUG Routed " e.line) :
    ∃ items mode, e = routed items mode := by
  have hc := h.comparable e.begins_line
  cases e with
  | routed items mode => exact ⟨items, mode, rfl⟩
  | _ =>
    simp only [opening, head, isWarning, Bool.false_eq_true, ↓reduceIte] at hc
    exact absurd hc (by decide)

theorem line_failed_injective {m n : Message} (h : (failed m).line = (failed n).line) :
    m = n := by
  have hnodup : (Message.all.map fun m => (failed m).line).Nodup := by decide
  exact List.inj_on_of_nodup_map hnodup (Message.mem_all m) (Message.mem_all n) h

def failure? : Event → Option Message
  | failed m => some m
  | _ => none

def routing? : Event → Option (Nat × Mode)
  | routed items mode => some (items, mode)
  | _ => none

theorem line_eq_failed_iff (e : Event) (m : Message) :
    e.line = (failed m).line ↔ e.failure? = some m := by
  constructor
  · intro h
    have hb : Begins "WARN Circuit error " e.line := by
      rw [h]
      exact (failed m).begins_line
    obtain ⟨n, rfl⟩ := eq_failed_of_begins hb
    exact congrArg some (line_failed_injective h)
  · intro h
    cases e with
    | failed n => rw [Option.some.inj h]
    | _ => cases h

/-- The lines that tell a failure are as many as the events that are this failure. -/
theorem count_line_failed (log : List Event) (m : Message) :
    (log.map line).count (failed m).line = (log.filterMap failure?).count m := by
  induction log with
  | nil => rfl
  | cons e log ih =>
    rw [List.map_cons, List.count_cons, ih, List.filterMap_cons]
    by_cases h : e.line = (failed m).line
    · rw [(line_eq_failed_iff e m).mp h]
      simp [h]
    · have hne : e.failure? ≠ some m := fun he => h ((line_eq_failed_iff e m).mpr he)
      cases hf : e.failure? with
      | none => simp [h]
      | some n =>
        have hn : n ≠ m := fun he => hne (he ▸ hf)
        simp [h, hn]

/-- The lines that tell where a circuit runs are those of the events that do. -/
theorem filter_begins_routed (log : List Event) :
    (log.map line).filter (Begins "DEBUG Routed " ·) =
      (log.filterMap routing?).map fun r => (routed r.1 r.2).line := by
  induction log with
  | nil => rfl
  | cons e log ih =>
    rw [List.map_cons, List.filter_cons, ih, List.filterMap_cons]
    by_cases h : Begins "DEBUG Routed " e.line
    · obtain ⟨items, mode, rfl⟩ := eq_routed_of_begins h
      simp only [h, decide_true, ↓reduceIte, routing?, List.map_cons]
    · have hnone : e.routing? = none := by
        cases e with
        | routed items mode => exact absurd (routed items mode).begins_line h
        | _ => rfl
      simp only [h, decide_false, Bool.false_eq_true, ↓reduceIte, hnone]

end Event

namespace Ledger

theorem holds_record (l : Ledger) (m n : Message) :
    (l.record m).holds n ↔ n = m ∨ l.holds n := by
  unfold holds record
  rw [has_eq_isSome_text?, has_eq_isSome_text?, text?_add]
  by_cases h : n = m
  · simp [h]
  · have hne : m.number ≠ n.number := fun he => h (Message.number_injective he).symm
    simp [h, hne]

theorem holds_retractAll (l : Ledger) (ms : List Message) (n : Message) :
    (l.retractAll ms).holds n ↔ n ∉ ms ∧ l.holds n := by
  unfold holds
  rw [has_eq_isSome_text?, has_eq_isSome_text?, text?_retractAll]
  by_cases h : n ∈ ms
  · have hk : ∃ m ∈ ms, m.number = n.number := ⟨n, h, rfl⟩
    simp [h, hk]
  · have hk : ¬ ∃ m ∈ ms, m.number = n.number := by
      rintro ⟨m, hm, he⟩
      exact h (Message.number_injective he ▸ hm)
    simp [h, hk]

end Ledger

namespace Job

/-- The failures that were told so far. -/
def told (j : Job) : List Message := j.log.filterMap Event.failure?

/-- With how many items and how the circuit was routed, as told so far. -/
def routings (j : Job) : List (Nat × Mode) := j.log.filterMap Event.routing?

/-! ## What each step tells -/

variable {j k : Job}

theorem told_note (e : Event) (j : Job) : (j.note e).told = j.told ++ e.failure?.toList := by
  unfold told note
  rw [List.filterMap_append]
  cases h : e.failure? <;> simp [h]

theorem routings_note (e : Event) (j : Job) :
    (j.note e).routings = j.routings ++ e.routing?.toList := by
  unfold routings note
  rw [List.filterMap_append]
  cases h : e.routing? <;> simp [h]

theorem told_note_of_none {e : Event} (j : Job) (h : e.failure? = none) :
    (j.note e).told = j.told := by
  rw [told_note, h]
  exact List.append_nil _

theorem routings_note_of_none {e : Event} (j : Job) (h : e.routing? = none) :
    (j.note e).routings = j.routings := by
  rw [routings_note, h]
  exact List.append_nil _

theorem told_report (m : Message) (j : Job) :
    (j.report m).told =
      if m.severity = .error ∧ ¬ j.circuit.ledger.holds m then j.told ++ [m] else j.told := by
  unfold report
  dsimp only
  split
  · exact told_note (.failed m) _
  · rfl

theorem routings_report (m : Message) (j : Job) : (j.report m).routings = j.routings := by
  unfold report
  dsimp only
  split
  · exact routings_note_of_none (e := .failed m) _ rfl
  · rfl

theorem log_exchange (j : Job) : j.vacate.replaceItems.occupy.log = j.log :=
  (log_updateRaceway _ _).trans (log_updateRaceway _ j)

theorem told_refit (j : Job) : j.refit.told = j.told := by
  refine (told_note_of_none j.vacate.replaceItems.occupy rfl).trans ?_
  exact congrArg (List.filterMap _) (log_exchange j)

theorem routings_refit (j : Job) : j.refit.routings = j.routings := by
  refine (routings_note_of_none j.vacate.replaceItems.occupy rfl).trans ?_
  exact congrArg (List.filterMap _) (log_exchange j)

theorem log_transfer (r : Routing) (j : Job) :
    ({ j.vacate with circuit.routing := r } : Job).occupy.log = j.log :=
  (log_updateRaceway _ _).trans (log_updateRaceway _ j)

theorem told_moveTo (r : Routing) (j : Job) : (j.moveTo r).told = j.told := by
  refine (told_note_of_none _ rfl).trans ?_
  exact congrArg (List.filterMap _) (log_transfer r j)

theorem routings_moveTo (r : Routing) (j : Job) :
    (j.moveTo r).routings =
      j.routings ++ [((j.moveTo r).circuit.items.length, (j.moveTo r).circuit.mode)] := by
  refine (routings_note _ _).trans ?_
  exact congrArg (List.filterMap _ · ++ _) (log_transfer r j)

theorem routings_inspectLoad (j : Job) : j.inspectLoad.routings = j.routings := by
  simp only [inspectLoad]
  split
  · rfl
  · exact routings_report _ j

theorem routings_rederive (j : Job) : j.rederive.routings = j.routings := by
  have hi := routings_inspectLoad j
  simp only [rederive]
  split
  · split
    · exact hi
    · exact (routings_refit _).trans hi
  · have hadopt : j.inspectLoad.adoptLayout.routings = j.inspectLoad.routings :=
      routings_note_of_none _ rfl
    exact (routings_refit _).trans (hadopt.trans hi)

theorem routings_reviewPractice (j : Job) : j.reviewPractice.routings = j.routings := by
  simp only [reviewPractice]
  split
  · exact routings_report _ _
  · rfl

/-! ## What is told goes by what is on record -/

/-- What was told of failures, given what was on record before it and the failure of an attempt. An
error is told once if it is on record and is new there or is this failure. -/
structure Tells (before : Message → Prop) (failure : Option Message) (k : Job) : Prop where
  nodup : k.told.Nodup
  mem_iff : ∀ m, m ∈ k.told ↔
    m.severity = .error ∧ k.circuit.ledger.holds m ∧ (¬ before m ∨ failure = some m)

namespace Tells

variable {before : Message → Prop} {failure failure' : Option Message} {m : Message}

theorem start (hquiet : j.told = []) : Tells (fun m => j.circuit.ledger.holds m) none j := by
  constructor
  · rw [hquiet]
    exact List.nodup_nil
  · intro m
    rw [hquiet]
    simp

theorem of_eq (h : Tells before failure j) (htold : k.told = j.told)
    (hledger : k.circuit.ledger = j.circuit.ledger) : Tells before failure k := by
  constructor
  · rw [htold]
    exact h.nodup
  · rw [htold, hledger]
    exact h.mem_iff

/-- What is forgotten must not have been told. -/
theorem forget (h : Tells before failure j) {ms : List Message} (hms : ∀ m ∈ ms, m ∉ j.told) :
    Tells before failure (j.forget ms) := by
  refine ⟨h.nodup, fun m => ?_⟩
  change m ∈ j.told ↔ _ ∧ (j.circuit.ledger.retractAll ms).holds m ∧ _
  rw [Ledger.holds_retractAll]
  by_cases hm : m ∈ ms
  · simp [hm, hms m hm]
  · simp only [hm, not_false_eq_true, true_and]
    exact h.mem_iff m

theorem report (h : Tells before failure j) (m : Message)
    (hother : ∀ n, n ≠ m → (failure' = some n ↔ failure = some n))
    (hself : m.severity = .error →
      ((m ∈ j.told ∨ ¬ j.circuit.ledger.holds m) ↔ (¬ before m ∨ failure' = some m))) :
    Tells before failure' (j.report m) := by
  have hnew : m ∈ j.told → j.circuit.ledger.holds m := fun hm => ((h.mem_iff m).mp hm).2.1
  constructor
  · rw [told_report]
    split
    · rename_i hm
      exact List.nodup_append.mpr ⟨h.nodup, List.nodup_singleton m, by
        rintro x hx y hy rfl
        rw [List.mem_singleton.mp hy] at hx
        exact hm.2 (hnew hx)⟩
    · exact h.nodup
  · intro n
    rw [told_report, circuit_report, Ledger.holds_record]
    by_cases hn : n = m
    · subst hn
      by_cases he : n.severity = .error
      · have hs := hself he
        by_cases hh : j.circuit.ledger.holds n
        · simpa [he, hh] using hs
        · simpa [he, hh] using hs
      · have := h.mem_iff n
        simp [he] at this ⊢
        exact this
    · have := h.mem_iff n
      rw [hother n hn]
      split
      · simp [hn, this]
      · simp [hn, this]

/-- A message that was on record before and still is, or was not on record before, is not made
news by recording it again. -/
theorem report_kept (h : Tells before none j) (hm : before m → j.circuit.ledger.holds m) :
    Tells before none (j.report m) := by
  refine h.report m (fun n _ => Iff.rfl) fun he => ?_
  by_cases hh : j.circuit.ledger.holds m
  · simp [h.mem_iff, he, hh]
  · have hb : ¬ before m := fun hb => hh (hm hb)
    simp [hh, hb]

/-- The failure of an attempt is news if it is not on record at that point. -/
theorem report_failure (h : Tells before none j) (hm : ¬ j.circuit.ledger.holds m) :
    Tells before (some m) (j.report m) := by
  refine h.report m (fun n hn => ?_) fun _ => ?_
  · simp [Ne.symm hn]
  · simp [hm]

theorem report_warning (h : Tells before failure j) (hm : m.severity ≠ .error) :
    Tells before failure (j.report m) :=
  h.report m (fun _ _ => Iff.rfl) fun he => absurd he hm

theorem inspectLoad (h : Tells before none j)
    (hload : before .invalidLoad ↔ j.circuit.ledger.holds .invalidLoad) :
    Tells before none j.inspectLoad := by
  simp only [Job.inspectLoad]
  split
  · refine h.forget fun m hm htold => ?_
    rw [List.mem_singleton.mp hm] at htold
    obtain ⟨-, hholds, hnew⟩ := (h.mem_iff _).mp htold
    exact hnew.elim (fun hb => hb (hload.mpr hholds)) (fun hf => by cases hf)
  · exact h.report_kept hload.mp

theorem refit (h : Tells before failure j) : Tells before failure j.refit := by
  obtain ⟨k, b, hc⟩ := circuit_refit j
  refine h.of_eq (told_refit j) ?_
  rw [hc]

theorem rederive (h : Tells before none j)
    (hload : before .invalidLoad ↔ j.circuit.ledger.holds .invalidLoad) :
    Tells before none j.rederive := by
  have hi := h.inspectLoad hload
  simp only [Job.rederive]
  split
  · split
    · exact hi
    · exact hi.refit
  · have hadopt : Tells before none j.inspectLoad.adoptLayout :=
      hi.of_eq (told_note_of_none _ rfl) rfl
    exact hadopt.refit

theorem moveTo (h : Tells before failure j) (r : Routing) : Tells before failure (j.moveTo r) := by
  obtain ⟨k, b, hc⟩ := circuit_moveTo r j
  refine h.of_eq (told_moveTo r j) ?_
  rw [hc]

theorem giveUp (h : Tells before none j) (hm : ¬ j.circuit.ledger.holds m) :
    Tells before (some m) (j.giveUp m) :=
  (h.report_failure hm).moveTo .freeAir

theorem reviewPractice (h : Tells before failure j) : Tells before failure j.reviewPractice := by
  have hwarnings : ∀ m ∈ Message.aboutPractice, m.severity ≠ .error := by decide
  have hf : Tells before failure (j.forget Message.aboutPractice) :=
    h.forget fun m hm htold => hwarnings m hm ((h.mem_iff m).mp htold).1
  simp only [Job.reviewPractice]
  split
  · rename_i hm
    exact hf.report_warning (hwarnings _ (Mode.discouraged_mem hm))
  · exact hf

end Tells

/-! ## What each change tells -/

variable {S : Message → Prop}

theorem tells_route (t : Target Nat) (hs : j.Says S) (hquiet : j.told = []) :
    Tells (fun m => j.circuit.ledger.holds m) (t.failure? j.circuit.spread.sets) (j.route t) := by
  have hforget : Tells (fun m => j.circuit.ledger.holds m) none (j.forget Message.aboutRouting) :=
    (Tells.start hquiet).forget fun m _ htold => by
      rw [hquiet] at htold
      cases htold
  have hp : Tells (fun m => j.circuit.ledger.holds m) none j.prepareMove := by
    refine hforget.rederive ?_
    change _ ↔ (j.circuit.ledger.retractAll Message.aboutRouting).holds .invalidLoad
    rw [Ledger.holds_retractAll, Message.mem_aboutRouting_iff]
    simp
  rw [← sets_prepareMove]
  simp only [Job.route, Target.failure?]
  cases hr : t.routingFor j.prepareMove.circuit.spread.sets with
  | ok r => exact (hp.moveTo r).reviewPractice
  | error m =>
    have hm : m ∈ Message.failures := Target.failure?_mem (by
      unfold Target.failure?
      rw [hr])
    refine (hp.giveUp fun hh => ?_).reviewPractice
    obtain ⟨rfl, -⟩ := (hs.cleared_prepareMove.has_number_iff m).mp hh
    exact absurd hm (by decide)

theorem tells_setSets (n : Nat) (hs : j.Says S) (hquiet : j.told = []) :
    Tells (fun m => j.circuit.ledger.holds m)
      ((Occurrence.attempt? j.circuit (.change (.setSets n))).bind Attempt.failure?)
      (j.setSets n) := by
  have hstart := Tells.start hquiet
  have hset : Tells (fun m => j.circuit.ledger.holds m) none (j.recast n).rederive :=
    Tells.rederive (hstart.of_eq (told_note_of_none _ rfl) rfl) Iff.rfl
  rcases j.setSets_cases n with ⟨-, ha, hj⟩ | ⟨-, ha, hj⟩ | ⟨-, r, m, hm, hr, ha, hj⟩
  · rw [ha, hj]
    exact hstart
  · rw [ha, hj]
    exact hset
  · have hfailure : (some (Attempt.crowded r)).bind Attempt.failure? = some m := hr
    rw [ha, hj, hfailure]
    have hrecast : (j.recast n).Says S := hs
    have hforget : Tells (fun m => j.circuit.ledger.holds m) none
        ((j.recast n).rederive.forget Message.aboutRouting) := hset.forget fun x hx htold => by
      obtain ⟨-, hholds, hnew⟩ := (hset.mem_iff x).mp htold
      have hload : x ≠ .invalidLoad := (Message.mem_aboutRouting_iff x).mp hx
      have hsaid := (hrecast.rederive.has_number_iff x).mp hholds
      rw [if_neg hload] at hsaid
      exact hnew.elim (fun hb => hb ((hs.has_number_iff x).mpr hsaid)) (fun hf => by cases hf)
    refine (hforget.giveUp fun hh => ?_).reviewPractice
    obtain ⟨rfl, -⟩ := (hrecast.cleared_rederive_forget.has_number_iff m).mp hh
    exact absurd hm (by decide)

theorem tells_respread (next : Spread → Option Spread) (hquiet : j.told = []) :
    Tells (fun m => j.circuit.ledger.holds m) none (j.respread next) := by
  have hstart := Tells.start hquiet
  have hforget : Tells (fun m => j.circuit.ledger.holds m) none
      (j.forget [.conduitsOutsidePrivateConduit]) := hstart.forget fun m _ htold => by
    rw [hquiet] at htold
    cases htold
  rcases j.respread_cases next with h | h | ⟨s, -, h⟩ <;> rw [h]
  · exact hstart.report_kept id
  · exact hforget
  · refine Tells.rederive (hforget.of_eq (told_note_of_none _ rfl) rfl) ?_
    change _ ↔ (j.circuit.ledger.retractAll [.conduitsOutsidePrivateConduit]).holds .invalidLoad
    rw [Ledger.holds_retractAll]
    simp

theorem tells_refitIf (w : Wiring) {before : Message → Prop} {failure : Option Message}
    (h : Tells before failure j) : Tells before failure (j.refitIf w) := by
  rcases j.refitIf_cases w with hw | hw <;> rw [hw]
  · exact h.refit
  · exact h

/-- Whatever happens to a circuit, what is told of it goes by what comes onto its record. -/
theorem tells_meet (o : Occurrence) (hs : j.Says S) (hquiet : j.told = []) :
    Tells (fun m => j.circuit.ledger.holds m) ((o.attempt? j.circuit).bind Attempt.failure?)
      (j.meet o) := by
  have hstart := Tells.start hquiet
  cases o with
  | change c =>
    cases c with
    | route t => exact tells_route t hs hquiet
    | useWiring w =>
      change Tells _ none (j.useWiring w)
      rcases j.useWiring_cases w with h | h <;> rw [h]
      · exact hstart
      · have hset : Tells (fun m => j.circuit.ledger.holds m) none
            { j with circuit.wiring := w } := hstart.of_eq rfl rfl
        exact (hset.rederive Iff.rfl).reviewPractice
    | replaceConductor spec => exact tells_refitIf .conductors (hstart.of_eq rfl rfl)
    | replaceCable spec => exact tells_refitIf .cables (hstart.of_eq rfl rfl)
    | resize s =>
      refine hstart.of_eq ?_ (ledger_updateRaceway _ _)
      exact congrArg (List.filterMap _) (log_updateRaceway _ _)
    | setSets n => exact tells_setSets n hs hquiet
    | widen => exact tells_respread Spread.wider? hquiet
    | narrow => exact tells_respread Spread.narrower? hquiet
    | updateLoad f =>
      have hset : Tells (fun m => j.circuit.ledger.holds m) none
          { j with circuit.load := f j.circuit.load } := hstart.of_eq rfl rfl
      exact hset.rederive Iff.rfl
  | _ => exact hstart.of_eq rfl rfl

/-! ## Where a circuit is told to run -/

/-- With how many items and how a circuit runs. -/
def running (c : Circuit) : Nat × Mode := (c.items.length, c.mode)

theorem running_reviewPractice (j : Job) :
    running j.reviewPractice.circuit = running j.circuit := by
  have hitems : j.reviewPractice.circuit.items = j.circuit.items :=
    congrArg (·.items) (kit_reviewPractice j)
  unfold running Circuit.mode
  rw [hitems, routing_reviewPractice]

/-- A move that is reviewed tells where the circuit then runs. -/
theorem routings_moveTo_reviewPractice (r : Routing) (j : Job) :
    (j.moveTo r).reviewPractice.routings =
      j.routings ++ [running (j.moveTo r).reviewPractice.circuit] := by
  rw [routings_reviewPractice, running_reviewPractice]
  exact routings_moveTo r j

theorem routings_prepareMove (j : Job) : j.prepareMove.routings = j.routings :=
  routings_rederive _

theorem routings_route (t : Target Nat) (j : Job) :
    (j.route t).routings = j.routings ++ [running (j.route t).circuit] := by
  rw [← routings_prepareMove j]
  simp only [route]
  cases t.routingFor j.prepareMove.circuit.spread.sets with
  | ok r => exact routings_moveTo_reviewPractice r _
  | error m =>
    refine (routings_moveTo_reviewPractice .freeAir _).trans ?_
    rw [routings_report]
    rfl

theorem routings_recast (n : Nat) (j : Job) : (j.recast n).rederive.routings = j.routings :=
  (routings_rederive _).trans (routings_note_of_none _ rfl)

theorem routings_setSets (n : Nat) (j : Job) :
    (j.setSets n).routings =
      j.routings ++
        if (Occurrence.attempt? j.circuit (.change (.setSets n))).isSome then
          [running (j.setSets n).circuit]
        else [] := by
  rcases j.setSets_cases n with ⟨-, ha, hj⟩ | ⟨-, ha, hj⟩ | ⟨-, r, m, -, -, ha, hj⟩
  · rw [ha, hj]
    exact (List.append_nil _).symm
  · rw [ha, hj]
    exact (routings_recast n j).trans (List.append_nil _).symm
  · have hrecast := routings_recast n j
    rw [ha, hj]
    generalize (j.recast n).rederive = k at hrecast ⊢
    refine (routings_moveTo_reviewPractice .freeAir _).trans ?_
    rw [routings_report]
    exact congrArg (· ++ _) hrecast

theorem routings_refitIf (w : Wiring) (j : Job) : (j.refitIf w).routings = j.routings := by
  rcases j.refitIf_cases w with h | h <;> rw [h]
  exact routings_refit j

theorem routings_respread (next : Spread → Option Spread) (j : Job) :
    (j.respread next).routings = j.routings := by
  rcases j.respread_cases next with h | h | ⟨s, -, h⟩ <;> rw [h]
  · exact routings_report _ j
  · rfl
  · exact (routings_rederive _).trans (routings_note_of_none _ rfl)

/-- It is told where a circuit runs exactly when an attempt was made. -/
theorem routings_meet (o : Occurrence) (j : Job) :
    (j.meet o).routings =
      j.routings ++
        if (o.attempt? j.circuit).isSome then [running (j.meet o).circuit] else [] := by
  have hsilent {k : Job} (h : k.routings = j.routings) : k.routings = j.routings ++ [] :=
    h.trans (List.append_nil _).symm
  cases o with
  | change c =>
    cases c with
    | route t => exact routings_route t j
    | setSets n => exact routings_setSets n j
    | useWiring w =>
      refine hsilent ?_
      change (j.useWiring w).routings = j.routings
      rcases j.useWiring_cases w with h | h <;> rw [h]
      exact (routings_reviewPractice _).trans (routings_rederive _)
    | replaceConductor spec => exact hsilent (routings_refitIf .conductors _)
    | replaceCable spec => exact hsilent (routings_refitIf .cables _)
    | resize s => exact hsilent (congrArg (List.filterMap _) (log_updateRaceway _ _))
    | widen => exact hsilent (routings_respread Spread.wider? j)
    | narrow => exact hsilent (routings_respread Spread.narrower? j)
    | updateLoad f => exact hsilent (routings_rederive _)
  | _ => exact hsilent rfl

end Job

namespace Circuit

theorem tells_create (load : Load) (nonlinear : Bool) (site : Site) :
    Job.Tells (fun _ => False) none (create load nonlinear site) := by
  have hbare : Job.Tells (fun m => (bare load nonlinear site).circuit.ledger.holds m) none
      (bare load nonlinear site) := Job.Tells.start rfl
  have hempty : (fun m => ((bare load nonlinear site).circuit.ledger.holds m : Prop)) =
      fun _ => False := by
    funext m
    exact eq_false Bool.false_ne_true
  rw [hempty] at hbare
  rw [create_eq]
  refine (hbare.inspectLoad ?_).refit.reviewPractice
  exact iff_of_false id Bool.false_ne_true

theorem routings_create (load : Load) (nonlinear : Bool) (site : Site) :
    (create load nonlinear site).routings = [] := by
  rw [create_eq, Job.routings_reviewPractice, Job.routings_refit, Job.routings_inspectLoad]
  rfl

end Circuit

/-- The line of the log that tells an error. -/
def Message.line (m : Message) : String :=
  "WARN Circuit error " ++ toString m.number ++ ": " ++ m.text

/-- The line of the log that tells where a circuit runs. -/
def Circuit.routedLine (c : Circuit) : String :=
  "DEBUG Routed " ++ toString c.items.length ++ " entities in " ++ c.mode.name ++ " mode."

theorem Event.line_failed (m : Message) : (failed m).line = m.line := by
  unfold line text Message.line
  simp only [isWarning, ↓reduceIte, ← String.append_assoc]
  rfl

theorem Event.line_routed (c : Circuit) : (routed c.items.length c.mode).line = c.routedLine := by
  unfold line text Circuit.routedLine
  simp only [isWarning, Bool.false_eq_true, ↓reduceIte, ← String.append_assoc]
  rfl

/-- Of the lines that tell an error there is one for each that was told. -/
theorem Job.Tells.lines {before : Message → Prop} {failure : Option Message} {k : Job}
    (h : k.Tells before failure) (m : Message) :
    (k.log.map Event.line).count m.line ≤ 1 ∧
      (m.line ∈ k.log.map Event.line ↔
        m.severity = .error ∧ k.circuit.ledger.holds m ∧ (¬ before m ∨ failure = some m)) := by
  have hcount : (k.log.map Event.line).count m.line = k.told.count m := by
    rw [← Event.line_failed]
    exact Event.count_line_failed k.log m
  constructor
  · rw [hcount]
    exact List.nodup_iff_count_le_one.mp h.nodup m
  · rw [← List.count_pos_iff, hcount, List.count_pos_iff]
    exact h.mem_iff m

namespace Circuit

/-- **Log and record.** Whatever happens to a circuit, the log tells an error once if it is on
record afterwards and was not before or is how an attempt failed just then, and otherwise not at
all, and it never tells a warning. It tells where the circuit then runs if an attempt was made, and
otherwise nothing of the kind. The making of a circuit is told likewise. -/
theorem log_tells_news (load : Load) (nonlinear : Bool) (site : Site)
    (history : List (Site × Occurrence)) (s : Site) (o : Occurrence) :
    let made := create load nonlinear site
    let c := made.circuit.after history
    let j := Job.meet o ⟨c, s, []⟩
    (∀ m : Message, (j.log.map Event.line).count m.line ≤ 1 ∧
      (m.line ∈ j.log.map Event.line ↔
        m.severity = .error ∧ j.circuit.ledger.holds m ∧
          (¬ c.ledger.holds m ∨ ∃ a, o.attempt? c = some a ∧ a.failure? = some m))) ∧
    (j.log.map Event.line).filter (Begins "DEBUG Routed " ·) =
      (if (o.attempt? c).isSome then [j.circuit.routedLine] else []) ∧
    (∀ m : Message, (made.log.map Event.line).count m.line ≤ 1 ∧
      (m.line ∈ made.log.map Event.line ↔
        m.severity = .error ∧ made.circuit.ledger.holds m)) ∧
    (made.log.map Event.line).filter (Begins "DEBUG Routed " ·) = [] := by
  intro made c j
  obtain ⟨_, hsays, -⟩ := (stands_after load nonlinear site history).record
  have htells := Job.tells_meet (j := ⟨c, s, []⟩) o hsays rfl
  have hmade := tells_create load nonlinear site
  refine ⟨fun m => ?_, ?_, fun m => ?_, ?_⟩
  · have hlines := htells.lines m
    simp only [Option.bind_eq_some_iff] at hlines
    exact hlines
  · rw [Event.filter_begins_routed]
    change j.routings.map _ = _
    rw [Job.routings_meet]
    change List.map _ (if (o.attempt? c).isSome then _ else _) = _
    split
    · exact congrArg (fun l => [l]) (Event.line_routed j.circuit)
    · rfl
  · have hlines := hmade.lines m
    simp only [not_false_eq_true, true_or, and_true] at hlines
    exact hlines
  · rw [Event.filter_begins_routed]
    exact congrArg _ (routings_create load nonlinear site)

end Circuit

end Raceways
