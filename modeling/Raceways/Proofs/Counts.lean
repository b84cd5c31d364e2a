import Raceways.Proofs.Chronicle
import Raceways.Proofs.Destination

/-!
The numbers of sets and conduits of a circuit. They agree all through its life, and as long as the
numbers asked for fit a word of 64 bits, all that is counted and divided in the search for another
number of conduits does as well.
-/

namespace Raceways

/-! ## Counting in words -/

namespace Spread.Even

variable {s : Spread}

/-- In words the same larger number of conduits is found. -/
theorem widerInWords_eq (h : s.Even) (hsets : s.sets < Word.limit)
    (hlast : s.conduits ≠ Word.limit - 1) : s.widerInWords = .ok s.wider? := by
  have hle := h.conduits_le
  have hfirst : Word.succ s.conduits = .ok (s.conduits + 1) := Word.succ_eq (by omega)
  have hseek := seekAbove_eq hsets (s.sets - s.conduits) (k := s.conduits) (by omega)
  simp only [widerInWords, hfirst, hseek, bind, Except.bind]
  refine s.acrossInWords_eq fun d hd => ?_
  have hlt := (nextDivisor?_eq_some_iff.mp hd).1.1
  omega

/-- In words the same smaller number of conduits is found. -/
theorem narrowerInWords_eq (h : s.Even) : s.narrowerInWords = .ok s.narrower? := by
  have hpos := h.conduits_pos
  have hseek := seekBelow_eq s.sets (s.conduits - 1)
  rw [Nat.sub_add_cancel hpos] at hseek
  simp only [narrowerInWords, hseek, bind, Except.bind]
  exact s.acrossInWords_eq fun d hd => (previousDivisor?_eq_some_iff.mp hd).1.1

end Spread.Even

/-! ## The counts of a circuit -/

namespace Occurrence

/-- What is promised for counting in words: the numbers of sets that are asked for are words, and no
more conduits are asked for where there are as many as a word can count. -/
def InWords (c : Circuit) : Occurrence → Prop
  | .change (.setSets n) => n < Word.limit
  | .change .widen => c.spread.conduits ≠ Word.limit - 1
  | _ => True

instance (c : Circuit) (o : Occurrence) : Decidable (o.InWords c) := by
  unfold InWords
  split <;> infer_instance

end Occurrence

namespace Circuit

/-- The sets are as many as a word can count, and only one of them is in a shared conduit. -/
structure Counted (c : Circuit) : Prop where
  sets_lt : c.spread.sets < Word.limit
  alone : ∀ n, c.routing = .shared (.conduit n) → c.spread.sets = 1

theorem counted_create (load : Load) (nonlinear : Bool) (site : Site) :
    (create load nonlinear site).circuit.Counted where
  sets_lt := by
    have hsets : (create load nonlinear site).circuit.spread.sets = 1 := by
      rw [create_eq]
      refine (Job.sets_of_settings_eq (Job.settings_reviewPractice _)).trans ?_
      refine (Job.sets_of_settings_eq (Job.settings_refit _)).trans ?_
      exact Job.sets_of_settings_eq (settings_of_kit_eq (Job.kit_inspectLoad _))
    rw [hsets]
    decide
  alone n hn := by
    rw [routing_create] at hn
    cases hn

/-- An attempt leads to a shared conduit only with one set. -/
theorem sets_of_destination {c : Circuit} {o : Occurrence} {a : Attempt} {n : Nat}
    (hpos : 0 < c.spread.sets) (ha : o.attempt? c = some a)
    (hn : a.destination = .shared (.conduit n)) : o.setsAfter c.spread.sets = 1 := by
  cases o with
  | change ch =>
    cases ch with
    | route t =>
      cases ha
      rcases t with _ | _ | _ | ⟨_ | k⟩ | ⟨_ | k⟩
      case sharedConduit.some =>
        by_cases h : 1 < c.spread.sets
        · simp [Attempt.destination, Target.destination, Target.routingFor, h] at hn
        · exact Nat.le_antisymm (Nat.not_lt.mp h) hpos
      all_goals simp [Attempt.destination, Target.destination, Target.routingFor] at hn
    | setSets k =>
      simp only [Occurrence.attempt?] at ha
      split at ha
      · obtain ⟨r, -, rfl⟩ := Option.map_eq_some_iff.mp ha
        cases hn
      · cases ha
    | _ => cases ha
  | _ => cases ha

/-- Where no attempt is made, one set remains one set. -/
theorem setsAfter_of_not_attempt {c : Circuit} {o : Occurrence} {r : SharedRaceway}
    (hr : c.routing = .shared r) (hsets : c.spread.sets = 1) (ha : o.attempt? c = none) :
    o.setsAfter c.spread.sets = 1 := by
  cases o with
  | change ch =>
    cases ch with
    | setSets k =>
      simp only [Occurrence.attempt?, hr, hsets, Routing.shared?] at ha
      simp only [Occurrence.setsAfter, hsets]
      split at ha
      · cases ha
      · split
        · rfl
        · omega
    | _ => exact hsets
  | _ => exact hsets

theorem Counted.meet {j : Job} (h : j.circuit.Counted) (hpos : 0 < j.circuit.spread.sets)
    {o : Occurrence} (ho : o.InWords j.circuit) : (j.meet o).circuit.Counted where
  sets_lt := by
    have hlt := h.sets_lt
    rw [Job.sets_meet]
    unfold Occurrence.setsAfter
    split
    · split
      · exact hlt
      · exact ho
    · exact hlt
  alone n hn := by
    rw [Job.sets_meet]
    rw [Job.routing_meet] at hn
    cases ha : o.attempt? j.circuit with
    | some a =>
      rw [ha] at hn
      exact sets_of_destination hpos ha hn
    | none =>
      rw [ha] at hn
      exact setsAfter_of_not_attempt hn (h.alone n hn) ha

/-- What is counted stays so over what happens, if the promise is kept. -/
theorem Counted.after {c : Circuit} (h : c.Counted) (hs : c.Shaped)
    (history : List (Site × Occurrence))
    (hw : ∀ e ∈ c.moments history, e.2.InWords e.1) :
    (c.after history).Counted ∧ ∀ e ∈ c.moments history, e.1.Counted ∧ e.1.Shaped := by
  induction history generalizing c with
  | nil => exact ⟨h, fun e he => nomatch he⟩
  | cons e history ih =>
    obtain ⟨s, o⟩ := e
    have hstep : (Job.meet o ⟨c, s, []⟩).circuit.Counted :=
      Counted.meet h hs.even.sets_pos (hw (c, o) List.mem_cons_self)
    obtain ⟨hafter, hall⟩ := ih hstep (Job.settles_meet o hs).1
      fun e he => hw e (List.mem_cons_of_mem _ he)
    refine ⟨hafter, fun e he => ?_⟩
    rcases List.mem_cons.mp he with rfl | he
    · exact ⟨h, hs⟩
    · exact hall e he

theorem mode_eq_sharedConduit_iff (c : Circuit) :
    c.mode = .sharedConduit ↔ ∃ n, c.routing = .shared (.conduit n) := by
  unfold mode
  rcases c.routing with _ | _ | _ | ⟨_ | _⟩ <;> simp [Routing.mode]

/-- **Counts.** All through the life of a circuit its conduits hold one number of sets each and no
set is lost, and in a shared conduit there is one set. Whenever another number of conduits was
sought, the search could be made in words: nothing was counted beyond a word, and nothing divided by
zero. -/
theorem counts_agree (load : Load) (nonlinear : Bool) (site : Site)
    (history : List (Site × Occurrence))
    (hw : ∀ e ∈ (create load nonlinear site).circuit.moments history, e.2.InWords e.1) :
    let start := (create load nonlinear site).circuit
    let c := start.after history
    (1 ≤ c.spread.sets ∧ c.spread.sets < Word.limit) ∧
      (1 ≤ c.spread.conduits ∧ c.spread.conduits ≤ c.spread.sets) ∧
      c.spread.conduits * c.spread.setsPerConduit = c.spread.sets ∧
      (c.mode = .sharedConduit → c.spread.sets = 1) ∧
      ∀ e ∈ start.moments history,
        (e.2 = .change .widen → e.1.spread.widerInWords = .ok e.1.spread.wider?) ∧
          (e.2 = .change .narrow → e.1.spread.narrowerInWords = .ok e.1.spread.narrower?) := by
  intro start c
  have hshaped : start.Shaped := (shaped_create load nonlinear site).1
  obtain ⟨hcounted, hall⟩ := (counted_create load nonlinear site).after hshaped history hw
  have heven : c.spread.Even := (shaped_after hshaped history).1.even
  refine ⟨⟨heven.sets_pos, hcounted.sets_lt⟩, ⟨heven.conduits_pos, heven.conduits_le⟩,
    heven.product, fun hm => ?_, fun e he => ⟨fun ho => ?_, fun _ => ?_⟩⟩
  · obtain ⟨n, hn⟩ := c.mode_eq_sharedConduit_iff.mp hm
    exact hcounted.alone n hn
  · obtain ⟨hc, hs⟩ := hall e he
    have hlast : e.1.spread.conduits ≠ Word.limit - 1 := by
      have hpromise := hw e he
      rw [ho] at hpromise
      exact hpromise
    exact hs.even.widerInWords_eq hc.sets_lt hlast
  · exact (hall e he).2.even.narrowerInWords_eq

/-- A dozen sets are brought together and apart again, and cannot go into a shared conduit. -/
def dozen : List (Site × Occurrence) :=
  [({}, .change (.setSets 12)), ({}, .change .narrow), ({}, .change .widen),
    ({}, .change .narrow), ({}, .change (.route (.sharedConduit (some 0))))]

theorem dozen_spread_evenly :
    let load : Load := { system := .split120x240, ampacity := 16, verdict := some true }
    (∀ e ∈ (create load false {}).circuit.moments dozen, e.2.InWords e.1) ∧
      ((create load false {}).circuit.after dozen).spread = ⟨12, 6, 2⟩ ∧
      ((create load false {}).circuit.after dozen).mode = .freeAir ∧
      ((create load false {}).circuit.after dozen).spread.conduits *
          ((create load false {}).circuit.after dozen).spread.setsPerConduit =
        ((create load false {}).circuit.after dozen).spread.sets := by
  intro load
  have hw : ∀ e ∈ (create load false {}).circuit.moments dozen, e.2.InWords e.1 := by
    decide +kernel
  have hspread : ((create load false {}).circuit.after dozen).spread = ⟨12, 6, 2⟩ := by
    decide +kernel
  have hmode : ((create load false {}).circuit.after dozen).mode = .freeAir := by decide +kernel
  obtain ⟨-, -, hproduct, -⟩ := counts_agree load false {} dozen hw
  exact ⟨hw, hspread, hmode, hproduct⟩

end Circuit

end Raceways
