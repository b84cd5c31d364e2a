import Raceways.Proofs.Itinerary

/-!
What a panel refuses. A circuit is taken from the panel, or sent through one of its raceways, if and
only if the panel has what is named; of two things that it does not have it names the raceway. What
is refused changes nothing, and a circuit that is sent goes there unless it has too many sets.
-/

namespace Raceways

/-- The request to go through a raceway of the panel. -/
def RacewayId.asTarget : RacewayId → Target Place
  | conduit id => .sharedConduit (some (.panel id))
  | bundle id => .sharedBundle (some (.panel id))

namespace SharedRaceway

def asTarget : SharedRaceway → Target Nat
  | conduit n => .sharedConduit (some n)
  | bundle n => .sharedBundle (some n)

/-- Whether the given number of sets is too much for a shared raceway. -/
def Crowds (r : SharedRaceway) (sets : Nat) : Prop := (∃ n, r = .conduit n) ∧ 1 < sets

theorem route_of_crowds {r : SharedRaceway} {sets : Nat} (h : r.Crowds sets) :
    r.asTarget.destination sets = .freeAir ∧
      r.asTarget.failure? sets = some .setsInSharedConduit := by
  obtain ⟨⟨n, rfl⟩, hsets⟩ := h
  simp [asTarget, Target.destination, Target.failure?, Target.routingFor, hsets]

theorem route_of_not_crowds {r : SharedRaceway} {sets : Nat} (h : ¬ r.Crowds sets) :
    r.asTarget.destination sets = .shared r ∧ r.asTarget.failure? sets = none := by
  cases r with
  | conduit n =>
    have hsets : ¬ 1 < sets := fun hlt => h ⟨⟨n, rfl⟩, hlt⟩
    simp [asTarget, Target.destination, Target.failure?, Target.routingFor, hsets]
  | bundle n => exact ⟨rfl, rfl⟩

end SharedRaceway

namespace Installation

variable {w : Installation}

/-- The ids of the circuits that are on the panel. -/
def circuitIds (w : Installation) : List Nat := (w.panel.roster w.circuits).map Prod.fst

theorem mem_circuitIds_iff_onPanel {id : Nat} : id ∈ w.circuitIds ↔ ∃ c, w.OnPanel id c := by
  unfold circuitIds
  rw [List.mem_map]
  constructor
  · rintro ⟨⟨i, c⟩, hc, rfl⟩
    exact ⟨c, (w.mem_roster_iff_onPanel i c).mp hc⟩
  · rintro ⟨c, hc⟩
    exact ⟨(id, c), (w.mem_roster_iff_onPanel id c).mpr hc, rfl⟩

theorem mem_circuitIds_iff (hw : Seated w) {id : Nat} :
    id ∈ w.circuitIds ↔ ∃ n, w.circuitAt (.panel id) = .ok n := by
  rw [mem_circuitIds_iff_onPanel]
  constructor
  · rintro ⟨c, n, hn, -⟩
    exact ⟨n, hn⟩
  · rintro ⟨n, hn⟩
    obtain ⟨c, hc⟩ := hw.live hn
    exact ⟨c, n, hn, hc⟩

theorem circuitAt_panel_of_not_mem (hw : Seated w) {id : Nat} (h : id ∉ w.circuitIds) :
    w.circuitAt (.panel id) = .error (.panel (.circuitNotFound id)) := by
  rw [mem_circuitIds_iff hw] at h
  have hnone : w.panel.circuits[id]?.join = none :=
    Option.eq_none_iff_forall_ne_some.mpr fun n hn =>
      h ⟨n, (circuitAt_panel_iff w id n).mpr hn⟩
  rw [circuitAt, hnone]

/-! ## Replies -/

theorem findTarget_asTarget (w : Installation) (k : RacewayId) :
    w.findTarget k.asTarget =
      match w.panel.shared? k with
      | some r => .ok r.asTarget
      | none => .error (.panel (.racewayNotFound k)) := by
  cases k with
  | conduit id =>
    cases hk : w.panel.conduits[id]? <;>
      simp [RacewayId.asTarget, findTarget, conduitAt, Panel.shared?, hk, Except.map,
        SharedRaceway.asTarget]
  | bundle id =>
    cases hk : w.panel.bundles[id]? <;>
      simp [RacewayId.asTarget, findTarget, bundleAt, Panel.shared?, hk, Except.map,
        SharedRaceway.asTarget]

/-- A request is refused for its target before it is refused for its circuit. -/
theorem reply_request (w : Installation) (p : Place) (t : Target Place) :
    (w.step (.change p (.route t))).reply =
      match w.findTarget t, w.circuitAt p with
      | .error e, _ => .error e
      | .ok _, .error e => .error e
      | .ok _, .ok _ => .ok .done := by
  cases ht : w.findTarget t with
  | error e => simp [step, attempt, findChange, ht, Except.map, bind, Except.bind]
  | ok d =>
    cases hn : w.circuitAt p with
    | error e => simp [step, attempt, findChange, ht, hn, Except.map, bind, Except.bind]
    | ok n =>
      simp only [step, attempt, findChange, ht, hn, Except.map, bind, Except.bind, pure,
        Except.pure, work]
      split <;> rfl

theorem reply_send (hw : Seated w) (id : Nat) (k : RacewayId) :
    (w.step (.change (.panel id) (.route k.asTarget))).reply =
      if k ∉ w.panel.raceways then .error (.panel (.racewayNotFound k))
      else if id ∉ w.circuitIds then .error (.panel (.circuitNotFound id))
      else .ok .done := by
  rw [reply_request, findTarget_asTarget]
  cases hk : w.panel.shared? k with
  | none =>
    have hnot : k ∉ w.panel.raceways := by simp [Panel.mem_raceways_iff, hk]
    rw [if_pos hnot]
  | some r =>
    have hmem : k ∈ w.panel.raceways := by simp [Panel.mem_raceways_iff, hk]
    rw [if_neg (not_not.mpr hmem)]
    by_cases hid : id ∈ w.circuitIds
    · obtain ⟨n, hn⟩ := (mem_circuitIds_iff hw).mp hid
      rw [if_neg (not_not.mpr hid), hn]
    · rw [if_pos hid, circuitAt_panel_of_not_mem hw hid]

theorem looseCircuits_work (w : Installation) (n : Nat) (f : Job → Job) :
    (w.work n f).after.looseCircuits = w.looseCircuits := by
  unfold work
  split <;> rfl

/-- A circuit that is removed gets the next loose slot. -/
theorem removeCircuit_moves {id n : Nat} (hn : w.circuitAt (.panel id) = .ok n) :
    (w.step (.removeCircuit id)).reply = .ok (.circuit (.loose w.looseCircuits.length)) ∧
      (w.step (.removeCircuit id)).after.circuitAt (.loose w.looseCircuits.length) = .ok n := by
  let routed := (w.vacate (.panel id)).work n (Job.route .privateConduit)
  have hstep : w.step (.removeCircuit id) =
      ⟨(routed.after.release n).1, routed.log, .ok (.circuit (routed.after.release n).2)⟩ := by
    simp only [step, attempt, hn]
    rfl
  have hslot : (routed.after.release n).2 = .loose w.looseCircuits.length :=
    congrArg (fun l : List (Option Nat) => Place.loose l.length)
      (looseCircuits_work (w.vacate (.panel id)) n _)
  rw [hstep, ← hslot]
  exact ⟨rfl, (circuitAt_release_iff routed.after n _ n).mpr (Or.inl ⟨rfl, rfl⟩)⟩

theorem reply_removeCircuit (hw : Seated w) (id : Nat) :
    (w.step (.removeCircuit id)).reply =
      if id ∉ w.circuitIds then .error (.panel (.circuitNotFound id))
      else .ok (.circuit (.loose w.looseCircuits.length)) := by
  by_cases hid : id ∈ w.circuitIds
  · obtain ⟨n, hn⟩ := (mem_circuitIds_iff hw).mp hid
    rw [if_neg (not_not.mpr hid)]
    exact (removeCircuit_moves hn).1
  · rw [if_pos hid]
    simp [step, attempt, circuitAt_panel_of_not_mem hw hid, bind, Except.bind]

/-! ## Circuits that are sent -/

/-- A circuit of the panel that is sent through a raceway runs there, or in free air with too many
sets on record. -/
theorem onPanel_after_send {id : Nat} {k : RacewayId} {c : Circuit} {r : SharedRaceway}
    (hc : w.OnPanel id c) (hlived : c.Lived) (hk : w.panel.shared? k = some r) :
    ∃ d, (w.step (.change (.panel id) (.route k.asTarget))).after.OnPanel id d ∧
      (d.routing = .shared r ∨ d.routing = .freeAir) ∧
      (d.routing = .freeAir ↔ r.Crowds c.spread.sets) ∧
      (d.ledger.has Message.setsInSharedConduit.number ↔ r.Crowds c.spread.sets) := by
  obtain ⟨n, hn, hcn⟩ := hc
  have htarget : w.findTarget k.asTarget = .ok r.asTarget := by rw [findTarget_asTarget, hk]
  have hafter := circuit?_request htarget hn hcn
  obtain ⟨S, hsays⟩ := hlived.told
  have hrouting := Job.routing_route r.asTarget ⟨c, w.site, []⟩
  have hrecord := Job.Says.route (j := ⟨c, w.site, []⟩) hsays r.asTarget
  have hhas := hrecord.has_number_iff .setsInSharedConduit
  refine ⟨_, ⟨n, (circuitAt_change w _ _ _).trans hn, hafter⟩, ?_⟩
  dsimp only at hrouting hhas
  rw [hrouting, hhas]
  by_cases hcrowds : r.Crowds c.spread.sets
  · obtain ⟨hdest, hfail⟩ := SharedRaceway.route_of_crowds hcrowds
    simp [hdest, hfail, hcrowds, Raceways.due, Message.aboutPractice]
  · obtain ⟨hdest, hfail⟩ := SharedRaceway.route_of_not_crowds hcrowds
    simp [hdest, hfail, hcrowds, Raceways.due, Message.aboutPractice]

/-- **Refusals are exact and harmless.** A circuit can be sent through a raceway of the panel if the
panel has both, and taken from the panel if it is there. Otherwise the panel names what it does not
have, the raceway first, and all is as it was. A circuit that was sent runs through that raceway, or
in free air with an error on record; this only if it has more than one set and was to go through a
conduit. -/
theorem refusals_are_exact (actions : List Action) (id : Nat) (k : RacewayId) :
    let w := run {} actions
    let sent := w.step (.change (.panel id) (.route k.asTarget))
    let removed := w.step (.removeCircuit id)
    sent.reply =
        (if k ∉ w.panel.raceways then .error (.panel (.racewayNotFound k))
        else if id ∉ w.circuitIds then .error (.panel (.circuitNotFound id))
        else .ok .done) ∧
      removed.reply =
        (if id ∉ w.circuitIds then .error (.panel (.circuitNotFound id))
        else .ok (.circuit (.loose w.looseCircuits.length))) ∧
      (∀ e, sent.reply = .error e → sent.after = w ∧ sent.log = []) ∧
      (∀ e, removed.reply = .error e → removed.after = w ∧ removed.log = []) ∧
      (sent.reply = .ok .done → ∃ r c d, w.panel.shared? k = some r ∧ w.OnPanel id c ∧
        sent.after.OnPanel id d ∧ (d.routing = .shared r ∨ d.routing = .freeAir) ∧
        (d.routing = .freeAir ↔ (∃ n, r = .conduit n) ∧ 1 < c.spread.sets) ∧
        (d.ledger.has (-2) ↔ (∃ n, r = .conduit n) ∧ 1 < c.spread.sets)) := by
  intro w sent removed
  have hw : Seated w := seated_run actions
  have hsent := reply_send hw id k
  refine ⟨hsent, reply_removeCircuit hw id, fun e => step_of_refused, fun e => step_of_refused,
    fun hok => ?_⟩
  change sent.reply = _ at hsent
  rw [hok] at hsent
  split_ifs at hsent with hk hid
  obtain ⟨r, hr⟩ := Option.isSome_iff_exists.mp ((w.panel.mem_raceways_iff k).mp hk)
  obtain ⟨c, hc⟩ := mem_circuitIds_iff_onPanel.mp hid
  have hlived : c.Lived := by
    obtain ⟨n, -, hcn⟩ := hc
    exact lived_of_run actions n c hcn
  obtain ⟨d, hd, hresult⟩ := onPanel_after_send hc hlived hr
  exact ⟨r, c, d, hr, hc, hd, hresult⟩

/-- The first of two circuits has too many sets for the conduit. There is neither a third circuit
nor a second conduit. -/
theorem refusals_after_handover :
    let w := run {} handover
    let send (id : Nat) (k : RacewayId) := w.step (.change (.panel id) (.route k.asTarget))
    let removed := w.step (.removeCircuit 2)
    ((send 0 (.conduit 0)).reply = .ok .done ∧
      ∃ d, (send 0 (.conduit 0)).after.OnPanel 0 d ∧ d.routing = .freeAir ∧ d.ledger.has (-2)) ∧
    ((send 2 (.conduit 1)).reply = .error (.panel (.racewayNotFound (.conduit 1))) ∧
      (send 2 (.conduit 1)).after = w) ∧
    removed.reply = .error (.panel (.circuitNotFound 2)) ∧ removed.after = w := by
  intro w send removed
  have hsent : (send 0 (.conduit 0)).reply = .ok .done := by rfl
  have hlost : (send 2 (.conduit 1)).reply = .error (.panel (.racewayNotFound (.conduit 1))) := by
    rfl
  have hgone : removed.reply = .error (.panel (.circuitNotFound 2)) := by rfl
  obtain ⟨-, -, -, -, hgoes⟩ := refusals_are_exact handover 0 (.conduit 0)
  obtain ⟨-, -, hsame, hsame', -⟩ := refusals_are_exact handover 2 (.conduit 1)
  obtain ⟨r, c, d, hr, hc, hd, -, hair, herror⟩ := hgoes hsent
  have hconduit : ∃ n, r = .conduit n := ⟨0, (Option.some.inj hr).symm⟩
  have hsets : 1 < c.spread.sets := by
    obtain ⟨n, hn, hc⟩ := hc
    cases hn
    cases hc
    decide
  exact ⟨⟨hsent, d, hd, hair.mpr ⟨hconduit, hsets⟩, herror.mpr ⟨hconduit, hsets⟩⟩,
    ⟨hlost, (hsame _ hlost).1⟩, hgone, (hsame' _ hgone).1⟩

end Installation

end Raceways
