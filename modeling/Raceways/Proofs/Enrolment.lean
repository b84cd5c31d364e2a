import Raceways.Proofs.Refusals
import Raceways.Proofs.Verdict

/-!
How a panel gives out ids, and what becomes of a circuit that is taken from it. Ids count the
circuits that were ever put on the panel, so none is given out twice, and an id stands for its
circuit until this is removed. A circuit that is removed leaves nothing behind in shared raceways.
-/

namespace Raceways

/-- A circuit can always go to its private conduit. -/
theorem Job.Says.no_errors_in_privateConduit {j : Job} {S : Message → Prop} (h : j.Says S)
    {m : Message} (hm : m ∈ Message.aboutRouting) (herror : m.severity = .error) :
    ¬ (j.route .privateConduit).circuit.ledger.has m.number := by
  rw [(h.route .privateConduit).has_number_iff]
  cases m with
  | invalidLoad => simp [Message.aboutRouting] at hm
  | conductorsInFreeAir | conductorsInBundle | cableInConduit => cases herror
  | _ => simp [due, Message.aboutPractice, Target.failure?, Target.routingFor]

/-- Whether an action may give an id of the panel or take one. -/
def Action.enlists : Action → Bool
  | newCircuit _ _ inPanel => inPanel
  | addCircuit _ | removeCircuit _ => true
  | _ => false

/-- The id of the panel that is answered. -/
def Reply.id? : Reply → Option Nat
  | circuit (.panel id) => some id
  | _ => none

namespace Installation

/-! ## What an action does to the ids -/

/-- The circuit that an action puts on the panel: one that is made there, or a loose one. -/
def newcomer? (w : Installation) : Action → Option Nat
  | .newCircuit _ _ true => some w.circuits.length
  | .addCircuit slot => (w.circuitAt (.loose slot)).toOption
  | _ => none

/-- What an action comes to for the ids of the panel. A new id is the next one, a removed id stays
vacant, and otherwise all ids stay as they are. -/
inductive Enrols (w : Installation) (a : Action) (o : Outcome) : Prop
  | enrol (n : Nat) (ha : w.newcomer? a = some n)
      (hids : o.after.panel.circuits = w.panel.circuits ++ [some n])
      (hreply : o.reply = .ok (.circuit (.panel w.panel.circuits.length)))
  | remove (id : Nat) (ha : a = .removeCircuit id) (hlt : id < w.panel.circuits.length)
      (hids : o.after.panel.circuits = w.panel.circuits.set id none)
      (hreply : ∃ slot, o.reply = .ok (.circuit (.loose slot)))
  | keep (ha : w.newcomer? a = none) (hremove : ∀ id r, a = .removeCircuit id → o.reply ≠ .ok r)
      (hids : o.after.panel.circuits = w.panel.circuits)
      (hreply : ∀ id, o.reply ≠ .ok (.circuit (.panel id)))

variable {w : Installation}

/-- What was done leaves the ids alone, and is not answered with one. -/
def LeavesIds (w : Installation) (e : Effect) : Prop :=
  e.after.panel.circuits = w.panel.circuits ∧ e.reply.id? = none

theorem panel_work (w : Installation) (n : Nat) (f : Job → Job) :
    (w.work n f).after.panel = w.panel := by
  unfold work
  split <;> rfl

theorem leavesIds_work (w : Installation) (n : Nat) (f : Job → Job) :
    w.LeavesIds (w.work n f) := by
  unfold work
  split <;> exact ⟨rfl, rfl⟩

theorem leavesIds_takeDown (w : Installation) (n : Nat) (held : List SharedRaceway) :
    w.LeavesIds (w.takeDown n held) := by
  unfold takeDown
  split <;> exact ⟨rfl, rfl⟩

theorem leavesIds_of_lookup {e : Effect} {x : Except Refusal Nat} {f : Nat → Effect}
    (h : (x >>= fun n => pure (f n)) = .ok e) (hf : ∀ n, w.LeavesIds (f n)) : w.LeavesIds e := by
  obtain ⟨n, -, he⟩ := (bind_eq_ok_iff _ _ _).mp h
  cases he
  exact hf n

/-- Most actions have nothing to do with the ids. -/
theorem leavesIds_of_attempt {a : Action} (ha : a.enlists = false) {e : Effect}
    (h : w.attempt a = .ok e) : w.LeavesIds e := by
  cases a with
  | newCircuit load nonlinear inPanel =>
    cases ha
    cases h
    exact ⟨rfl, rfl⟩
  | addCircuit slot | removeCircuit id => cases ha
  | newConduit spec inPanel | newBundle distance inPanel =>
    cases h
    cases inPanel <;> exact ⟨rfl, rfl⟩
  | newItem =>
    cases h
    exact ⟨rfl, rfl⟩
  | dropCircuit slot k b =>
    obtain ⟨held, -, h⟩ := (bind_eq_ok_iff _ _ _).mp h
    exact leavesIds_of_lookup h fun n => leavesIds_takeDown (w.vacate (.loose slot)) n held
  | change p c =>
    obtain ⟨d, -, h⟩ := (bind_eq_ok_iff _ _ _).mp h
    exact leavesIds_of_lookup h fun n => leavesIds_work w n _
  | copyConduit source target | copyBundle source target =>
    obtain ⟨k, -, h⟩ := (bind_eq_ok_iff _ _ _).mp h
    exact leavesIds_of_lookup h fun n => ⟨rfl, rfl⟩
  | pokeLoad | editPrivateConduit | replacePrivateConduit | setPrivateDistance
  | overwritePrivate => exact leavesIds_of_lookup h fun n => leavesIds_work w n _
  | _ => exact leavesIds_of_lookup h fun n => ⟨rfl, rfl⟩

theorem newcomer?_of_enlists_eq_false {a : Action} (ha : a.enlists = false) :
    w.newcomer? a = none := by
  cases a with
  | newCircuit load nonlinear inPanel =>
    cases ha
    rfl
  | addCircuit slot => cases ha
  | _ => rfl

theorem newcomer?_of_refused {a : Action} {r : Refusal} (h : w.attempt a = .error r) :
    w.newcomer? a = none := by
  cases a with
  | newCircuit load nonlinear inPanel => cases h
  | addCircuit slot =>
    cases hn : w.circuitAt (.loose slot) with
    | error e => rw [newcomer?, hn, Except.toOption]
    | ok n => simp [attempt, hn, bind, Except.bind, pure, Except.pure] at h
  | _ => rfl

theorem enrols_of_refused {a : Action} {r : Refusal} (h : w.attempt a = .error r) :
    Enrols w a (w.step a) := by
  have hreply : (w.step a).reply = .error r := by rw [step, h]
  refine .keep (newcomer?_of_refused h) (fun id x _ hx => ?_) (by rw [step, h]) fun id hid => ?_
  · rw [hreply] at hx
    cases hx
  · rw [hreply] at hid
    cases hid

theorem enrols_of_enlists_eq_false {a : Action} (ha : a.enlists = false) {e : Effect}
    (he : w.attempt a = .ok e) : Enrols w a (w.step a) := by
  obtain ⟨hids, hreply⟩ := leavesIds_of_attempt ha he
  have hstep : w.step a = ⟨e.after, e.log, .ok e.reply⟩ := by rw [step, he]
  rw [hstep]
  refine .keep (newcomer?_of_enlists_eq_false ha) (fun id r hid => ?_) hids fun id hid => ?_
  · subst hid
    cases ha
  · rw [Except.ok.inj hid] at hreply
    cases hreply

theorem enrols_addCircuit {slot n : Nat} (hn : w.circuitAt (.loose slot) = .ok n) :
    Enrols w (.addCircuit slot) (w.step (.addCircuit slot)) := by
  refine .enrol n (by rw [newcomer?, hn, Except.toOption]) ?_ ?_ <;>
    simp [step, attempt, hn, bind, Except.bind, pure, Except.pure, enroll]

theorem enrols_removeCircuit {id n : Nat} (hn : w.circuitAt (.panel id) = .ok n) :
    Enrols w (.removeCircuit id) (w.step (.removeCircuit id)) := by
  have hids : (w.step (.removeCircuit id)).after.panel.circuits = w.panel.circuits.set id none := by
    simp only [step, attempt, hn, bind, Except.bind, pure, Except.pure, release]
    rw [panel_work]
  refine .remove id rfl ?_ hids ⟨_, (removeCircuit_moves hn).1⟩
  rw [circuitAt_panel_iff, Option.join_eq_some_iff] at hn
  exact (List.getElem?_eq_some_iff.mp hn).1

theorem enrols_step (w : Installation) (a : Action) : Enrols w a (w.step a) := by
  cases he : w.attempt a with
  | error r => exact enrols_of_refused he
  | ok e =>
    cases a with
    | newCircuit load nonlinear inPanel =>
      cases inPanel with
      | false => exact enrols_of_enlists_eq_false rfl he
      | true => exact .enrol _ rfl rfl rfl
    | addCircuit slot =>
      obtain ⟨n, hn, -⟩ := (bind_eq_ok_iff _ _ _).mp he
      exact enrols_addCircuit hn
    | removeCircuit id =>
      obtain ⟨n, hn, -⟩ := (bind_eq_ok_iff _ _ _).mp he
      exact enrols_removeCircuit hn
    | _ => exact enrols_of_enlists_eq_false rfl he

/-! ## Ids in the course of a run -/

/-- The circuits that were put on the panel, in this order. -/
def newcomers (scenes : List (Installation × Action)) : List Nat :=
  scenes.filterMap fun s => s.1.newcomer? s.2

/-- Whether a circuit was removed from the panel. -/
def Removed (scenes : List (Installation × Action)) (id : Nat) : Prop :=
  ∃ s ∈ scenes, s.2 = .removeCircuit id ∧ s.1.Accepts s.2

theorem newcomers_append (scenes : List (Installation × Action)) (s : Installation × Action) :
    newcomers (scenes ++ [s]) = newcomers scenes ++ (s.1.newcomer? s.2).toList := by
  unfold newcomers
  rw [List.filterMap_append]
  cases h : s.1.newcomer? s.2 <;> simp [h]

theorem removed_append (scenes : List (Installation × Action)) (s : Installation × Action)
    (id : Nat) :
    Removed (scenes ++ [s]) id ↔ Removed scenes id ∨ s.2 = .removeCircuit id ∧ s.1.Accepts s.2 := by
  unfold Removed
  constructor
  · rintro ⟨t, ht, h⟩
    rcases List.mem_append.mp ht with ht | ht
    · exact Or.inl ⟨t, ht, h⟩
    · cases List.mem_singleton.mp ht
      exact Or.inr h
  · rintro (⟨t, ht, h⟩ | h)
    · exact ⟨t, List.mem_append_left _ ht, h⟩
    · exact ⟨s, List.mem_append_right _ List.mem_cons_self, h⟩

/-- What the ids of the panel are to be after what was done: each newcomer has the next id, and what
was removed has none. -/
structure Numbered (w : Installation) (scenes : List (Installation × Action)) : Prop where
  count : w.panel.circuits.length = (newcomers scenes).length
  entry : ∀ id n, w.panel.circuits[id]?.join = some n ↔
    (newcomers scenes)[id]? = some n ∧ ¬ Removed scenes id
  given : ∀ id, Removed scenes id → id < (newcomers scenes).length

namespace Numbered

variable {v : Installation} {past scenes : List (Installation × Action)}

theorem enrol (h : Numbered w past) {n : Nat} (hnew : newcomers scenes = newcomers past ++ [n])
    (hremoved : ∀ id, Removed scenes id ↔ Removed past id)
    (hids : v.panel.circuits = w.panel.circuits ++ [some n]) : Numbered v scenes := by
  -- The next id is vacant in both accounts: nothing was removed that had not been given.
  have hlast : ¬ Removed past (newcomers past).length :=
    fun hid => Nat.lt_irrefl _ (h.given _ hid)
  refine ⟨by simp [hids, hnew, h.count], fun id m => ?_, fun id hid => ?_⟩
  · rw [hids, join_getElem?_append_some, h.entry, hremoved, hnew, h.count]
    grind
  · have hlt := h.given id ((hremoved id).mp hid)
    rw [hnew, List.length_append]
    omega

theorem remove (h : Numbered w past) {i : Nat} (hlt : i < w.panel.circuits.length)
    (hnew : newcomers scenes = newcomers past)
    (hremoved : ∀ id, Removed scenes id ↔ Removed past id ∨ id = i)
    (hids : v.panel.circuits = w.panel.circuits.set i none) : Numbered v scenes := by
  refine ⟨by rw [hids, List.length_set, hnew, h.count], fun id m => ?_, fun id hid => ?_⟩
  · rw [hids, join_getElem?_set_none, h.entry, hnew, hremoved, not_or]
    exact ⟨fun ⟨hne, hm, hid⟩ => ⟨hm, hid, hne⟩, fun ⟨hm, hid, hne⟩ => ⟨hne, hm, hid⟩⟩
  · rw [hnew]
    rcases (hremoved id).mp hid with hid | rfl
    · exact h.given id hid
    · rwa [← h.count]

theorem keep (h : Numbered w past) (hnew : newcomers scenes = newcomers past)
    (hremoved : ∀ id, Removed scenes id ↔ Removed past id)
    (hids : v.panel.circuits = w.panel.circuits) : Numbered v scenes := by
  refine ⟨by rw [hids, hnew, h.count], fun id m => ?_, fun id hid => ?_⟩
  · rw [hids, hnew, hremoved, h.entry]
  · rw [hnew]
    exact h.given id ((hremoved id).mp hid)

theorem empty : Numbered {} [] where
  count := rfl
  entry id n := by simp [newcomers]
  given id h := by
    obtain ⟨s, hs, -⟩ := h
    cases hs

theorem step (h : Numbered w past) (a : Action) :
    Numbered (w.step a).after (past ++ [(w, a)]) := by
  have hnew := newcomers_append past (w, a)
  have hremoved := removed_append past (w, a)
  cases enrols_step w a with
  | enrol n ha hids _ =>
    rw [ha] at hnew
    refine h.enrol hnew (fun id => (hremoved id).trans (or_iff_left ?_)) hids
    rintro ⟨rfl, -⟩
    cases ha
  | remove i ha hlt hids hreply =>
    subst ha
    obtain ⟨slot, hreply⟩ := hreply
    refine h.remove hlt (hnew.trans (List.append_nil _)) (fun id => (hremoved id).trans ?_) hids
    refine or_congr_right ⟨fun hid => (Action.removeCircuit.inj hid.1).symm, ?_⟩
    rintro rfl
    exact ⟨rfl, _, hreply⟩
  | keep ha hremove hids _ =>
    rw [ha] at hnew
    refine h.keep (hnew.trans (List.append_nil _))
      (fun id => (hremoved id).trans (or_iff_left ?_)) hids
    rintro ⟨hid, r, hr⟩
    exact hremove id r hid hr

end Numbered

theorem numbered_run (actions : List Action) :
    Numbered (run {} actions) (scenes {} actions) := by
  induction actions using List.reverseRecOn with
  | nil => exact .empty
  | append_singleton past a ih =>
    rw [scenes_append, run_append]
    exact ih.step a

/-- The panel answers with an id only for a newcomer, and this is the number of those before. -/
theorem Numbered.reply_iff {past : List (Installation × Action)} (h : Numbered w past)
    (a : Action) (id : Nat) :
    (w.step a).reply = .ok (.circuit (.panel id)) ↔
      (w.newcomer? a).isSome ∧ id = (newcomers past).length := by
  rw [← h.count]
  cases enrols_step w a with
  | enrol n ha _ hreply => simp [ha, hreply, eq_comm]
  | remove i ha _ _ hreply =>
    subst ha
    obtain ⟨slot, hreply⟩ := hreply
    simp [newcomer?, hreply]
  | keep ha _ _ hreply => simp [ha, hreply id]

/-! ## A circuit that leaves -/

/-- A circuit that comes out of its shared raceway takes its items along and leaves the rest. -/
theorem Accounted.contents?_of_moved_out {s t : Site} {circuits circuits' : List (Option Circuit)}
    {left : SharedRaceway → Item → Prop} (h : Accounted s circuits left)
    (h' : Accounted t circuits' left) {n : Nat} {c d : Circuit}
    (hc : circuits[n]?.join = some c) (hd : circuits'[n]?.join = some d)
    (hothers : ∀ m, m ≠ n → circuits'[m]?.join = circuits[m]?.join)
    (hfit : ∀ r, t.fittings? r = s.fittings? r) (hout : ∀ r, d.routing ≠ .shared r)
    (r : SharedRaceway) : t.contents? r = (s.contents? r).map (Contents.without c.items) := by
  have hthere : (t.contents? r).isSome = (s.contents? r).isSome := by
    rw [← Site.isSome_fittings?, hfit, Site.isSome_fittings?]
  cases hk : s.contents? r with
  | none =>
    rw [hk] at hthere
    exact Option.isNone_iff_eq_none.mp (by simpa using hthere)
  | some k =>
    rw [hk] at hthere
    obtain ⟨l, hl⟩ := Option.isSome_iff_exists.mp hthere
    rw [hl, Option.map_some]
    refine congrArg some (Ascending.ext_mem fun i => ?_)
    -- Before and after, what is not the circuit's own is the same: other circuits and what is left.
    have hnew : i ∈ l.toList ↔ Strangers circuits left n (.shared r) i := by
      refine ((h'.lodged hd).holds (.shared r) l hl i).trans ?_
      refine (or_iff_left fun ho => hout r ho.1).trans (or_congr_left ?_)
      exact elsewhere_congr hothers r i
    have hold : i ∈ k.toList ↔ Strangers circuits left n (.shared r) i ∨
        c.routing = .shared r ∧ i ∈ c.items := (h.lodged hc).holds (.shared r) k hk i
    rw [hnew, Contents.mem_without, hold]
    constructor
    · intro hi
      have hnot := (h.strange hc (.shared r) i hi).2
      exact ⟨Or.inl hi, fun hid => hnot (Circuit.mem_ids_of_mem_items hid)⟩
    · rintro ⟨hi | ⟨-, hi⟩, hid⟩
      · exact hi
      · exact absurd (List.mem_map.mpr ⟨i, hi, rfl⟩) hid

/-- The items of a circuit that is in no shared raceway are in none. -/
theorem Accounted.not_mem_ids_of_moved_out {t : Site} {circuits : List (Option Circuit)}
    {left : SharedRaceway → Item → Prop} (h : Accounted t circuits left) {n : Nat} {d : Circuit}
    (hd : circuits[n]?.join = some d) (hout : ∀ r, d.routing ≠ .shared r) {r : SharedRaceway}
    {k : Contents} (hk : t.contents? r = some k) {i : Item} (hi : i ∈ d.items) : i.id ∉ k.ids := by
  intro hid
  obtain ⟨x, hx, hxi⟩ := List.mem_map.mp hid
  rcases ((h.lodged hd).holds (.shared r) k hk x).mp hx with hx | hx
  · exact (h.strange hd (.shared r) x hx).2 (hxi ▸ Circuit.item_id_mem hi)
  · exact hout r hx.1

/-- What a circuit comes to when it goes to its private conduit, and what it leaves alone. -/
structure Withdrawn (w v : Installation) (n : Nat) (c d : Circuit) : Prop where
  settings : d.settings = c.settings
  mode : d.mode = .privateConduit
  no_errors : ∀ m ∈ Message.aboutRouting, m.severity = .error → ¬ d.ledger.has m.number
  others : ∀ m, m ≠ n → v.circuit? m = w.circuit? m
  fittings : ∀ r, v.site.fittings? r = w.site.fittings? r

/-- Its items are all in there and nowhere else, and in shared raceways all else is as it was. -/
structure TakenAlong (w v : Installation) (c d : Circuit) : Prop where
  inside : ∀ i, i ∈ d.conduit.contents.toList ↔ i ∈ d.items
  outside : ∀ r k, v.site.contents? r = some k → ∀ i ∈ d.items, i.id ∉ k.ids
  contents : ∀ r, v.site.contents? r = (w.site.contents? r).map (Contents.without c.items)

theorem withdrawn_of_removeCircuit {id n : Nat} {c : Circuit} (hlived : c.Lived)
    (hn : w.circuitAt (.panel id) = .ok n) (hc : w.circuit? n = some c) :
    let v := (w.step (.removeCircuit id)).after
    ∃ d, v.circuit? n = some d ∧ Withdrawn w v n c d := by
  intro v
  obtain ⟨hothers, hframe⟩ := frame_step w (.removeCircuit id) (.panel id) n rfl hn
  have hrouting := Job.routing_route .privateConduit ⟨c, w.site, []⟩
  obtain ⟨S, hsays⟩ := hlived.told
  refine ⟨_, circuit?_removeCircuit hn hc, ?_⟩
  exact {
    settings := Job.settings_route .privateConduit ⟨c, w.site, []⟩
    mode := (Circuit.mode_eq_privateConduit_iff _).mpr hrouting
    no_errors := fun m => Job.Says.no_errors_in_privateConduit (j := ⟨c, w.site, []⟩) hsays
    others := hothers
    fittings := hframe.fittings }

theorem Withdrawn.takenAlong {v : Installation} {left : SharedRaceway → Item → Prop} {n : Nat}
    {c d : Circuit} (h : Withdrawn w v n c d) (hc : w.circuit? n = some c)
    (hd : v.circuit? n = some d) (hbefore : Accounted w.site w.circuits left)
    (hafter : Accounted v.site v.circuits left) : TakenAlong w v c d := by
  have hrouting : d.routing = .privateConduit := d.mode_eq_privateConduit_iff.mp h.mode
  have hout : ∀ r, d.routing ≠ .shared r := by
    intro r hr
    rw [hrouting] at hr
    cases hr
  exact {
    inside := fun i => (hafter.conduit n d hd i).trans (and_iff_right hrouting)
    outside := fun r k hk i hi => hafter.not_mem_ids_of_moved_out hd hout hk hi
    contents := hbefore.contents?_of_moved_out hafter hc hd h.others h.fittings hout }

/-- To be taken from the panel leaves nothing behind. -/
theorem accounted_removeCircuit (actions : List Action)
    (ha : ∀ a ∈ actions, a.overwrites = false) (id : Nat) :
    let v := ((run {} actions).step (.removeCircuit id)).after
    Accounted v.site v.circuits fun r i => i ∈ leftBehind {} actions r :=
  ((accounted_of_run actions ha).turn (charted_run actions) rfl
    (turn_of_step (run {} actions) (.removeCircuit id))).congr
      fun _ _ => or_iff_left List.not_mem_nil

/-- An id that is found again later stands for the same circuit. -/
theorem circuitAt_panel_of_later (actions later : List Action) {id n m : Nat}
    (hn : (run {} actions).circuitAt (.panel id) = .ok n)
    (hm : ((run {} actions).run later).circuitAt (.panel id) = .ok m) : m = n := by
  rw [← run_append] at hm
  have hbefore := (numbered_run actions).entry id n
  have hafter := (numbered_run (actions ++ later)).entry id m
  rw [← circuitAt_panel_iff] at hbefore hafter
  have hold := (hbefore.mp hn).1
  have hnew := (hafter.mp hm).1
  have hlt := (List.getElem?_eq_some_iff.mp hold).1
  rw [scenes_append, newcomers, List.filterMap_append] at hnew
  rw [newcomers] at hold hlt
  rw [List.getElem?_append_left hlt, hold] at hnew
  exact (Option.some.inj hnew).symm

/-- **Ids are never reused.** Whatever was removed before, the next circuit that is put on the panel
gets the number of those that were ever put there as its id. An id stands for that circuit until it
is removed, and then for none. The circuits of the panel are those with an id, in order of their
ids. A circuit that is removed goes to its private conduit with no error about routing on record,
and the other circuits stay as they are. Unless someone has overwritten a raceway, it takes along
all that is its own and leaves the rest. -/
theorem ids_never_reused (actions : List Action) :
    let w := run {} actions
    let past := scenes {} actions
    (∀ a id, (w.step a).reply = .ok (.circuit (.panel id)) ↔
      (w.newcomer? a).isSome ∧ id = (newcomers past).length) ∧
    (∀ id n, w.circuitAt (.panel id) = .ok n ↔
      (newcomers past)[id]? = some n ∧ ¬ Removed past id) ∧
    (∀ later id n m, w.circuitAt (.panel id) = .ok n →
      (w.run later).circuitAt (.panel id) = .ok m → m = n) ∧
    (∀ id n, w.circuitAt (.panel id) = .ok n → ∃ c, w.circuit? n = some c) ∧
    (∀ id c, (id, c) ∈ w.panel.roster w.circuits ↔ w.OnPanel id c) ∧
    w.circuitIds.Pairwise (· < ·) ∧
    ∀ id n c, w.circuitAt (.panel id) = .ok n → w.circuit? n = some c →
      let v := (w.step (.removeCircuit id)).after
      ∃ slot d, (w.step (.removeCircuit id)).reply = .ok (.circuit (.loose slot)) ∧
        v.circuitAt (.loose slot) = .ok n ∧ v.circuit? n = some d ∧ Withdrawn w v n c d ∧
        ((∀ a ∈ actions, a.overwrites = false) → TakenAlong w v c d) := by
  intro w past
  have hnumbered : Numbered w past := numbered_run actions
  refine ⟨hnumbered.reply_iff, fun id n => ?_,
    fun later id n m => circuitAt_panel_of_later actions later,
    fun id n => (seated_run actions).live, w.mem_roster_iff_onPanel, ?_, ?_⟩
  · exact (circuitAt_panel_iff w id n).trans (hnumbered.entry id n)
  · exact List.pairwise_map.mpr (w.panel.pairwise_roster w.circuits)
  · intro id n c hn hc v
    obtain ⟨hreply, hslot⟩ := removeCircuit_moves hn
    obtain ⟨d, hd, hwithdrawn⟩ :=
      withdrawn_of_removeCircuit (lived_of_run actions n c hc) hn hc
    refine ⟨_, d, hreply, hslot, hd, hwithdrawn, fun ha => ?_⟩
    exact hwithdrawn.takenAlong hc hd (accounted_of_run actions ha)
      (accounted_removeCircuit actions ha id)

/-- Two circuits of a panel share a conduit. The first is removed and put back, and gets a load of
another system, unnoticed. -/
def readmission : List Action :=
  let load : Load := { system := .ln120, ampacity := 16, verdict := some true }
  let shared : Change Place := .route (.sharedConduit (some (.panel 0)))
  [.newConduit {} true, .newCircuit load false true, .newCircuit load false true,
    .change (.panel 1) shared, .removeCircuit 0, .addCircuit 0, .change (.panel 2) shared,
    .pokeLoad (.panel 2) fun l => { l with system := .wye277x480 }]

/-- A third circuit gets a new id, though one is vacant. The one that was put back can be removed
again, and leaves the other one in the conduit. -/
theorem ids_after_readmission :
    let w := run {} readmission
    let load : Load := { system := .ln120, ampacity := 16, verdict := some true }
    let v := (w.step (.removeCircuit 2)).after
    (∀ a ∈ readmission, a.overwrites = false) ∧
      (w.step (.newCircuit load false true)).reply = .ok (.circuit (.panel 3)) ∧
      (∀ n, w.circuitAt (.panel 0) ≠ .ok n) ∧ w.circuitAt (.panel 2) = .ok 0 ∧
      ∃ c slot d, w.circuit? 0 = some c ∧ c.routing = .shared (.conduit 0) ∧
        (w.step (.removeCircuit 2)).reply = .ok (.circuit (.loose slot)) ∧
        v.circuitAt (.loose slot) = .ok 0 ∧ v.circuit? 0 = some d ∧ Withdrawn w v 0 c d ∧
        TakenAlong w v c d := by
  intro w load v
  have hnewcomers : newcomers (scenes {} readmission) = [0, 1, 0] := by rfl
  have hremoved : Removed (scenes {} readmission) 0 :=
    ⟨(run {} (readmission.take 4), .removeCircuit 0), by simp [readmission, scenes, run], rfl,
      _, rfl⟩
  have hplace : w.circuitAt (.panel 2) = .ok 0 := by rfl
  obtain ⟨hreply, hid, -, -, -, -, hremove⟩ := ids_never_reused readmission
  have hkept : ∀ a ∈ readmission, a.overwrites = false := by decide
  obtain ⟨slot, d, hloose, hslot, hd, hwithdrawn, halong⟩ := hremove 2 0 _ hplace rfl
  refine ⟨hkept, (hreply _ _).mpr ⟨rfl, by rw [hnewcomers]; rfl⟩, fun n hn => ?_, hplace,
    _, slot, d, rfl, rfl, hloose, hslot, hd, hwithdrawn, halong hkept⟩
  exact ((hid 0 n).mp hn).2 hremoved

end Installation

end Raceways
