import Mathlib.Logic.Equiv.Basic
import Raceways.Proofs.Coupling
import Raceways.Proofs.Rereading
import Raceways.Proofs.Tenure

/-!
When a circuit notices what became of its load. It may be told of every change of the load at once,
or find out later, when it next has to read its load: in between, its layout, its items and what it
says of the load may differ, but nothing that later changes go by. So in the end it comes to the
same circuit, up to ids.
-/

namespace Raceways

namespace Circuit

/-! ## Circuits that differ in what they know of their load -/

/-- A circuit without what it takes from its load, without ids and without what is on record. -/
def outline (c : Circuit) : Circuit :=
  { c.unhoused with
    conductor.id := 0
    cable.id := 0
    cable.conductors := []
    layout := ⟨false, false, none⟩
    items := []
    ledger := Ledger.empty }

/-- Circuits that are the same apart from ids and from what they have read of their load. -/
structure Akin (c d : Circuit) : Prop where
  outline : d.outline = c.outline
  ledger : ∀ n, n ≠ Message.invalidLoad.number → d.ledger.text? n = c.ledger.text? n

namespace Akin

variable {b c d : Circuit}

theorem refl (c : Circuit) : Akin c c := ⟨rfl, fun _ _ => rfl⟩

theorem trans (h : Akin b c) (h' : Akin c d) : Akin b d :=
  ⟨h'.outline.trans h.outline, fun n hn => (h'.ledger n hn).trans (h.ledger n hn)⟩

theorem symm (h : Akin c d) : Akin d c :=
  ⟨h.outline.symm, fun n hn => (h.ledger n hn).symm⟩

theorem of_outline_eq {c' d' : Circuit} (h : Akin c d) (ho : d'.outline = c'.outline)
    (hc : c'.ledger = c.ledger) (hd : d'.ledger = d.ledger) : Akin c' d' :=
  ⟨ho, by rw [hc, hd]; exact h.ledger⟩

theorem settings_eq (h : Akin c d) : d.settings = c.settings := by
  have hs := congrArg settings h.outline
  exact hs

theorem routing_eq (h : Akin c d) : d.routing = c.routing := by
  have hr := congrArg routing h.outline
  exact hr

theorem nonlinear_eq (h : Akin c d) : d.nonlinear = c.nonlinear := by
  have hn := congrArg nonlinear h.outline
  exact hn

theorem record (h : Akin c d) (m : Message) :
    Akin { c with ledger := c.ledger.record m } { d with ledger := d.ledger.record m } := by
  refine ⟨h.outline, fun n hn => ?_⟩
  simp only [Ledger.record, Ledger.text?_add, h.ledger n hn]

theorem retractAll (h : Akin c d) (ms : List Message) :
    Akin { c with ledger := c.ledger.retractAll ms }
      { d with ledger := d.ledger.retractAll ms } := by
  refine ⟨h.outline, fun n hn => ?_⟩
  simp only [Ledger.text?_retractAll, h.ledger n hn]

/-- What is read of the load makes no difference here. -/
theorem inspectLoad (j : Job) : Akin j.circuit j.inspectLoad.circuit := by
  unfold Job.inspectLoad
  split
  · refine ⟨rfl, fun n hn => ?_⟩
    simp only [Job.forget, Ledger.text?_retractAll, List.mem_singleton, exists_eq_left]
    exact if_neg (Ne.symm hn)
  · rw [Job.circuit_report]
    refine ⟨rfl, fun n hn => ?_⟩
    simp only [Ledger.record, Ledger.text?_add]
    exact if_neg (Ne.symm hn)

theorem refit (j : Job) : Akin j.circuit j.refit.circuit := by
  have hc := Job.unhoused_refit j
  have hledger := congrArg Circuit.ledger hc
  refine ⟨?_, fun n _ => congrArg (Ledger.text? · n) hledger⟩
  have ho := congrArg Circuit.outline hc
  exact ho

theorem rederive (j : Job) : Akin j.circuit j.rederive.circuit := by
  have hi := inspectLoad j
  unfold Job.rederive
  dsimp only
  split
  · split
    · exact hi
    · exact hi.trans (refit _)
  · have hadopt : Akin j.inspectLoad.circuit j.inspectLoad.adoptLayout.circuit :=
      ⟨rfl, fun _ _ => rfl⟩
    exact (hi.trans hadopt).trans (refit _)

end Akin

end Circuit

/-- Circuits that are akin stay so under the same changes, wherever they are made. -/
theorem Job.coupled_akin : Coupled fun j k => Circuit.Akin j.circuit k.circuit where
  settings_eq h := h.settings_eq.symm
  routing_eq h := h.routing_eq.symm
  unlogged h hj _ hk _ := by
    rw [hj, hk]
    exact h
  record m _ _ h := h.record m
  forget ms _ _ h := h.retractAll ms
  settings load wiring spread _ _ h :=
    ⟨congrArg (fun c : Circuit => { c with
      load := load
      wiring := wiring
      spread := spread }) h.outline, h.ledger⟩
  conductor spec _ _ h :=
    ⟨congrArg (fun c : Circuit => { c with
      conductor := { spec with role := .hot, id := 0 } }) h.outline, h.ledger⟩
  cable spec _ _ h :=
    ⟨congrArg (fun c : Circuit => { c with
      cable := { spec with conductors := [], id := 0 } }) h.outline, h.ledger⟩
  resize s j k h := by
    have hj := unhoused_resize s j
    have hk := unhoused_resize s k
    have hledgerj := congrArg Circuit.ledger hj
    have hledgerk := congrArg Circuit.ledger hk
    refine h.of_outline_eq ?_ hledgerj hledgerk
    have hoj := congrArg Circuit.outline hj
    have hok := congrArg Circuit.outline hk
    have ho := congrArg (Circuit.resized s) h.outline
    exact (hok.trans ho).trans hoj.symm
  refit {j k} h := ((Circuit.Akin.refit j).symm.trans h).trans (Circuit.Akin.refit k)
  rederive {j k} h := ((Circuit.Akin.rederive j).symm.trans h).trans (Circuit.Akin.rederive k)
  moveTo r j k h := by
    have hj := unhoused_moveTo r j
    have hk := unhoused_moveTo r k
    have hledgerj := congrArg Circuit.ledger hj
    have hledgerk := congrArg Circuit.ledger hk
    refine h.of_outline_eq ?_ hledgerj hledgerk
    have hoj := congrArg Circuit.outline hj
    have hok := congrArg Circuit.outline hk
    have ho := congrArg (fun c : Circuit => { c with routing := r }) h.outline
    exact (hok.trans ho).trans hoj.symm

/-! ## Circuits that have caught up with their load -/

/-- Two lists without repetition, equally long, are the same up to a permutation that leaves all
else alone. -/
theorem exists_perm_of_nodup {l l' : List Nat} (hlen : l.length = l'.length) (hl : l.Nodup)
    (hl' : l'.Nodup) :
    ∃ σ : Equiv.Perm Nat, l.map σ = l' ∧ ∀ id, id ∉ l → id ∉ l' → σ id = id := by
  induction l generalizing l' with
  | nil => exact ⟨Equiv.refl Nat, (List.length_eq_zero_iff.mp hlen.symm).symm, fun _ _ _ => rfl⟩
  | cons a l ih =>
    cases l' with
    | nil => simp at hlen
    | cons b l' =>
      obtain ⟨ha, hl⟩ := List.nodup_cons.mp hl
      obtain ⟨hb, hl'⟩ := List.nodup_cons.mp hl'
      obtain ⟨σ, hmap, hfix⟩ := ih (by simpa using hlen) hl hl'
      refine ⟨σ.trans (Equiv.swap (σ a) b), ?_, fun id hid hid' => ?_⟩
      · rw [List.map_cons]
        congr 1
        · exact Equiv.swap_apply_left _ _
        · refine (List.map_congr_left fun id hid => ?_).trans hmap
          have hne : σ id ≠ σ a := fun he => ha (σ.injective he ▸ hid)
          have hne' : σ id ≠ b := fun he => hb (he ▸ hmap ▸ List.mem_map_of_mem hid)
          exact Equiv.swap_apply_of_ne_of_ne hne hne'
      · simp only [List.mem_cons, not_or] at hid hid'
        have hsame : σ id = id := hfix id hid.2 hid'.2
        have hne : id ≠ σ a := fun he => hid.1 (σ.injective (hsame.trans he))
        change Equiv.swap (σ a) b (σ id) = id
        rw [hsame]
        exact Equiv.swap_apply_of_ne_of_ne hne hid'.1

namespace Circuit

/-- The ids of the two patterns and of the items after the first are all different. -/
theorem Marked.nodup {c : Circuit} (h : c.Marked) (hn : (c.items.map Item.id).Nodup) :
    (c.conductor.id :: c.cable.id :: (c.items.map Item.id).tail).Nodup := by
  simp only [List.nodup_cons, List.mem_cons, not_or]
  refine ⟨⟨h.patterns, fun hid => (h.others _ hid).1 rfl⟩, fun hid => (h.others _ hid).2 rfl, ?_⟩
  exact hn.tail

theorem mem_ids_of_mem_marks (c : Circuit) {id : Nat}
    (h : id ∈ c.conductor.id :: c.cable.id :: (c.items.map Item.id).tail) : id ∈ c.ids := by
  simp only [List.mem_cons] at h
  rcases h with rfl | rfl | h
  · exact c.conductor_id_mem
  · exact c.cable_id_mem
  · exact tail_subset_ids h

namespace Akin

variable {c d : Circuit}

theorem rereads_iff (h : Akin c d) (change : Change Nat) :
    d.Rereads change ↔ c.Rereads change := by
  have hs := h.settings_eq
  simp only [settings, Prod.mk.injEq] at hs
  obtain ⟨-, hwiring, hspread⟩ := hs
  cases change <;> simp only [Rereads, hwiring, hspread, h.routing_eq]

theorem layout_eq (h : Akin c d) (hc : c.CaughtUp) (hd : d.CaughtUp) : d.layout = c.layout := by
  have hload : d.load = c.load := congrArg (·.1) h.settings_eq
  rw [hd.upToDate, hc.upToDate, requiredLayout, requiredLayout, hload, h.nonlinear_eq]

/-- Circuits that are akin and have caught up with their load have the same on record. -/
theorem ledger_eq (h : Akin c d) (hc : c.CaughtUp) (hd : d.CaughtUp) : d.ledger = c.ledger := by
  obtain ⟨S, hs, hload⟩ := hc.told
  obtain ⟨T, ht, hload'⟩ := hd.told
  have hsame : d.load = c.load := congrArg (·.1) h.settings_eq
  refine ht.unique (hs.congr fun m => ?_)
  by_cases hm : m = .invalidLoad
  · rw [hm, hload, hload', hsame]
  · have hn : m.number ≠ Message.invalidLoad.number := fun he => hm (Message.number_injective he)
    rw [← hs.has_number_iff, ← ht.has_number_iff, Ledger.has_eq_isSome_text?,
      Ledger.has_eq_isSome_text?, h.ledger _ hn]

/-- Two circuits that are akin are the same up to ids, once they have caught up with their load. -/
theorem exists_rename (h : Akin c d) (hc : c.CaughtUp) (hd : d.CaughtUp) (hcm : c.Marked)
    (hdm : d.Marked) (hcn : (c.items.map Item.id).Nodup) (hdn : (d.items.map Item.id).Nodup) :
    ∃ σ : Equiv.Perm Nat, (∀ id, id ∉ c.ids → id ∉ d.ids → σ id = id) ∧
      d.unhoused = c.unhoused.rename σ := by
  obtain ⟨x, hx⟩ := hc.shaped.made
  obtain ⟨y, hy⟩ := hd.shaped.made
  have hlayout := h.layout_eq hc hd
  have hsettings := h.settings_eq
  simp only [settings, Prod.mk.injEq] at hsettings
  obtain ⟨-, hwiring, hspread⟩ := hsettings
  have hplan : d.plan = c.plan := by
    unfold plan
    rw [hwiring, hspread, hlayout]
  have hctail : (c.items.map Item.id).tail = List.range' x (c.plan.length - 1) := by
    rw [hx, map_id_plannedItems, List.tail_cons]
  have hdtail : (d.items.map Item.id).tail = List.range' y (c.plan.length - 1) := by
    rw [hy, map_id_plannedItems, List.tail_cons, hplan]
  have hcnodup := hcm.nodup hcn
  have hdnodup := hdm.nodup hdn
  rw [hctail] at hcnodup
  rw [hdtail] at hdnodup
  obtain ⟨σ, hmap, hfix⟩ := exists_perm_of_nodup (by simp) hcnodup hdnodup
  simp only [List.map_cons, List.cons.injEq] at hmap
  obtain ⟨hconductor, hcable, htail⟩ := hmap
  have hnew : ∀ i < c.plan.length - 1, σ (x + i) = y + i := by
    intro i hi
    have hi' := congrArg (fun l : List Nat => l[i]?) htail
    simpa [List.getElem?_range', hi] using hi'
  refine ⟨σ, fun id hid hid' => hfix id (fun hin => hid ?_) fun hin => hid' ?_, ?_⟩
  · rw [← hctail] at hin
    exact c.mem_ids_of_mem_marks hin
  · rw [← hdtail] at hin
    exact d.mem_ids_of_mem_marks hin
  have hconductor' : d.conductor = (c.rename σ).conductor := by
    have ho := congrArg (fun e : Circuit => ({ e.conductor with id := d.conductor.id } : Conductor))
      h.outline
    exact ho.trans
      (congrArg (fun id => ({ c.conductor with id := id } : Conductor)) hconductor.symm)
  have hcable' : d.cable = (c.rename σ).cable := by
    have ho := congrArg (fun e : Circuit =>
      ({ e.cable with conductors := d.cable.conductors, id := d.cable.id } : Cable)) h.outline
    have hinside : d.cable.conductors = c.cable.conductors := by
      rw [hd.shaped.inside, hc.shaped.inside, hlayout]
    refine Eq.trans ho ?_
    rw [hinside, ← hcable]
    rfl
  have hpattern : d.pattern = (c.rename σ).pattern := by
    have hw : (c.rename σ).wiring = c.wiring := rfl
    unfold pattern
    rw [hwiring, hw, hconductor', hcable']
  have hitems : d.items = c.items.map (Item.rename σ) := by
    rw [hy, hx, ← plannedItems_rename hnew]
    exact plannedItems_congr d (c.rename σ) y hpattern hplan
  have hd' : d.unhoused = { d.outline with
    conductor := d.conductor, cable := d.cable, layout := d.layout, items := d.items,
    ledger := d.ledger } := rfl
  rw [hd', h.outline, hconductor', hcable', hlayout, hitems, h.ledger_eq hc hd]
  rfl

end Akin

end Circuit

/-! ## Two runs -/

namespace Action

/-- Whether an action is a change of the circuit at a place, or of its load without its knowing. -/
def Concerns (p : Place) : Action → Prop
  | change q _ | pokeLoad q _ => q = p
  | _ => False

/-- The action, and if it changed a load without the circuit's knowing, a call that tells the
circuit. -/
def noticed : Action → List Action
  | pokeLoad p f => [pokeLoad p f, change p (.updateLoad id)]
  | a => [a]

namespace Concerns

variable {p : Place} {a : Action}

theorem overwrites_eq_false (h : a.Concerns p) : a.overwrites = false := by
  cases a <;> first | rfl | exact h.elim

theorem ne_dropCircuit (h : a.Concerns p) (slot : Nat) (k b : Option Place) :
    a ≠ .dropCircuit slot k b := by
  rintro rfl
  exact h

theorem of_mem_noticed (h : a.Concerns p) {b : Action} (hb : b ∈ a.noticed) : b.Concerns p := by
  cases a with
  | change q c =>
    rw [List.mem_singleton.mp hb]
    exact h
  | pokeLoad q f =>
    rcases List.mem_cons.mp hb with rfl | hb
    · exact h
    · rw [List.mem_singleton.mp hb]
      exact h
  | _ => exact h.elim

theorem flatMap_noticed {calls : List Action} (h : ∀ a ∈ calls, a.Concerns p) :
    ∀ a ∈ calls.flatMap noticed, a.Concerns p := by
  intro a ha
  obtain ⟨b, hb, hab⟩ := List.mem_flatMap.mp ha
  exact (h b hb).of_mem_noticed hab

end Concerns

end Action

namespace Installation

theorem after_pokeLoad {w : Installation} {p : Place} {n : Nat} (hn : w.circuitAt p = .ok n)
    (f : Load → Load) :
    (w.step (.pokeLoad p f)).after = (w.work n (Job.meet (.poke f))).after := by
  simp only [step, attempt, hn, bind, Except.bind, pure, Except.pure]
  rfl

theorem set_of_join {cs : List (Option Circuit)} {n : Nat} {c : Circuit}
    (h : cs[n]?.join = some c) : cs.set n (some c) = cs := by
  have hlt := lt_of_join_eq_some h
  rw [List.getElem?_eq_getElem hlt, Option.join_some] at h
  rw [← h, List.set_getElem_self]

theorem work_id {w : Installation} {n : Nat} {c : Circuit} (hc : w.circuit? n = some c) :
    (w.work n id).after = w := by
  rw [after_work hc]
  simp only [id]
  rw [set_of_join hc]

/-- Two installations that differ only in one circuit and in what is in the raceways. The circuits
are akin. -/
structure Apace (n : Nat) (v u : Installation) : Prop where
  rest : u = { v with
    site := u.site
    circuits := u.circuits }
  length : u.circuits.length = v.circuits.length
  others : ∀ m, m ≠ n → u.circuit? m = v.circuit? m
  fittings : ∀ r, u.site.fittings? r = v.site.fittings? r
  akin : ∃ c d, v.circuit? n = some c ∧ u.circuit? n = some d ∧ c.Akin d

namespace Apace

variable {n : Nat} {v u : Installation}

theorem refl {w : Installation} {c : Circuit} (hc : w.circuit? n = some c) : Apace n w w :=
  ⟨rfl, rfl, fun _ _ => rfl, fun _ => rfl, c, c, hc, hc, .refl c⟩

theorem charts_eq (h : Apace n v u) : u.charts = v.charts := by
  rw [h.rest]
  rfl

theorem circuitAt_eq (h : Apace n v u) (p : Place) : u.circuitAt p = v.circuitAt p := by
  rw [h.rest]
  rfl

/-- Work on the circuit, the same or not, that leaves its two versions akin. -/
theorem work (h : Apace n v u) {f g : Job → Job}
    (hakin : ∀ (c d : Circuit) (s t : Site), c.Akin d →
      (f ⟨c, s, []⟩).circuit.Akin (g ⟨d, t, []⟩).circuit)
    (hf : ∀ j r, (f j).site.fittings? r = j.site.fittings? r)
    (hg : ∀ j r, (g j).site.fittings? r = j.site.fittings? r) :
    Apace n (v.work n f).after (u.work n g).after := by
  obtain ⟨c, d, hc, hd, hcd⟩ := h.akin
  rw [after_work hc, after_work hd]
  refine ⟨?_, ?_, fun m hm => ?_, fun r => ?_, ?_⟩
  · rw [h.rest]
  · simpa using h.length
  · have hother := h.others m hm
    simp only [circuit?, List.getElem?_set_ne (Ne.symm hm)] at hother ⊢
    exact hother
  · have hleft := hf ⟨c, v.site, []⟩ r
    have hright := hg ⟨d, u.site, []⟩ r
    exact hright.trans ((h.fittings r).trans hleft.symm)
  · exact ⟨_, _, join_set_self hc _, join_set_self hd _, hakin c d v.site u.site hcd⟩

theorem change (h : Apace n v u) {p : Place} (hp : v.circuitAt p = .ok n) (c : Change Place) :
    Apace n (v.step (.change p c)).after (u.step (.change p c)).after := by
  have hsame : u.findChange c = v.findChange c := findChange_congr h.charts_eq c
  cases hc : v.findChange c with
  | error e =>
    rw [after_change_of_error hc, after_change_of_error (hsame.trans hc)]
    exact h
  | ok d =>
    rw [after_change_of_ok hc hp, after_change_of_ok (hsame.trans hc) ((h.circuitAt_eq p).trans hp)]
    exact h.work (fun _ _ _ _ hcd => Job.coupled_akin.apply d hcd) (Job.fittings?_apply d)
      (Job.fittings?_apply d)

/-- One circuit is told at once of what became of its load, the other one not. -/
theorem poke (h : Apace n v u) {p : Place} (hp : v.circuitAt p = .ok n) (f : Load → Load) :
    Apace n (v.step (.pokeLoad p f)).after (u.run (Action.noticed (.pokeLoad p f))) := by
  have hpu : u.circuitAt p = .ok n := (h.circuitAt_eq p).trans hp
  have hpoked : Apace n (v.step (.pokeLoad p f)).after (u.step (.pokeLoad p f)).after := by
    rw [after_pokeLoad hp, after_pokeLoad hpu]
    exact h.work
      (fun _ _ s t hcd => Job.coupled_akin.load (j := ⟨_, s, []⟩) (k := ⟨_, t, []⟩) f hcd)
      (fun _ _ => rfl) fun _ _ => rfl
  change Apace n _ ((u.step (.pokeLoad p f)).after.step (.change p (.updateLoad id))).after
  obtain ⟨c, d, hc, hd, hcd⟩ := hpoked.akin
  have hpu' : (u.step (.pokeLoad p f)).after.circuitAt p = .ok n := by
    rw [after_pokeLoad hpu, circuitAt_work]
    exact hpu
  rw [after_change_of_ok (d := .updateLoad id) rfl hpu', ← work_id hc]
  exact hpoked.work
    (fun _ d _ t hcd => hcd.trans (Circuit.Akin.rederive ⟨d, t, []⟩)) (fun _ _ => rfl)
    (Job.fittings?_apply (.updateLoad id))

/-- Two circuits keep apace over any run of changes, though one of them is told at once of what
becomes of its load and the other one is not. -/
theorem run (h : Apace n v u) {p : Place} (hp : v.circuitAt p = .ok n) (calls : List Action)
    (hcalls : ∀ a ∈ calls, a.Concerns p) :
    Apace n (v.run calls) (u.run (calls.flatMap Action.noticed)) ∧
      (v.run calls).circuitAt p = .ok n := by
  induction calls generalizing v u with
  | nil => exact ⟨h, hp⟩
  | cons a calls ih =>
    have hrest : ∀ b ∈ calls, b.Concerns p := fun b hb => hcalls b (List.mem_cons_of_mem _ hb)
    have ha := hcalls a List.mem_cons_self
    rw [run_cons, List.flatMap_cons, run_append]
    cases a with
    | change q c =>
      cases ha
      exact ih (h.change hp c) ((circuitAt_change v p c p).trans hp) hrest
    | pokeLoad q f =>
      cases ha
      refine ih (h.poke hp f) ?_ hrest
      rw [after_pokeLoad hp, circuitAt_work]
      exact hp
    | _ => exact ha.elim

/-- If the two versions of the circuit are the same up to ids, so are the installations, as far as
their circuits go. -/
theorem renamed (h : Apace n v u) (hv : Apart v.site v.circuits) (hu : Apart u.site u.circuits)
    {c d : Circuit} (hc : v.circuit? n = some c) (hd : u.circuit? n = some d) {σ : Nat → Nat}
    (hcd : d.unhoused = c.unhoused.rename σ)
    (hσ : ∀ id, id ∉ c.ids → id ∉ d.ids → σ id = id) :
    (∀ m b, m ≠ n → v.circuit? m = some b → ∀ id ∈ b.ids, σ id = id) ∧ Renamed σ v u := by
  have hfixed : ∀ m b, m ≠ n → v.circuit? m = some b → ∀ id ∈ b.ids, σ id = id := by
    intro m b hm hb id hid
    have hb' : u.circuit? m = some b := (h.others m hm).trans hb
    exact hσ id (hv.disjoint m n b c hm hb hc id hid) (hu.disjoint m n b d hm hb' hd id hid)
  refine ⟨hfixed, fun m => ?_, h.fittings, h.rest, h.length⟩
  by_cases hm : m = n
  · rw [hm, hc, hd]
    exact congrArg some hcd
  · rw [h.others m hm]
    cases hb : v.circuit? m with
    | none => rfl
    | some b => exact congrArg some (Circuit.rename_of_fixed (hfixed m b hm hb)).symm

end Apace

theorem circuit?_after_change {w : Installation} {p : Place} {n : Nat} {c : Circuit}
    {change : Change Place} {d : Change Nat} (hn : w.circuitAt p = .ok n)
    (hc : w.circuit? n = some c) (hd : w.findChange change = .ok d) :
    (w.step (.change p change)).after.circuit? n =
      some (Job.apply d ⟨c, w.site, []⟩).circuit := by
  rw [after_change_of_ok hd hn, after_work hc]
  exact join_set_self hc _

/-- A change that reads the load again leaves a circuit that has caught up with it. -/
theorem caughtUp_change (actions : List Action) {p : Place} {n : Nat} {c e : Circuit}
    {change : Change Place} {d : Change Nat} (hn : (run {} actions).circuitAt p = .ok n)
    (hc : (run {} actions).circuit? n = some c) (hd : (run {} actions).findChange change = .ok d)
    (hreads : c.Rereads d)
    (he : ((run {} actions).step (.change p change)).after.circuit? n = some e) : e.CaughtUp := by
  have hlived : c.Lived := lived_of_run actions n c hc
  obtain ⟨S, hs⟩ := hlived.told
  rw [circuit?_after_change hn hc hd] at he
  cases he
  exact Job.caughtUp_apply (j := ⟨c, (run {} actions).site, []⟩) hlived.shaped hs hreads

/-- Changes of one circuit leave as much behind as there was. -/
theorem accounted_run_of_concerns (actions : List Action)
    (ha : ∀ a ∈ actions, a.overwrites = false) {calls : List Action} {p : Place}
    (h : ∀ a ∈ calls, a.Concerns p) :
    let v := (run {} actions).run calls
    Accounted v.site v.circuits fun r i => i ∈ leftBehind {} actions r :=
  accounted_run_of_kept actions calls ha (fun a hin => (h a hin).overwrites_eq_false)
    fun a hin => (h a hin).ne_dropCircuit

/-- **Promptness.** A circuit is changed any number of times, and in between its load changes
without its knowing. If the last change reads the load again, then it makes no difference whether
the circuit was told at once whenever its load had changed: it comes to the same circuit, up to ids,
and no other circuit is any different. Nor is what is in the raceways, up to ids, unless someone had
overwritten a raceway before. A last request for more or fewer conduits is one that is granted. -/
theorem late_notice_makes_no_difference (actions : List Action) (p : Place) (n : Nat) (c₀ : Circuit)
    (hp : (run {} actions).circuitAt p = .ok n) (hc₀ : (run {} actions).circuit? n = some c₀)
    (calls : List Action) (hcalls : ∀ a ∈ calls, a.Concerns p) (last : Change Place) (c : Circuit)
    (d : Change Nat) (hc : ((run {} actions).run calls).circuit? n = some c)
    (hd : ((run {} actions).run calls).findChange last = .ok d) (hreads : c.Rereads d) :
    let w := run {} actions
    let v := w.run (calls ++ [.change p last])
    let u := w.run ((calls ++ [Action.change p last]).flatMap Action.noticed)
    ∃ (σ : Equiv.Perm Nat) (e e' : Circuit),
      v.circuit? n = some e ∧ u.circuit? n = some e' ∧ e'.unhoused = e.unhoused.rename σ ∧
      (d = .widen ∨ d = .narrow → e.spread.conduits ≠ c.spread.conduits) ∧
      (∀ m, m ≠ n → u.circuit? m = v.circuit? m) ∧
      (∀ m b, m ≠ n → v.circuit? m = some b → ∀ id ∈ b.ids, σ id = id) ∧
      (∀ r, u.site.fittings? r = v.site.fittings? r) ∧
      ((∀ a ∈ actions, a.overwrites = false) →
        u = (v.rename σ).withNextId u.site.nextId) := by
  intro w v u
  obtain ⟨hapace, hpl⟩ := (Apace.refl hc₀).run hp calls hcalls
  obtain ⟨c', c'', hc', hc'', hakin⟩ := hapace.akin
  rw [hc] at hc'
  cases hc'
  have hv : v = ((w.run calls).step (.change p last)).after := run_append w calls _
  have hu : u = ((w.run (calls.flatMap Action.noticed)).step (.change p last)).after := by
    change w.run ((calls ++ [Action.change p last]).flatMap Action.noticed) = _
    rw [List.flatMap_append, run_append]
    rfl
  have hlast : Apace n v u := by
    rw [hv, hu]
    exact hapace.change hpl last
  obtain ⟨e, e', he, he', hee'⟩ := hlast.akin
  have hgranted : d = .widen ∨ d = .narrow → e.spread.conduits ≠ c.spread.conduits := by
    intro hcount
    rw [hv, circuit?_after_change hpl hc hd] at he
    cases he
    exact (Job.rereads_iff_conduits_ne hcount ⟨c, (w.run calls).site, []⟩).mp hreads
  have hecaught : e.CaughtUp := by
    rw [hv] at he
    rw [← run_append] at hpl hc hd he
    exact caughtUp_change _ hpl hc hd hreads he
  have hecaught' : e'.CaughtUp := by
    have hpp := (hapace.circuitAt_eq p).trans hpl
    have hdp := (findChange_congr hapace.charts_eq last).trans hd
    rw [hu] at he'
    rw [← run_append] at hpp hc'' hdp he'
    exact caughtUp_change _ hpp hc'' hdp ((hakin.rereads_iff d).mpr hreads) he'
  have hvrun : run {} (actions ++ (calls ++ [.change p last])) = v := run_append _ _ _
  have hurun : run {} (actions ++ (calls ++ [Action.change p last]).flatMap Action.noticed) = u :=
    run_append _ _ _
  have hvapart : Apart v.site v.circuits := hvrun ▸ apart_run _
  have huapart : Apart u.site u.circuits := hurun ▸ apart_run _
  obtain ⟨σ, hσ, hee''⟩ := hee'.exists_rename hecaught hecaught'
    (marked_run _ n e (hvrun ▸ he)) (marked_run _ n e' (hurun ▸ he'))
    (hvapart.nodup n e he) (huapart.nodup n e' he')
  obtain ⟨hfixed, hrenamed⟩ := hlast.renamed hvapart huapart he he' hee'' hσ
  refine ⟨σ, e, e', he, he', hee'', hgranted, hlast.others, hfixed, hlast.fittings, fun ha => ?_⟩
  have hall : ∀ a ∈ calls ++ [Action.change p last], a.Concerns p := by
    intro a h
    rcases List.mem_append.mp h with h | h
    · exact hcalls a h
    · rw [List.mem_singleton.mp h]
      rfl
  have haccount := accounted_run_of_concerns actions ha hall
  have haccount' := accounted_run_of_concerns actions ha (Action.Concerns.flatMap_noticed hall)
  refine hrenamed.eq_rename σ.injective haccount haccount' fun r i hi => ?_
  exact hσ i.id (haccount.left_apart r i hi n e he) (haccount'.left_apart r i hi n e' he')

/-- The load of a circuit goes over to another system, the circuit gets a new conductor and another
size, and its load comes back. -/
def excursion : List Action :=
  [.pokeLoad (.loose 0) fun l => { l with system := .wye277x480 },
    .change (.loose 0) (.replaceConductor default), .change (.loose 0) (.resize .awg10),
    .pokeLoad (.loose 0) fun l => { l with system := .ln120 }]

/-- Once the circuit is asked into its bundle, it makes no difference whether it knew. It has taken
more ids if it did. -/
theorem excursion_leaves_no_trace :
    let w := run {} neighbours
    let v := w.run (excursion ++ [.change (.loose 0) (.route .privateBundle)])
    let u := w.run ((excursion ++ [Action.change (.loose 0) (.route .privateBundle)]).flatMap
      Action.noticed)
    (∀ a ∈ excursion, a.Concerns (.loose 0)) ∧ w.circuitAt (.loose 0) = .ok 0 ∧
      v.site.nextId < u.site.nextId ∧ ∃ (σ : Equiv.Perm Nat) (e e' : Circuit),
        v.circuit? 0 = some e ∧ u.circuit? 0 = some e' ∧ e'.unhoused = e.unhoused.rename σ ∧
          u = (v.rename σ).withNextId u.site.nextId := by
  intro w v u
  have hcalls : ∀ a ∈ excursion, a.Concerns (.loose 0) := by
    simp [excursion, Action.Concerns]
  obtain ⟨σ, e, e', he, he', hee', -, -, -, -, hu⟩ :=
    late_notice_makes_no_difference neighbours (.loose 0) 0 _ rfl rfl excursion hcalls
      (.route .privateBundle) _ (.route .privateBundle) rfl rfl trivial
  refine ⟨hcalls, by rfl, by decide, σ, e, e', he, he', hee', ?_⟩
  -- Both runs are compared as they are written, and not by what they come to.
  simpa only [w, v, u] using hu (by decide)

/-- The private conduit of a circuit is replaced by an empty one. -/
def emptied : List Action :=
  let load : Load := { system := .ln120, ampacity := 16, verdict := some true }
  [.newCircuit load false false, .replacePrivateConduit (.loose 0) {}]

/-- The load goes over to another system and comes back. -/
def thereAndBack : List Action :=
  [.pokeLoad (.loose 0) fun l => { l with system := .wye277x480 },
    .pokeLoad (.loose 0) fun l => { l with system := .ln120 }]

/-- A circuit that is told of both puts its new items into the conduit. One that finds its load as
it was leaves the conduit empty. -/
theorem notice_fills_emptied_conduit :
    let w := run {} emptied
    let last : Action := .change (.loose 0) (.updateLoad id)
    let v := w.run (thereAndBack ++ [last])
    let u := w.run ((thereAndBack ++ [last]).flatMap Action.noticed)
    (∀ a ∈ thereAndBack, a.Concerns (.loose 0)) ∧ w.circuitAt (.loose 0) = .ok 0 ∧
      (∃ c, (w.run thereAndBack).circuit? 0 = some c ∧ c.Rereads (.updateLoad id)) ∧
      ∀ σ, (u.circuit? 0).map (·.conduit.contents) ≠
        (v.circuit? 0).map (·.conduit.contents.rename σ) := by
  intro w last v u
  refine ⟨by simp [thereAndBack, Action.Concerns], rfl, ⟨_, rfl, trivial⟩, fun σ hsame => ?_⟩
  have hlate : (v.circuit? 0).map (·.conduit.contents.rename σ) = some Ascending.empty := by rfl
  have hprompt : ((u.circuit? 0).map (·.conduit.contents)).map Contents.ids = some [2, 9, 10] := by
    decide
  rw [hsame, hlate] at hprompt
  cases hprompt

end Installation

end Raceways
