import Raceways.Proofs.Destination
import Raceways.Proofs.Divisors
import Raceways.Proofs.Membership
import Raceways.Proofs.Rereading

/-!
Requests for more or fewer conduits. In private conduits the sets of a circuit are spread over the
neighbouring divisor, and conductors, of which there are as many as sets in one conduit, are made
anew. Cables are as many as there are sets and stay. A request that is taken back by the next one
leaves everything as it was, except for the ids of what was made.
-/

namespace Raceways

theorem Spread.Even.setsPerConduit_ne {s t : Spread} (hs : s.Even) (ht : t.Even)
    (hsets : t.sets = s.sets) (hne : t.conduits ≠ s.conduits) :
    t.setsPerConduit ≠ s.setsPerConduit := by
  intro he
  have hprod : t.conduits * s.setsPerConduit = s.conduits * s.setsPerConduit := by
    rw [hs.product, ← hsets, ← ht.product, he]
  exact hne (Nat.eq_of_mul_eq_mul_right hs.setsPerConduit_pos hprod)

namespace Circuit

/-! ## A circuit with its sets spread in another way -/

/-- The circuit with its sets spread in another way. Cables stay, conductors are made anew. -/
def redistributed (c : Circuit) (s : Spread) (next : Nat) : Circuit :=
  { c with
    spread := s
    items :=
      if c.wiring = .cables then c.items else ({ c with spread := s } : Circuit).plannedItems next }

theorem redistributed_redistributed (c : Circuit) (s t : Spread) (n m : Nat) :
    (c.redistributed s n).redistributed t m = c.redistributed t m := by
  rcases c with ⟨load, nonlinear, routing, conduit, bundle, wiring, _⟩
  cases wiring <;> rfl

theorem kit_redistributed {c d : Circuit} (h : d.kit = c.kit) (s : Spread) (n : Nat) :
    (d.redistributed s n).kit = (c.redistributed s n).kit := by
  have hkit (c : Circuit) : (c.redistributed s n).kit = (c.kit.redistributed s n).kit := by
    rcases c with ⟨load, nonlinear, routing, conduit, bundle, wiring, _⟩
    cases wiring <;> rfl
  rw [hkit c, hkit d, h]

/-- Only conductors depend in number on how the sets are spread. -/
theorem plan_spread_eq_iff {c : Circuit} {s : Spread} (hc : c.spread.Even) (hs : s.Even)
    (hsets : s.sets = c.spread.sets) (hne : s.conduits ≠ c.spread.conduits) :
    ({ c with spread := s } : Circuit).plan = c.plan ↔ c.wiring = .cables := by
  have hper := hc.setsPerConduit_ne hs hsets hne
  rcases c with ⟨load, nonlinear, routing, conduit, bundle, wiring, _⟩
  cases wiring with
  | conductors =>
    refine iff_of_false (fun he => hper ?_) nofun
    have hlength := congrArg List.length he
    simp only [plan, List.length_map, List.length_flatten, List.map_replicate,
      List.sum_replicate_nat] at hlength
    exact Nat.eq_of_mul_eq_mul_right (by simp [Layout.roles]) hlength
  | cables =>
    refine iff_of_true ?_ rfl
    simp only [plan, hsets]

theorem isPlanned_spread_iff {c : Circuit} (h : c.Shaped) {s : Spread} (he : s.Even)
    (hsets : s.sets = c.spread.sets) (hne : s.conduits ≠ c.spread.conduits) :
    ({ c with spread := s } : Circuit).isPlanned ↔ c.wiring = .cables := by
  have hplanned : c.items.map Item.role = c.plan := of_decide_eq_true h.isPlanned
  unfold isPlanned
  rw [decide_eq_true_iff, hplanned, ← plan_spread_eq_iff h.even he hsets hne]
  exact eq_comm

end Circuit

namespace Job

open Circuit

theorem kit_rederive_of_upToDate {j : Job} (h : j.circuit.UpToDate) :
    j.rederive.circuit.kit =
      (if j.circuit.isPlanned then j.circuit
        else { j.circuit with items := j.circuit.plannedItems j.site.nextId }).kit := by
  have hkit := kit_inspectLoad j
  have hsite : j.inspectLoad.site = j.site := congrArg (·.1) (lodging_inspectLoad j)
  have hlayout : j.inspectLoad.circuit.requiredLayout = j.inspectLoad.circuit.layout :=
    (h.of_kit_eq hkit).symm
  have hplanned : j.inspectLoad.circuit.isPlanned = j.circuit.isPlanned := by
    have he := congrArg isPlanned hkit
    exact he
  simp only [rederive, hlayout, hplanned, ↓reduceIte]
  split
  · exact hkit
  · obtain ⟨k, b, hc⟩ := circuit_refit j.inspectLoad
    have hitems := congrArg
      (fun c : Circuit => { c with items := c.plannedItems j.site.nextId }) hkit
    rw [hc, hsite]
    exact hitems

variable {next back : Spread → Option Spread}

/-- What another number of conduits comes to for a circuit that knows its load. -/
theorem kit_respread {j : Job} {s : Spread} (h : j.circuit.Shaped) (hup : j.circuit.UpToDate)
    (hr : j.circuit.routing = .privateConduit) (hnext : next j.circuit.spread = some s)
    (he : s.Even) (hsets : s.sets = j.circuit.spread.sets)
    (hne : s.conduits ≠ j.circuit.spread.conduits) :
    (j.respread next).circuit.kit = (j.circuit.redistributed s j.site.nextId).kit := by
  have hcourse : j.respread next =
      ((j.forget [.conduitsOutsidePrivateConduit]).redistribute s).rederive := by
    simp only [respread, hr, ne_eq, not_true_eq_false, ↓reduceIte, spread_forget, hnext]
    rfl
  have hup' : ((j.forget [.conduitsOutsidePrivateConduit]).redistribute s).circuit.UpToDate := hup
  have hplanned :
      ((j.forget [.conduitsOutsidePrivateConduit]).redistribute s).circuit.isPlanned ↔
        j.circuit.wiring = .cables :=
    isPlanned_spread_iff h he hsets hne
  rw [hcourse, kit_rederive_of_upToDate hup']
  unfold redistributed
  by_cases hw : j.circuit.wiring = .cables
  · rw [if_pos (hplanned.mpr hw), if_pos hw]
    rfl
  · rw [if_neg (hplanned.not.mpr hw), if_neg hw]
    rfl

/-- A request that is undone by the next one leaves a circuit that knows its load as if its items
had been made anew. -/
theorem kit_respread_respread (hundo : Spread.Undoes back next) {c : Circuit} {t : Spread}
    (h : c.Shaped) (hup : c.UpToDate) (hr : c.routing = .privateConduit)
    (hnext : next c.spread = some t) (s s' : Site) :
    let d := (Job.respread next ⟨c, s, []⟩).circuit
    (Job.respread back ⟨d, s', []⟩).circuit.kit = (c.redistributed c.spread s'.nextId).kit := by
  intro d
  have hsets : t.sets = c.spread.sets := hundo.sets hnext
  have hne : t.conduits ≠ c.spread.conduits := hundo.conduits hnext
  have hd : d.kit = (c.redistributed t s.nextId).kit :=
    kit_respread (j := ⟨c, s, []⟩) h hup hr hnext (hundo.even h.even hnext) hsets hne
  have hspread : d.spread = t := by
    have he := congrArg Circuit.spread hd
    exact he
  -- the second request meets a circuit that is again in shape and knows its load
  have hsettles : Settles c d := settles_respread next hundo.even (j := ⟨c, s, []⟩) h
  have hroute : d.routing = .privateConduit :=
    (routing_respread next ⟨c, s, []⟩).trans hr
  have hback : back d.spread = some c.spread := by
    rw [hspread]
    exact hundo.back h.even hnext
  have hagain : (Job.respread back ⟨d, s', []⟩).circuit.kit =
      (d.redistributed c.spread s'.nextId).kit :=
    kit_respread (j := ⟨d, s', []⟩) hsettles.shaped (hsettles.upToDate hup) hroute hback h.even
      (by rw [hspread, hsets]) (by rw [hspread]; exact hne.symm)
  rw [hagain, kit_redistributed hd, redistributed_redistributed]

end Job

theorem Item.withId_anew (i : Item) (k n : Nat) (role : Option Role) :
    (i.anew n role).withId k = i.anew k role := by
  cases i <;> rfl

namespace Circuit

/-! ## A circuit restored -/

/-- Whether another circuit has the spread and, up to ids, the items of this one. Cables are the
very same. Of conductors only the first is, and the others have the ids from `next` on. -/
structure Restored (c : Circuit) (next : Nat) (d : Circuit) : Prop where
  spread : d.spread = c.spread
  alike : d.items.map (Item.withId 0) = c.items.map (Item.withId 0)
  first : d.items[0]? = c.items[0]?
  cables : c.wiring = .cables → d.items = c.items
  conductors : c.wiring = .conductors →
    (d.items.map Item.id).tail = List.range' next (c.items.length - 1)

theorem map_withId_plannedItems (c : Circuit) (k n m : Nat) :
    (c.plannedItems n).map (Item.withId k) = (c.plannedItems m).map (Item.withId k) := by
  unfold plannedItems
  rw [List.map_cons, List.map_cons]
  congr 1
  apply List.ext_getElem
  · simp
  · intro i h₁ h₂
    simp [Item.withId_anew]

theorem restored_of_kit_eq {c d : Circuit} (h : c.Shaped) {n : Nat}
    (e : d.kit = (c.redistributed c.spread n).kit) : c.Restored n d := by
  have hspread : d.spread = c.spread := by
    have he := congrArg Circuit.spread e
    exact he
  have hitems : d.items = if c.wiring = .cables then c.items else c.plannedItems n := by
    have he := congrArg Circuit.items e
    exact he
  obtain ⟨m, hmade⟩ := h.made
  by_cases hw : c.wiring = .cables
  · rw [if_pos hw] at hitems
    exact ⟨hspread, by rw [hitems], by rw [hitems], fun _ => hitems,
      fun hc => absurd (hw.symm.trans hc) nofun⟩
  · rw [if_neg hw] at hitems
    refine ⟨hspread, ?_, ?_, fun hc => absurd hc hw, fun _ => ?_⟩
    · rw [hitems, hmade]
      exact c.map_withId_plannedItems 0 n m
    · rw [hitems, hmade]
      rfl
    · rw [hitems, map_id_plannedItems, hmade, plannedItems_length, List.tail_cons,
        Nat.add_sub_cancel_left]

/-! ## Requests to a circuit -/

variable {c : Circuit}

theorem spread_after_widen (hr : c.routing = .privateConduit) (s : Site) :
    (c.after [(s, .change .widen)]).spread = c.spread.wider?.getD c.spread :=
  (Job.spread_respread Spread.wider? ⟨c, s, []⟩).trans (if_pos hr)

theorem spread_after_narrow (hr : c.routing = .privateConduit) (s : Site) :
    (c.after [(s, .change .narrow)]).spread = c.spread.narrower?.getD c.spread :=
  (Job.spread_respread Spread.narrower? ⟨c, s, []⟩).trans (if_pos hr)

/-- A request that changes the number of conduits, and then the one that undoes it. -/
theorem restored_respread {next back : Spread → Option Spread} (hundo : Spread.Undoes back next)
    (h : c.Shaped) (hup : c.UpToDate) (hr : c.routing = .privateConduit) (s s' : Site) :
    let d := (Job.respread next ⟨c, s, []⟩).circuit
    d.spread.conduits ≠ c.spread.conduits →
      c.Restored s'.nextId (Job.respread back ⟨d, s', []⟩).circuit := by
  intro d hne
  have hd : d.spread = (next c.spread).getD c.spread :=
    (Job.spread_respread next ⟨c, s, []⟩).trans (if_pos hr)
  cases hn : next c.spread with
  | none =>
    rw [hd, hn] at hne
    exact absurd rfl hne
  | some t => exact restored_of_kit_eq h (Job.kit_respread_respread hundo h hup hr hn s s')

/-- So many requests for fewer conduits, one after another. -/
def narrowings (sites : ℕ → Site) (i : ℕ) : List (Site × Occurrence) :=
  (List.range i).map fun k => (sites k, .change .narrow)

theorem after_narrowings (hr : c.routing = .privateConduit) (sites : ℕ → Site) (i : ℕ) :
    (c.after (narrowings sites i)).routing = .privateConduit ∧
      (c.after (narrowings sites i)).spread = c.spread.descent i := by
  induction i with
  | zero => exact ⟨hr, rfl⟩
  | succ i ih =>
    have hlast : narrowings sites (i + 1) = narrowings sites i ++ [(sites i, .change .narrow)] := by
      simp [narrowings, List.range_succ]
    rw [hlast, after_append]
    refine ⟨(Job.routing_respread _ _).trans ih.1, ?_⟩
    rw [spread_after_narrow ih.1, ih.2]
    rfl

/-- What comes of a request for another number of conduits where there are none to be counted. -/
theorem respread_elsewhere {S : Message → Prop} (hr : c.routing ≠ .privateConduit)
    (hs : c.ledger.Says S) (next : Spread → Option Spread) (s : Site) (log : List Event) :
    let j := Job.respread next ⟨c, s, log⟩
    j.site = s ∧ j.circuit = { c with ledger := j.circuit.ledger } ∧
      j.circuit.ledger.text? (-6) = some Message.conduitsOutsidePrivateConduit.text ∧
      ∀ k, k ≠ -6 → j.circuit.ledger.text? k = c.ledger.text? k := by
  intro j
  have hj : j = Job.report .conduitsOutsidePrivateConduit ⟨c, s, log⟩ := if_pos hr
  have hledger : j.circuit.ledger = c.ledger.record .conduitsOutsidePrivateConduit := by
    rw [hj, Job.circuit_report]
  refine ⟨?_, ?_, ?_, fun k hk => ?_⟩
  · rw [hj, Job.site_report]
  · rw [hledger, hj, Job.circuit_report]
  · rw [hledger]
    exact (hs.record _ _ _).mpr ⟨_, Or.inl rfl, rfl, rfl⟩
  · rw [hledger]
    exact (Ledger.text?_add _ _ _ k).trans (if_neg (Ne.symm hk))

/-- **Conduits go over the divisors.** In its private conduit a circuit is spread over the next
divisor of its sets, up or down, as long as there is one. If it knows its load, two requests that
take each other back restore it up to the ids of what was made anew, and from one conduit for each
set down to a single conduit every divisor is come past once. Elsewhere nothing comes of it but an
error. -/
theorem conduits_go_over_divisors (load : Load) (nonlinear : Bool) (site : Site)
    (history : List (Site × Occurrence)) :
    let c := (create load nonlinear site).circuit.after history
    (c.mode = .privateConduit →
      (∀ s, c.spread.Widened (c.after [(s, .change .widen)]).spread) ∧
      (∀ s, c.spread.Narrowed (c.after [(s, .change .narrow)]).spread) ∧
      (c.UpToDate → ∀ s s',
        ((c.after [(s, .change .narrow)]).spread.conduits ≠ c.spread.conduits →
          c.Restored s'.nextId (c.after [(s, .change .narrow), (s', .change .widen)])) ∧
        ((c.after [(s, .change .widen)]).spread.conduits ≠ c.spread.conduits →
          c.Restored s'.nextId (c.after [(s, .change .widen), (s', .change .narrow)]))) ∧
      (c.spread.conduits = c.spread.sets → ∀ sites,
        (List.range c.spread.sets.divisors.card).map
            (fun i => (c.after (narrowings sites i)).spread.conduits) =
          c.spread.sets.divisors.sort (· ≥ ·))) ∧
    (Unpoked history → c.UpToDate) ∧
    (c.mode ≠ .privateConduit → ∀ change ∈ [Change.widen, Change.narrow], ∀ s log,
      let j := Job.apply change ⟨c, s, log⟩
      j.site = s ∧ j.circuit = { c with ledger := j.circuit.ledger } ∧
        j.circuit.ledger.text? (-6) = some Message.conduitsOutsidePrivateConduit.text ∧
        ∀ k, k ≠ -6 → j.circuit.ledger.text? k = c.ledger.text? k) := by
  intro c
  have hlived : c.Lived := ⟨load, nonlinear, site, history, rfl⟩
  have hshaped : c.Shaped := hlived.shaped
  refine ⟨fun hm => ?_, ?_, fun hm change hchange s log => ?_⟩
  · have hr := (mode_eq_privateConduit_iff c).mp hm
    refine ⟨fun s => ?_, fun s => ?_, fun hup s s' => ?_, fun htop sites => ?_⟩
    · rw [spread_after_widen hr]
      exact Spread.widened_of_even hshaped.even
    · rw [spread_after_narrow hr]
      exact Spread.narrowed_of_even hshaped.even
    · exact ⟨restored_respread Spread.wider?_undoes_narrower? hshaped hup hr s s',
        restored_respread Spread.narrower?_undoes_wider? hshaped hup hr s s'⟩
    · refine Eq.trans ?_ (Spread.map_conduits_descent hshaped.even htop)
      simp only [after_narrowings hr]
  · obtain ⟨hs, hu⟩ := shaped_create load nonlinear site
    exact fun hp => (shaped_after hs history).2 hp hu
  · have hr : c.routing ≠ .privateConduit := (mode_eq_privateConduit_iff c).not.mp hm
    obtain ⟨S, hs⟩ := hlived.told
    simp only [List.mem_cons, List.not_mem_nil, or_false] at hchange
    rcases hchange with rfl | rfl
    · exact respread_elsewhere hr hs Spread.wider? s log
    · exact respread_elsewhere hr hs Spread.narrower? s log

/-- A dozen sets, each in a conduit of its own. -/
def dozenApart : List (Site × Occurrence) := [({}, .change (.setSets 12))]

def dozenInFreeAir : List (Site × Occurrence) :=
  [({}, .change (.setSets 12)), ({}, .change (.route .freeAir))]

/-- A new circuit for a valid load. -/
def someCircuit : Circuit :=
  (create { system := .split120x240, ampacity := 16, verdict := some true } false {}).circuit

/-- A dozen sets are brought together and apart again in their conduits, and in free air there is
nothing to be counted. -/
theorem dozen_restored :
    let c := someCircuit.after dozenApart
    let d := someCircuit.after dozenInFreeAir
    (c.mode = .privateConduit ∧ c.UpToDate ∧
      (c.after [({}, .change .narrow)]).spread = ⟨12, 6, 2⟩ ∧
      c.Restored 1 (c.after [({}, .change .narrow), ({}, .change .widen)])) ∧
    d.mode = .freeAir ∧ (Job.apply .narrow ⟨d, {}, []⟩).circuit.spread = ⟨12, 12, 1⟩ := by
  have hunpoked : Unpoked dozenApart := by
    intro e he f hf
    simp only [dozenApart, List.mem_cons, List.not_mem_nil, or_false] at he
    rw [he] at hf
    cases hf
  obtain ⟨hin, hknows, -⟩ := conduits_go_over_divisors
    { system := .split120x240, ampacity := 16, verdict := some true } false {} dozenApart
  obtain ⟨-, -, hout⟩ := conduits_go_over_divisors
    { system := .split120x240, ampacity := 16, verdict := some true } false {} dozenInFreeAir
  have hrestored := ((hin (by decide +kernel)).2.2.1 (hknows hunpoked) {} {}).1 (by decide +kernel)
  have hkept := (hout (by decide +kernel) .narrow (by simp) {} []).2.1
  refine ⟨⟨by decide +kernel, hknows hunpoked, by decide +kernel, hrestored⟩, by decide +kernel, ?_⟩
  exact (congrArg Circuit.spread hkept).trans (by decide +kernel)

end Circuit

end Raceways
