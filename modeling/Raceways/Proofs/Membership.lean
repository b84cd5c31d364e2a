import Raceways.Proofs.Lodging

/-!
What the raceways of an installation hold. As long as no raceway is overwritten, a private raceway
holds the items of its circuit or nothing, and a shared one holds the items of the circuits that run
through it, besides what was left behind there.
-/

namespace Raceways

namespace Circuit

theorem mode_eq_privateConduit_iff (c : Circuit) :
    c.mode = .privateConduit ↔ c.routing = .privateConduit := by
  unfold mode
  rcases c.routing with _ | _ | _ | ⟨_ | _⟩ <;> simp [Routing.mode]

theorem mode_eq_privateBundle_iff (c : Circuit) :
    c.mode = .privateBundle ↔ c.routing = .privateBundle := by
  unfold mode
  rcases c.routing with _ | _ | _ | ⟨_ | _⟩ <;> simp [Routing.mode]

theorem site_dismantle_of_held {c : Circuit} {r : SharedRaceway} {held : List SharedRaceway}
    {s : Site} (hr : c.routing = .shared r) (hheld : r ∈ held) : (c.dismantle held s).1 = s := by
  unfold dismantle
  simp [hr, Routing.shared?, hheld]

theorem site_dismantle_of_not_held {c : Circuit} {held : List SharedRaceway} {s : Site}
    (h : ∀ r, c.routing = .shared r → r ∉ held) :
    (c.dismantle held s).1 = (Job.vacate ⟨c, s, []⟩).site := by
  unfold dismantle Job.vacate Job.updateRaceway
  cases hr : c.routing with
  | shared r => simp [Routing.shared?, h r hr]
  | _ => simp [Routing.shared?]

end Circuit

namespace Installation

/-- The items left behind in a shared raceway in the course of a run. -/
def leftBehind (w : Installation) : List Action → SharedRaceway → List Item
  | [], _ => []
  | a :: actions, r => w.leftBy a r ++ leftBehind (w.step a).after actions r

theorem leftBy_of_on? (w : Installation) {a : Action} (h : a.on? = none) (r : SharedRaceway) :
    w.leftBy a r = [] := by
  cases a with
  | dropCircuit slot k b => cases h
  | _ => rfl

/-! ## The items of circuits in shared raceways -/

/-- An item of a circuit, other than the given one, that runs through a shared raceway. -/
def Elsewhere (circuits : List (Option Circuit)) (n : Nat) (r : SharedRaceway) (i : Item) : Prop :=
  ∃ (m : Nat) (c : Circuit),
    m ≠ n ∧ circuits[m]?.join = some c ∧ c.routing = .shared r ∧ i ∈ c.items

/-- An item of a circuit that runs through a shared raceway. -/
def Present (circuits : List (Option Circuit)) (r : SharedRaceway) (i : Item) : Prop :=
  ∃ (n : Nat) (c : Circuit), circuits[n]?.join = some c ∧ c.routing = .shared r ∧ i ∈ c.items

theorem Elsewhere.present {circuits : List (Option Circuit)} {n : Nat} {r : SharedRaceway}
    {i : Item} (h : Elsewhere circuits n r i) : Present circuits r i := by
  obtain ⟨m, c, _, hc, hr, hi⟩ := h
  exact ⟨m, c, hc, hr, hi⟩

theorem present_iff_elsewhere {circuits : List (Option Circuit)} {n : Nat} {c : Circuit}
    (hc : circuits[n]?.join = some c) (r : SharedRaceway) (i : Item) :
    Present circuits r i ↔ Elsewhere circuits n r i ∨ c.routing = .shared r ∧ i ∈ c.items := by
  constructor
  · rintro ⟨m, d, hd, hr, hi⟩
    by_cases hm : m = n
    · subst hm
      rw [hc] at hd
      cases hd
      exact Or.inr ⟨hr, hi⟩
    · exact Or.inl ⟨m, d, hm, hd, hr, hi⟩
  · rintro (h | ⟨hr, hi⟩)
    · exact h.present
    · exact ⟨n, c, hc, hr, hi⟩

theorem elsewhere_congr {circuits circuits' : List (Option Circuit)} {n : Nat}
    (h : ∀ m, m ≠ n → circuits'[m]?.join = circuits[m]?.join) (r : SharedRaceway) (i : Item) :
    Elsewhere circuits' n r i ↔ Elsewhere circuits n r i := by
  constructor
  · rintro ⟨m, c, hm, hc, hr⟩
    exact ⟨m, c, hm, (h m hm).symm.trans hc, hr⟩
  · rintro ⟨m, c, hm, hc, hr⟩
    exact ⟨m, c, hm, (h m hm).trans hc, hr⟩

/-- A number that no circuit has excludes nothing. -/
theorem present_iff_of_vacant {circuits : List (Option Circuit)} {n : Nat}
    (h : circuits[n]?.join = none) (r : SharedRaceway) (i : Item) :
    Present circuits r i ↔ Elsewhere circuits n r i := by
  refine ⟨?_, Elsewhere.present⟩
  rintro ⟨m, c, hc, hr⟩
  refine ⟨m, c, ?_, hc, hr⟩
  rintro rfl
  rw [h] at hc
  cases hc

/-! ## The invariant -/

/-- All that is in the raceways is accounted for, given what was left behind. -/
structure Accounted (s : Site) (circuits : List (Option Circuit))
    (left : SharedRaceway → Item → Prop) : Prop where
  apart : Apart s circuits
  conduit : ∀ (n : Nat) (c : Circuit), circuits[n]?.join = some c →
    ∀ i, i ∈ c.conduit.contents.toList ↔ c.routing = .privateConduit ∧ i ∈ c.items
  bundle : ∀ (n : Nat) (c : Circuit), circuits[n]?.join = some c →
    ∀ i, i ∈ c.bundle.contents.toList ↔ c.routing = .privateBundle ∧ i ∈ c.items
  shared : ∀ r k, s.contents? r = some k →
    ∀ i, i ∈ k.toList ↔ Present circuits r i ∨ left r i
  routed : ∀ (n : Nat) (c : Circuit) (r : SharedRaceway), circuits[n]?.join = some c →
    c.routing = .shared r → (s.contents? r).isSome
  left_there : ∀ r i, left r i → (s.contents? r).isSome
  left_issued : ∀ r i, left r i → i.id < s.nextId
  left_apart : ∀ r i, left r i → ∀ (n : Nat) (c : Circuit), circuits[n]?.join = some c →
    i.id ∉ c.ids

/-- The items that a circuit finds in the raceways and that are not its own. -/
def Strangers (circuits : List (Option Circuit)) (left : SharedRaceway → Item → Prop) (n : Nat) :
    Routing → Item → Prop
  | .shared r, i => Elsewhere circuits n r i ∨ left r i
  | _, _ => False

namespace Accounted

variable {s : Site} {circuits : List (Option Circuit)} {left : SharedRaceway → Item → Prop}

theorem empty : Accounted {} [] fun _ _ => False where
  apart := .empty
  conduit _ _ h := by cases h
  bundle _ _ h := by cases h
  shared r k h := by cases r <;> cases h
  routed _ _ _ h := by cases h
  left_there _ _ h := h.elim
  left_issued _ _ h := h.elim
  left_apart _ _ h := h.elim

theorem congr {left' : SharedRaceway → Item → Prop} (h : Accounted s circuits left)
    (hl : ∀ r i, left r i ↔ left' r i) : Accounted s circuits left' := by
  have he : left = left' := by
    funext r i
    exact propext (hl r i)
  exact he ▸ h

theorem strangers_issued (h : Accounted s circuits left) {n : Nat} {q : Routing} {i : Item}
    (hi : Strangers circuits left n q i) : i.id < s.nextId := by
  cases q with
  | shared r =>
    rcases hi with ⟨m, c, _, hc, _, hi⟩ | hl
    · exact h.apart.issued m c hc i.id (Circuit.item_id_mem hi)
    · exact h.left_issued r i hl
  | _ => exact hi.elim

theorem strange (h : Accounted s circuits left) {n : Nat} {c : Circuit}
    (hc : circuits[n]?.join = some c) :
    Job.Strange ⟨c, s, []⟩ (Strangers circuits left n) := by
  intro q i hi
  refine ⟨h.strangers_issued hi, ?_⟩
  cases q with
  | shared r =>
    rcases hi with ⟨m, d, hm, hd, _, hi⟩ | hl
    · exact h.apart.disjoint m n d c hm hd hc i.id (Circuit.item_id_mem hi)
    · exact h.left_apart r i hl n c hc
  | _ => exact hi.elim

theorem lodged (h : Accounted s circuits left) {n : Nat} {c : Circuit}
    (hc : circuits[n]?.join = some c) :
    Job.Lodged ⟨c, s, []⟩ (Strangers circuits left n) ⟨c, s, []⟩ := by
  refine ⟨h.apart.grown hc, fun q k hk i => ?_⟩
  cases q with
  | freeAir => cases hk
  | privateConduit =>
    cases hk
    rw [h.conduit n c hc i]
    exact (or_iff_right id).symm
  | privateBundle =>
    cases hk
    rw [h.bundle n c hc i]
    exact (or_iff_right id).symm
  | shared r =>
    rw [h.shared r k hk i, present_iff_elsewhere hc]
    exact or_right_comm

/-- A circuit takes a place, old or new, with its items where it runs. -/
theorem replace (h : Accounted s circuits left) {n : Nat} {j₀ j : Job}
    {circuits' : List (Option Circuit)} (hr : Replaced n j.circuit circuits circuits')
    (hs : Job.Strange j₀ (Strangers circuits left n))
    (hj : Job.Lodged j₀ (Strangers circuits left n) j) (hapart : Apart j.site circuits')
    (hkept : Site.Kept s j.site) (hle : s.nextId ≤ j.site.nextId)
    (hrouted : ∀ r, j.circuit.routing = .shared r → (s.contents? r).isSome) :
    Accounted j.site circuits' left where
  apart := hapart
  conduit m d hd i := by
    rcases hr.eq_or hd with ⟨_, rfl⟩ | ⟨_, hd⟩
    · exact (hj.holds .privateConduit _ rfl i).trans (or_iff_right id)
    · exact h.conduit m d hd i
  bundle m d hd i := by
    rcases hr.eq_or hd with ⟨_, rfl⟩ | ⟨_, hd⟩
    · exact (hj.holds .privateBundle _ rfl i).trans (or_iff_right id)
    · exact h.bundle m d hd i
  shared r k hk i := by
    rw [hj.holds (.shared r) k hk i, present_iff_elsewhere hr.self, elsewhere_congr hr.other]
    exact or_right_comm
  routed m d r hd hdr := by
    rcases hr.eq_or hd with ⟨_, rfl⟩ | ⟨_, hd⟩
    · exact hkept r (hrouted r hdr)
    · exact hkept r (h.routed m d r hd hdr)
  left_there r i hl := hkept r (h.left_there r i hl)
  left_issued r i hl := Nat.lt_of_lt_of_le (h.left_issued r i hl) hle
  left_apart r i hl m d hd := by
    rcases hr.eq_or hd with ⟨_, rfl⟩ | ⟨_, hd⟩
    · exact Job.Lodged.not_mem_ids (q := .shared r) hs hj.toGrown (Or.inr hl)
    · exact h.left_apart r i hl m d hd

theorem work (h : Accounted s circuits left) {n : Nat} {c : Circuit}
    (hc : circuits[n]?.join = some c) (o : Occurrence) (ho : o.overwrites = false)
    (hgoal : ∀ r, o.goal? = some r → (s.contents? r).isSome) :
    Accounted (Job.meet o ⟨c, s, []⟩).site
      (circuits.set n (some (Job.meet o ⟨c, s, []⟩).circuit)) left := by
  have hj := (h.lodged hc).meet (h.strange hc) o ho
  refine h.replace (replaced_set hc _) (h.strange hc) hj (h.apart.work hc hj.toGrown)
    (Job.framed_meet o ⟨c, s, []⟩).kept hj.nextId_le ?_
  intro r hr
  rcases Job.shared_of_meet hr with hr | hr
  · exact h.routed n c r hc hr
  · exact hgoal r hr

/-- A circuit that is being made has an empty conduit and an empty bundle, and no items yet. -/
theorem lodged_bare (h : Accounted s circuits left) (load : Load) (nonlinear : Bool) :
    Job.Lodged (Circuit.bare load nonlinear s) (Strangers circuits left circuits.length)
      (Circuit.bare load nonlinear s) := by
  refine ⟨Circuit.grown_bare load nonlinear s, fun q k hk i => ?_⟩
  have hvacant : circuits[circuits.length]?.join = none := by simp
  have hnone : ∀ q, ¬ (Circuit.bare load nonlinear s).Owns q i := fun q h => nomatch h.2
  refine Iff.trans ?_ (or_iff_left (hnone q)).symm
  cases q with
  | freeAir => cases hk
  | privateConduit =>
    cases hk
    exact iff_of_false List.not_mem_nil id
  | privateBundle =>
    cases hk
    exact iff_of_false List.not_mem_nil id
  | shared r =>
    have hk' : s.contents? r = some k := by
      rw [← hk]
      exact (Site.contents?_issue s 2 r).symm
    rw [h.shared r k hk' i, present_iff_of_vacant hvacant]
    exact Iff.rfl

theorem strange_bare (h : Accounted s circuits left) (load : Load) (nonlinear : Bool) (n : Nat) :
    Job.Strange (Circuit.bare load nonlinear s) (Strangers circuits left n) := by
  intro q i hi
  have hlt := h.strangers_issued hi
  refine ⟨Nat.lt_of_lt_of_le hlt (Nat.le_add_right _ 2), fun hid => ?_⟩
  have hge := (Circuit.mem_ids_bare hid).1
  omega

theorem build (h : Accounted s circuits left) (load : Load) (nonlinear : Bool) :
    Accounted (Circuit.create load nonlinear s).site
      (circuits ++ [some (Circuit.create load nonlinear s).circuit]) left := by
  have hs := h.strange_bare load nonlinear circuits.length
  have hj := Circuit.create_preserved (Job.Lodged.preserved hs) load nonlinear s
    (h.lodged_bare load nonlinear)
  refine h.replace (replaced_append _ _) hs hj (h.apart.build load nonlinear)
    (Circuit.frame_create load nonlinear s).kept
    (Nat.le_trans (Nat.le_add_right _ 2) hj.nextId_le) ?_
  intro r hr
  rw [Circuit.routing_create] at hr
  cases hr

theorem alter (h : Accounted s circuits left) {t : Site} (ht : s.Altered false t) :
    Accounted t circuits left where
  apart := h.apart.alter ht.nextId_le
  conduit := h.conduit
  bundle := h.bundle
  shared r k hk i := by
    rcases ht.contents? r with he | ⟨hnone, hnew⟩
    · exact h.shared r k (he.symm.trans hk) i
    · rw [hnew] at hk
      cases hk
      refine iff_of_false List.not_mem_nil ?_
      rintro (⟨n, c, hc, hr, _⟩ | hl)
      · have := h.routed n c r hc hr
        simp [hnone] at this
      · have := h.left_there r i hl
        simp [hnone] at this
  routed n c r hc hr := ht.kept r (h.routed n c r hc hr)
  left_there r i hl := ht.kept r (h.left_there r i hl)
  left_issued r i hl := Nat.lt_of_lt_of_le (h.left_issued r i hl) ht.nextId_le
  left_apart := h.left_apart

/-- A circuit that is taken down takes its items with it, unless someone holds its raceway. -/
theorem mem_after_dismantle (h : Accounted s circuits left) {n : Nat} {c : Circuit}
    (hc : circuits[n]?.join = some c) (held : List SharedRaceway) {r : SharedRaceway}
    {k : Contents} (hk : (c.dismantle held s).1.contents? r = some k) (i : Item) :
    i ∈ k.toList ↔
      Strangers circuits left n (.shared r) i ∨ c.routing = .shared r ∧ r ∈ held ∧ i ∈ c.items := by
  by_cases hheld : ∃ q, c.routing = .shared q ∧ q ∈ held
  · obtain ⟨q, hq, hqheld⟩ := hheld
    have hsame : c.routing = .shared r → r ∈ held := by
      intro hr
      rw [hq] at hr
      cases hr
      exact hqheld
    rw [Circuit.site_dismantle_of_held hq hqheld] at hk
    refine ((h.lodged hc).holds (.shared r) k hk i).trans (or_congr_right ?_)
    exact ⟨fun ⟨hr, hi⟩ => ⟨hr, hsame hr, hi⟩, fun ⟨hr, _, hi⟩ => ⟨hr, hi⟩⟩
  · have hnot : ¬ (c.routing = .shared r ∧ r ∈ held ∧ i ∈ c.items) :=
      fun ⟨hr, hrheld, _⟩ => hheld ⟨r, hr, hrheld⟩
    rw [Circuit.site_dismantle_of_not_held fun q hq hqheld => hheld ⟨q, hq, hqheld⟩] at hk
    rw [or_iff_left hnot]
    exact (h.lodged hc).vacate (h.strange hc) (.shared r) k hk i

theorem takeDown (h : Accounted s circuits left) {n : Nat} {c : Circuit}
    (hc : circuits[n]?.join = some c) (held : List SharedRaceway) :
    Accounted (c.dismantle held s).1 (circuits.set n none) fun r i =>
      left r i ∨ c.routing = .shared r ∧ r ∈ held ∧ i ∈ c.items := by
  have hkept := (Circuit.frame_dismantle held c s).kept
  have hnext := Circuit.nextId_dismantle held c s
  have hvacant : (circuits.set n none)[n]?.join = none := join_set_self hc none
  have hothers : ∀ m, m ≠ n → (circuits.set n none)[m]?.join = circuits[m]?.join :=
    fun m hm => join_set_of_ne circuits (Ne.symm hm) none
  refine ⟨(h.apart.vacate n).alter (Nat.le_of_eq hnext.symm), ?_, ?_, ?_, ?_, ?_, ?_, ?_⟩
  · exact fun m d hd => h.conduit m d (join_set_none_eq_some hd).2
  · exact fun m d hd => h.bundle m d (join_set_none_eq_some hd).2
  · intro r k hk i
    rw [h.mem_after_dismantle hc held hk i, present_iff_of_vacant hvacant, elsewhere_congr hothers]
    exact or_assoc
  · exact fun m d r hd hr => hkept r (h.routed m d r (join_set_none_eq_some hd).2 hr)
  · rintro r i (hl | ⟨hr, _, _⟩)
    · exact hkept r (h.left_there r i hl)
    · exact hkept r (h.routed n c r hc hr)
  · rintro r i (hl | ⟨_, _, hi⟩)
    · rw [hnext]
      exact h.left_issued r i hl
    · rw [hnext]
      exact h.apart.issued n c hc i.id (Circuit.item_id_mem hi)
  · rintro r i (hl | ⟨_, _, hi⟩) m d hd
    · exact h.left_apart r i hl m d (join_set_none_eq_some hd).2
    · obtain ⟨hm, hd⟩ := join_set_none_eq_some hd
      exact h.apart.disjoint n m c d (Ne.symm hm) hc hd i.id (Circuit.item_id_mem hi)

theorem turn {w : Installation} (h : Accounted w.site w.circuits left) (hw : Charted w)
    {a : Action} (ha : a.overwrites = false) {t : Site} {circuits' : List (Option Circuit)}
    (ht : Turn w a t circuits') :
    Accounted t circuits' fun r i => left r i ∨ i ∈ w.leftBy a r := by
  have hnothing : (∀ r, w.leftBy a r = []) → ∀ r i, left r i ↔ left r i ∨ i ∈ w.leftBy a r := by
    intro hl r i
    simp [hl r]
  cases ht with
  | rest hl => exact h.congr (hnothing hl)
  | build load nonlinear hon =>
    exact (h.build load nonlinear).congr (hnothing (leftBy_of_on? w hon))
  | alter _ hon ht =>
    rw [ha] at ht
    exact (h.alter ht).congr (hnothing (leftBy_of_on? w hon))
  | work p n c o hon hn hc ho hgoal hl =>
    have ho' : o.overwrites = false := by
      cases hov : o.overwrites with
      | false => rfl
      | true => exact absurd (ho hov) (by simp [ha])
    exact (h.work hc o ho' fun r hr => hw.known r (hgoal r hr)).congr (hnothing hl)
  | takeDown slot k b held n c hd hheld hn hc =>
    subst hd
    refine (h.takeDown hc held).congr fun r i => or_congr_right ?_
    rw [leftBy_dropCircuit hheld hn, hc]
    dsimp only
    split
    · rename_i hr
      exact ⟨fun hi => hi.2.2, fun hi => ⟨hr.1, hr.2, hi⟩⟩
    · rename_i hr
      exact iff_of_false (fun hi => hr ⟨hi.1, hi.2.1⟩) List.not_mem_nil

end Accounted

/-- A run that overwrites no raceway leaves all that is in them accounted for. -/
theorem accounted_run (w : Installation) (left : SharedRaceway → Item → Prop) (hw : Charted w)
    (h : Accounted w.site w.circuits left) (actions : List Action)
    (ha : ∀ a ∈ actions, a.overwrites = false) :
    Accounted (w.run actions).site (w.run actions).circuits
      fun r i => left r i ∨ i ∈ w.leftBehind actions r := by
  induction actions generalizing w left with
  | nil => exact h.congr fun r i => by simp [leftBehind]
  | cons a actions ih =>
    have hstep := h.turn hw (ha a List.mem_cons_self) (turn_of_step w a)
    have hrun := ih (w.step a).after _ (hw.step a) hstep
      fun b hb => ha b (List.mem_cons_of_mem _ hb)
    rw [run_cons]
    exact hrun.congr fun r i => by simp [leftBehind, or_assoc]

/-- What was left behind by the whole of a run is all that the circuits do not account for. -/
theorem accounted_of_run (actions : List Action) (ha : ∀ a ∈ actions, a.overwrites = false) :
    Accounted (run {} actions).site (run {} actions).circuits
      fun r i => i ∈ leftBehind {} actions r :=
  (accounted_run {} _ .empty .empty actions ha).congr fun _ _ => or_iff_right id

/-- **Membership.** After any run that overwrites no raceway, the private conduit of a circuit
holds exactly the items of the circuit if it runs through it, and else nothing; so does its private
bundle. A shared raceway holds exactly the items of the circuits that run through it and what was
left behind there by circuits that were taken down. -/
theorem mem_raceway_iff (actions : List Action) (ha : ∀ a ∈ actions, a.overwrites = false) :
    let w := run {} actions
    (∀ n c, w.circuit? n = some c →
      (∀ i, i ∈ c.conduit.contents.toList ↔ c.mode = .privateConduit ∧ i ∈ c.items) ∧
        (∀ i, i ∈ c.bundle.contents.toList ↔ c.mode = .privateBundle ∧ i ∈ c.items)) ∧
      ∀ r k, w.site.contents? r = some k → ∀ i, i ∈ k.toList ↔
        (∃ n c, w.circuit? n = some c ∧ c.routing = .shared r ∧ i ∈ c.items) ∨
          i ∈ leftBehind {} actions r := by
  intro w
  have h := accounted_of_run actions ha
  refine ⟨fun n c hc => ⟨fun i => ?_, fun i => ?_⟩, h.shared⟩
  · rw [Circuit.mode_eq_privateConduit_iff]
    exact h.conduit n c hc i
  · rw [Circuit.mode_eq_privateBundle_iff]
    exact h.bundle n c hc i

/-- One of two circuits that share a conduit is taken down while someone holds the conduit. -/
def farewell : List Action := neighbours ++ [.dropCircuit 0 (some (.loose 0)) none]

theorem mem_conduit_after_farewell :
    (∀ a ∈ farewell, a.overwrites = false) ∧
      (leftBehind {} farewell (.conduit 0)).map Item.id = [2, 3, 4] ∧
      ∃ k, (run {} farewell).site.contents? (.conduit 0) = some k ∧ ∀ i, i ∈ k.toList ↔
        (∃ n c, (run {} farewell).circuit? n = some c ∧ c.routing = .shared (.conduit 0) ∧
          i ∈ c.items) ∨ i ∈ leftBehind {} farewell (.conduit 0) :=
  ⟨by decide, by rfl, _, rfl, (mem_raceway_iff farewell (by decide)).2 _ _ rfl⟩

end Installation

end Raceways
