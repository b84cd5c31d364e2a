import Raceways.Proofs.Identity
import Raceways.Proofs.Placement

/-!
What work on one circuit leaves alone: all other circuits, the raceways that the circuit neither
leaves nor enters, and in the others everything but its own items, old and new. This holds
whatever is in the raceways.
-/

namespace Raceways

namespace Site

/-- Between two sites only the contents of the raceways that are `near` differ, and these only in
items that are the worker's `own`. -/
structure Frame (near : SharedRaceway → Prop) (own : Nat → Prop) (s t : Site) : Prop where
  fittings : ∀ r, t.fittings? r = s.fittings? r
  far : ∀ r, ¬ near r → t.contents? r = s.contents? r
  others : ∀ r id, ¬ own id → t.copy? r id = s.copy? r id

namespace Frame

variable {near near' : SharedRaceway → Prop} {own own' : Nat → Prop} {s t u : Site}

theorem refl (near : SharedRaceway → Prop) (own : Nat → Prop) (s : Site) : Frame near own s s :=
  ⟨fun _ => rfl, fun _ _ => rfl, fun _ _ _ => rfl⟩

theorem trans (h : Frame near own s t) (h' : Frame near own t u) : Frame near own s u :=
  ⟨fun r => (h'.fittings r).trans (h.fittings r),
    fun r hr => (h'.far r hr).trans (h.far r hr),
    fun r id hid => (h'.others r id hid).trans (h.others r id hid)⟩

theorem mono (h : Frame near own s t) (hnear : ∀ r, near r → near' r)
    (hown : ∀ id, own id → own' id) : Frame near' own' s t :=
  ⟨h.fittings, fun r hr => h.far r fun hr' => hr (hnear r hr'),
    fun r id hid => h.others r id fun hid' => hid (hown id hid')⟩

theorem issue (near : SharedRaceway → Prop) (own : Nat → Prop) (s : Site) (n : Nat) :
    Frame near own s (s.issue n) :=
  ⟨fun r => fittings?_issue s n r, fun r _ => contents?_issue s n r,
    fun r id _ => by rw [copy?, contents?_issue, copy?]⟩

theorem updateContents (r : SharedRaceway) (f : Contents → Contents) (s : Site)
    (hf : ∀ c id, ¬ own id → (f c).find? (id : Int) = c.find? (id : Int)) :
    Frame (fun q => r = q) own s (s.updateContents r f) := by
  refine ⟨fun q => fittings?_updateContents r q f s, ?_, ?_⟩
  · intro q hq
    rw [contents?_updateContents, if_neg hq]
  · intro q id hid
    rw [copy?, contents?_updateContents]
    split
    · rw [Option.bind_map]
      congr 1
      funext c
      exact hf c id hid
    · rfl

theorem raceway?_eq (h : Frame near own s t) (r : SharedRaceway) (hr : ¬ near r) :
    t.raceway? r = s.raceway? r :=
  (raceway?_eq_iff t s r).mpr ⟨h.fittings r, h.far r hr⟩

end Frame

end Site

namespace Job

/-- Where the items of a circuit are, and which items these are. -/
def lodging (j : Job) : Site × Routing × List Item := (j.site, j.circuit.routing, j.circuit.items)

theorem lodging_report (m : Message) (j : Job) : (j.report m).lodging = j.lodging := by
  unfold lodging
  rw [site_report, circuit_report]

theorem lodging_inspectLoad (j : Job) : j.inspectLoad.lodging = j.lodging := by
  simp only [inspectLoad]
  split
  · rfl
  · exact lodging_report _ j

theorem lodging_reviewPractice (j : Job) : j.reviewPractice.lodging = j.lodging := by
  simp only [reviewPractice]
  split
  · exact lodging_report _ _
  · rfl

/-- The second job has left alone what is far from the circuit, before and after, and what is not
its own. -/
def Framed (j k : Job) : Prop :=
  Site.Frame (fun r => j.circuit.routing = .shared r ∨ k.circuit.routing = .shared r)
    (fun id => id ∈ j.circuit.items.map Item.id ∨ id ∈ k.circuit.items.map Item.id) j.site k.site

namespace Framed

theorem refl (j : Job) : Framed j j := Site.Frame.refl _ _ _

theorem congr {j j' k k' : Job} (h : Framed j k) (hj : j'.lodging = j.lodging)
    (hk : k'.lodging = k.lodging) : Framed j' k' := by
  simp only [lodging, Prod.mk.injEq] at hj hk
  obtain ⟨hjs, hjr, hji⟩ := hj
  obtain ⟨hks, hkr, hki⟩ := hk
  unfold Framed
  rw [hjs, hjr, hji, hks, hkr, hki]
  exact h

/-- Two stretches of work make one if nothing is near or owned in between only. -/
theorem trans {j k l : Job} (h : Framed j k) (h' : Framed k l)
    (hr : k.circuit.routing = j.circuit.routing ∨ k.circuit.routing = l.circuit.routing)
    (hi : k.circuit.items.map Item.id = j.circuit.items.map Item.id ∨
      k.circuit.items.map Item.id = l.circuit.items.map Item.id) : Framed j l := by
  refine Site.Frame.trans (h.mono ?_ ?_) (h'.mono ?_ ?_)
  · rintro r (hj | hk)
    · exact Or.inl hj
    · rcases hr with he | he <;> rw [he] at hk
      · exact Or.inl hk
      · exact Or.inr hk
  · rintro id (hj | hk)
    · exact Or.inl hj
    · rcases hi with he | he <;> rw [he] at hk
      · exact Or.inl hk
      · exact Or.inr hk
  · rintro r (hk | hl)
    · rcases hr with he | he <;> rw [he] at hk
      · exact Or.inl hk
      · exact Or.inr hk
    · exact Or.inr hl
  · rintro id (hk | hl)
    · rcases hi with he | he <;> rw [he] at hk
      · exact Or.inl hk
      · exact Or.inr hk
    · exact Or.inr hl

end Framed

theorem frame_updateRaceway (f : Contents → Contents) (own : Nat → Prop) (j : Job)
    (hf : ∀ c id, ¬ own id → (f c).find? (id : Int) = c.find? (id : Int)) :
    Site.Frame (fun r => j.circuit.routing = .shared r) own j.site (j.updateRaceway f).site := by
  simp only [updateRaceway]
  split
  · exact .refl _ _ _
  · exact .refl _ _ _
  · exact .refl _ _ _
  · rename_i r hr
    refine (Site.Frame.updateContents r f j.site hf).mono ?_ fun _ h => h
    rintro q rfl
    exact hr

theorem frame_vacate (j : Job) :
    Site.Frame (fun r => j.circuit.routing = .shared r)
      (fun id => id ∈ j.circuit.items.map Item.id) j.site j.vacate.site :=
  frame_updateRaceway _ _ j fun c id h =>
    Contents.find?_without_of_not_mem j.circuit.items c id h

theorem frame_occupy (j : Job) :
    Site.Frame (fun r => j.circuit.routing = .shared r)
      (fun id => id ∈ j.circuit.items.map Item.id) j.site j.occupy.site :=
  frame_updateRaceway _ _ j fun c id h =>
    Contents.find?_adding_of_not_mem j.circuit.items c id h

theorem framed_occupy (j : Job) : Framed j j.occupy :=
  (frame_occupy j).mono (fun _ h => Or.inl h) (fun _ h => Or.inl h)

theorem routing_refit (j : Job) : j.refit.circuit.routing = j.circuit.routing := by
  obtain ⟨k, b, hc⟩ := circuit_refit j
  rw [hc]

theorem framed_refit (j : Job) : Framed j j.refit := by
  have hr : j.vacate.replaceItems.circuit.routing = j.circuit.routing := routing_updateRaceway _ j
  have hi : j.refit.circuit.items = j.vacate.replaceItems.circuit.items := items_updateRaceway _ _
  refine Site.Frame.trans (t := j.vacate.replaceItems.site) ?_ ?_
  · refine Site.Frame.trans (t := j.vacate.site) ?_ (.issue _ _ _ _)
    exact (frame_vacate j).mono (fun _ h => Or.inl h) (fun _ h => Or.inl h)
  · refine (frame_occupy j.vacate.replaceItems).mono ?_ ?_
    · intro r h
      rw [hr] at h
      exact Or.inl h
    · intro id h
      rw [← hi] at h
      exact Or.inr h

theorem items_moveTo (r : Routing) (j : Job) : (j.moveTo r).circuit.items = j.circuit.items := by
  obtain ⟨k, b, hc⟩ := circuit_moveTo r j
  rw [hc]

theorem framed_moveTo (r : Routing) (j : Job) : Framed j (j.moveTo r) := by
  have hi : j.vacate.circuit.items = j.circuit.items := items_updateRaceway _ j
  obtain ⟨k, b, hc⟩ := circuit_moveTo r j
  refine Site.Frame.trans (t := j.vacate.site) ?_ ?_
  · exact (frame_vacate j).mono (fun _ h => Or.inl h) (fun _ h => Or.inl h)
  · refine (frame_occupy { j.vacate with circuit.routing := r }).mono ?_ ?_
    · intro q h
      rw [hc]
      exact Or.inr h
    · intro id h
      change id ∈ j.vacate.circuit.items.map Item.id at h
      rw [hi] at h
      exact Or.inl h

theorem framed_resize (s : Size) (j : Job) : Framed j (j.resize s) := by
  refine Framed.trans (k := { j with
    circuit.conductor.size := s
    circuit.items := j.circuit.items.map (Item.withWireSize s) }) ?_ (framed_occupy _) (Or.inl rfl)
    (Or.inl ?_)
  · exact Site.Frame.refl _ _ _
  · simp [Function.comp_def]

/-! ## Every change -/

theorem rederive_framed (j : Job) :
    Framed j j.rederive ∧ j.rederive.circuit.routing = j.circuit.routing := by
  have hl := lodging_inspectLoad j
  have hroute : j.inspectLoad.circuit.routing = j.circuit.routing := congrArg (·.2.1) hl
  simp only [rederive]
  split
  · split
    · exact ⟨(Framed.refl j).congr rfl hl, hroute⟩
    · exact ⟨(framed_refit _).congr hl.symm rfl, (routing_refit _).trans hroute⟩
  · exact ⟨(framed_refit j.inspectLoad.adoptLayout).congr hl.symm rfl,
      (routing_refit _).trans hroute⟩

theorem framed_rederive_moveTo (r : Routing) {j k : Job} (h : k.lodging = j.rederive.lodging) :
    Framed j (k.moveTo r) := by
  obtain ⟨hf, hr⟩ := rederive_framed j
  have hkr : k.circuit.routing = j.rederive.circuit.routing := congrArg (·.2.1) h
  exact (hf.congr rfl h).trans (framed_moveTo r k) (Or.inl (hkr.trans hr))
    (Or.inr (by rw [items_moveTo]))

theorem framed_route (t : Target Nat) (j : Job) : Framed j (j.route t) := by
  simp only [route]
  refine Framed.congr (j := j.forget Message.aboutRouting) ?_ rfl (lodging_reviewPractice _)
  split
  · exact framed_rederive_moveTo _ rfl
  · exact framed_rederive_moveTo _ (lodging_report _ _)

theorem framed_useWiring (w : Wiring) (j : Job) : Framed j (j.useWiring w) := by
  simp only [useWiring]
  split
  · exact .refl j
  · exact (rederive_framed { j with circuit.wiring := w }).1.congr rfl (lodging_reviewPractice _)

theorem framed_refitIf (w : Wiring) {j k : Job} (n : Nat) (hs : k.site = j.site.issue n)
    (hr : k.circuit.routing = j.circuit.routing) (hi : k.circuit.items = j.circuit.items) :
    Framed j (k.refitIf w) := by
  have hk : Framed j k := by
    unfold Framed
    rw [hs]
    exact .issue _ _ _ _
  simp only [refitIf]
  split
  · exact hk.trans (framed_refit k) (Or.inl hr) (Or.inl (by rw [hi]))
  · exact hk

theorem framed_setSets (n : Nat) (j : Job) : Framed j (j.setSets n) := by
  unfold setSets
  split
  · exact .refl j
  · generalize hs :
      ({ j with circuit.spread := .onePerConduit n } : Job).note (.setsChanged n) = set
    have hset : j.lodging = set.lodging := by
      rw [← hs]
      rfl
    have hf := (rederive_framed set).1.congr hset rfl
    dsimp only
    split
    · rename_i m _
      split
      · have hk : ((set.rederive.forget Message.aboutRouting).report m).lodging =
            set.rederive.lodging := lodging_report m _
        exact (framed_rederive_moveTo .freeAir hk).congr hset (lodging_reviewPractice _)
      · exact hf
    · exact hf

theorem framed_respread (next : Spread → Option Spread) (j : Job) :
    Framed j (j.respread next) := by
  unfold respread
  split
  · exact (Framed.refl j).congr rfl (lodging_report _ j)
  · dsimp only
    split
    · exact .refl j
    · rename_i s _
      generalize hs : Job.note (.distributed s.sets s.conduits) _ = set
      have hset : j.lodging = set.lodging := by
        rw [← hs]
        rfl
      exact (rederive_framed set).1.congr hset rfl

theorem framed_apply (c : Change Nat) (j : Job) : Framed j (j.apply c) := by
  cases c with
  | route t => exact framed_route t j
  | useWiring w => exact framed_useWiring w j
  | replaceConductor spec => exact framed_refitIf .conductors 1 rfl rfl rfl
  | replaceCable spec => exact framed_refitIf .cables 1 rfl rfl rfl
  | resize s => exact framed_resize s j
  | setSets n => exact framed_setSets n j
  | widen => exact framed_respread _ j
  | narrow => exact framed_respread _ j
  | updateLoad f => exact (rederive_framed { j with circuit.load := f j.circuit.load }).1

theorem framed_meet (o : Occurrence) (j : Job) : Framed j (j.meet o) := by
  cases o with
  | change c => exact framed_apply c j
  | _ => exact .refl j

end Job

namespace Circuit

theorem frame_dismantle (held : List SharedRaceway) (c : Circuit) (s : Site) :
    Site.Frame (fun r => c.routing = .shared r) (fun id => id ∈ c.items.map Item.id) s
      (c.dismantle held s).1 := by
  simp only [dismantle]
  split
  · exact .refl _ _ _
  · rename_i r hr
    have hrouting : c.routing = .shared r := by
      cases hc : c.routing <;> simp_all [Routing.shared?]
    split
    · exact .refl _ _ _
    · refine (Site.Frame.updateContents r _ s fun k id h =>
        Contents.find?_without_of_not_mem c.items k id h).mono ?_ fun _ h => h
      rintro q rfl
      exact hrouting

end Circuit

namespace Installation

/-- The shared raceway that a circuit runs through. -/
def RunsThrough (w : Installation) (n : Nat) (r : SharedRaceway) : Prop :=
  ∃ c, w.circuit? n = some c ∧ c.routing = .shared r

/-- Whether an id is that of an item of the circuit. -/
def HasItem (w : Installation) (n id : Nat) : Prop :=
  ∃ c, w.circuit? n = some c ∧ id ∈ c.items.map Item.id

theorem frame_step (w : Installation) (a : Action) (p : Place) (n : Nat) (hon : a.on? = some p)
    (hn : w.circuitAt p = .ok n) :
    (∀ m, m ≠ n → (w.step a).after.circuit? m = w.circuit? m) ∧
      Site.Frame (fun r => w.RunsThrough n r ∨ (w.step a).after.RunsThrough n r)
        (fun id => w.HasItem n id ∨ (w.step a).after.HasItem n id) w.site
        (w.step a).after.site := by
  have t := turn_of_step w a
  unfold RunsThrough HasItem circuit?
  generalize (w.step a).after.site = s at t ⊢
  generalize (w.step a).after.circuits = circuits at t ⊢
  cases t with
  | rest _ => exact ⟨fun _ _ => rfl, .refl _ _ _⟩
  | build load nonlinear hon' =>
    rw [hon'] at hon
    cases hon
  | alter s hon' _ =>
    rw [hon'] at hon
    cases hon
  | work q k c o hon' hk hc _ _ _ =>
    rw [hon'] at hon
    cases hon
    rw [hk] at hn
    cases hn
    have hself := join_set_self hc (some (Job.meet o ⟨c, w.site, []⟩).circuit)
    refine ⟨fun m hm => join_set_of_ne _ (Ne.symm hm) _, ?_⟩
    refine (Job.framed_meet o ⟨c, w.site, []⟩).mono ?_ ?_
    · rintro r (h | h)
      · exact Or.inl ⟨c, hc, h⟩
      · exact Or.inr ⟨_, hself, h⟩
    · rintro id (h | h)
      · exact Or.inl ⟨c, hc, h⟩
      · exact Or.inr ⟨_, hself, h⟩
  | takeDown slot k b held m c ha _ hm hc =>
    subst ha
    cases hon
    rw [hm] at hn
    cases hn
    refine ⟨fun l hl => join_set_of_ne _ (Ne.symm hl) _, ?_⟩
    exact (Circuit.frame_dismantle held c w.site).mono (fun r h => Or.inl ⟨c, hc, h⟩)
      fun id h => Or.inl ⟨c, hc, h⟩

/-- Two circuits come to share a conduit. -/
def neighbours : List Action :=
  let load : Load := { system := .ln120, ampacity := 16, verdict := some true }
  let shared : Change Place := .route (.sharedConduit (some (.loose 0)))
  [.newConduit {} false, .newCircuit load false false, .newCircuit load false false,
    .change (.loose 0) shared, .change (.loose 1) shared]

end Installation

end Raceways
