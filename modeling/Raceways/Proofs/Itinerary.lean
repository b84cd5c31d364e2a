import Raceways.Proofs.Audit
import Raceways.Proofs.Destination
import Raceways.Proofs.Seating

/-!
How the routes of a panel come about. As long as its circuits get into shared raceways only by being
sent through those of the panel, the route of a circuit is where it was last sent, unless something
has redirected it since.
-/

namespace Raceways

/-! ## Histories -/

/-- Something happened in a history, and since then there was nothing but what is allowed. -/
def Since {α : Type} (happened allowed : α → Prop) (history : List α) : Prop :=
  ∃ before e later, history = before ++ e :: later ∧ happened e ∧ ∀ x ∈ later, allowed x

namespace Since

variable {α : Type} {happened allowed : α → Prop}

theorem not_nil : ¬ Since happened allowed [] := by
  rintro ⟨before, e, later, h, -⟩
  simp at h

theorem append_iff (history : List α) (x : α) :
    Since happened allowed (history ++ [x]) ↔
      happened x ∨ Since happened allowed history ∧ allowed x := by
  constructor
  · rintro ⟨before, e, later, h, he, hlater⟩
    rcases List.eq_nil_or_concat later with rfl | ⟨rest, y, rfl⟩
    · obtain ⟨-, hx⟩ := List.append_inj' h rfl
      cases hx
      exact Or.inl he
    · rw [List.concat_eq_append, ← List.cons_append, ← List.append_assoc] at h
      obtain ⟨hh, hx⟩ := List.append_inj' h rfl
      cases hx
      exact Or.inr ⟨⟨before, e, rest, hh, he, fun z hz => hlater z (by simp [hz])⟩,
        hlater x (by simp)⟩
  · rintro (hx | ⟨⟨before, e, later, rfl, he, hlater⟩, hx⟩)
    · exact ⟨history, x, [], rfl, hx, by simp⟩
    · refine ⟨before, e, later ++ [x], by simp, he, fun z hz => ?_⟩
      rcases List.mem_append.mp hz with hz | hz
      · exact hlater z hz
      · rw [List.mem_singleton.mp hz]
        exact hx

end Since

namespace Panel

/-- The route of a circuit, as the route map has it, is the raceway that the circuit runs
through. -/
theorem routeOf_eq_some_iff (p : Panel) (circuits : List (Option Circuit)) (id : Nat)
    (k : RacewayId) :
    RouteMap.routeOf ⟨(p.roster circuits).filterMap p.route?⟩ id = some k ↔
      ∃ c r, (id, c) ∈ p.roster circuits ∧ c.routing = .shared r ∧ p.idOf? r = some k := by
  have hmem : ∀ n l, (n, l) ∈ (p.roster circuits).filterMap p.route? ↔
      ∃ c r, (n, c) ∈ p.roster circuits ∧ c.routing = .shared r ∧ p.idOf? r = some l := by
    intro n l
    rw [List.mem_filterMap]
    constructor
    · rintro ⟨⟨m, c⟩, hc, hr⟩
      obtain ⟨rfl, r, hr, hl⟩ := (p.route?_eq_some_iff m c n l).mp hr
      exact ⟨c, r, hc, hr, hl⟩
    · rintro ⟨c, r, hc, hr, hl⟩
      exact ⟨(n, c), hc, (p.route?_eq_some_iff n c n l).mpr ⟨rfl, r, hr, hl⟩⟩
  rw [← hmem]
  unfold RouteMap.routeOf
  rw [Option.map_eq_some_iff]
  constructor
  · rintro ⟨⟨n, l⟩, hfind, rfl⟩
    have hn : n = id := by simpa using List.find?_some hfind
    rw [← hn]
    exact List.mem_of_find?_eq_some hfind
  · intro h
    have hsome : (((p.roster circuits).filterMap p.route?).find? (fun e => e.1 = id)).isSome :=
      List.find?_isSome.mpr ⟨(id, k), h, decide_eq_true rfl⟩
    obtain ⟨⟨n, l⟩, hfind⟩ := Option.isSome_iff_exists.mp hsome
    have hn : n = id := by simpa using List.find?_some hfind
    have hl := List.mem_of_find?_eq_some hfind
    subst hn
    obtain ⟨c, r, hc, hr, hk⟩ := (hmem n k).mp h
    obtain ⟨d, q, hd, hq, hl⟩ := (hmem n l).mp hl
    rw [eq_of_mem_roster hd hc, hr] at hq
    cases hq
    rw [hl] at hk
    cases hk
    exact ⟨_, hfind, rfl⟩

/-- A panel that gets more raceways has the old ones under their ids. -/
theorem shared?_of_grown {p q : Panel} {k : RacewayId} {r : SharedRaceway}
    (h : p.shared? k = some r) {ks bs : List Nat} (hc : q.conduits = p.conduits ++ ks)
    (hb : q.bundles = p.bundles ++ bs) : q.shared? k = some r := by
  cases k with
  | conduit id =>
    obtain ⟨n, hn, rfl⟩ := Option.map_eq_some_iff.mp h
    have hlt := (List.getElem?_eq_some_iff.mp hn).1
    simp only [shared?, hc, List.getElem?_append_left hlt, hn, Option.map_some]
  | bundle id =>
    obtain ⟨n, hn, rfl⟩ := Option.map_eq_some_iff.mp h
    have hlt := (List.getElem?_eq_some_iff.mp hn).1
    simp only [shared?, hb, List.getElem?_append_left hlt, hn, Option.map_some]

end Panel

namespace Installation

/-- What is done in a run, each time with the installation that it was done to. -/
def scenes (w : Installation) : List Action → List (Installation × Action)
  | [] => []
  | a :: rest => (w, a) :: (w.step a).after.scenes rest

theorem scenes_append (w : Installation) (past rest : List Action) :
    w.scenes (past ++ rest) = w.scenes past ++ (w.run past).scenes rest := by
  induction past generalizing w with
  | nil => rfl
  | cons a past ih => exact congrArg _ (ih _)

theorem mem_of_mem_scenes {w : Installation} {actions : List Action}
    {s : Installation × Action} (h : s ∈ w.scenes actions) : s.2 ∈ actions := by
  induction actions generalizing w with
  | nil => cases h
  | cons a actions ih =>
    rcases List.mem_cons.mp h with rfl | h
    · exact List.mem_cons_self
    · exact List.mem_cons_of_mem _ (ih h)

variable {w v : Installation}

/-! ## The circuits of the panel -/

/-- Whether a circuit stands on the panel under an id. -/
def OnPanel (w : Installation) (id : Nat) (c : Circuit) : Prop :=
  ∃ n, w.circuitAt (.panel id) = .ok n ∧ w.circuit? n = some c

theorem OnPanel.unique {id : Nat} {c d : Circuit} (hc : w.OnPanel id c) (hd : w.OnPanel id d) :
    c = d := by
  obtain ⟨n, hn, hc⟩ := hc
  obtain ⟨m, hm, hd⟩ := hd
  rw [hn] at hm
  cases hm
  rw [hc] at hd
  exact Option.some.inj hd

theorem mem_roster_iff_onPanel (w : Installation) (id : Nat) (c : Circuit) :
    (id, c) ∈ w.panel.roster w.circuits ↔ w.OnPanel id c := by
  rw [Panel.mem_roster]
  unfold OnPanel
  refine exists_congr fun n => and_congr ?_ Iff.rfl
  rw [circuitAt_panel_iff, Option.join_eq_some_iff]

/-- Whether the circuit of the panel with an id runs through a shared raceway. -/
def Routed (w : Installation) (id : Nat) (r : SharedRaceway) : Prop :=
  ∃ c, w.OnPanel id c ∧ c.routing = .shared r

theorem atHome_iff (w : Installation) :
    w.AtHome ↔ ∀ id r, w.Routed id r → w.panel.Owns r := by
  constructor
  · rintro h id r ⟨c, hc, hr⟩
    obtain ⟨n, hn, hcn⟩ := (w.mem_roster_iff c).mp ⟨id, (w.mem_roster_iff_onPanel id c).mpr hc⟩
    exact h n c r hn hcn hr
  · intro h n c r hn hc hr
    obtain ⟨id, hid⟩ := (w.mem_roster_iff c).mpr ⟨n, hn, hc⟩
    exact h id r ⟨c, (w.mem_roster_iff_onPanel id c).mp hid, hr⟩

/-- If the circuits of the panel are at home, the route map is made of where they run. -/
theorem routeMap_of_atHome (hw : Charted w) (h : w.AtHome) :
    ∃ m, w.routeMap = .ok m ∧ ∀ id k,
      m.routeOf id = some k ↔ ∃ r, w.Routed id r ∧ w.panel.shared? k = some r := by
  have hroutes : w.panel.routesOf (w.panel.roster w.circuits) =
      .ok ((w.panel.roster w.circuits).filterMap w.panel.route?) := by
    refine w.panel.routesOf_eq_ok _ ?_
    rintro ⟨id, c⟩ hid r hr
    exact (w.atHome_iff.mp h) id r ⟨c, (w.mem_roster_iff_onPanel id c).mp hid, hr⟩
  refine ⟨_, congrArg (Except.map RouteMap.mk) hroutes, fun id k => ?_⟩
  rw [Panel.routeOf_eq_some_iff]
  constructor
  · rintro ⟨c, r, hc, hr, hk⟩
    exact ⟨r, ⟨c, (w.mem_roster_iff_onPanel id c).mp hc, hr⟩,
      (Panel.idOf?_eq_some_iff hw.conduits hw.bundles r k).mp hk⟩
  · rintro ⟨r, ⟨c, hc, hr⟩, hk⟩
    exact ⟨c, r, (w.mem_roster_iff_onPanel id c).mpr hc, hr,
      (Panel.idOf?_eq_some_iff hw.conduits hw.bundles r k).mpr hk⟩

/-! ## What brings a circuit of the panel elsewhere -/

def Accepts (w : Installation) (a : Action) : Prop := ∃ r, (w.step a).reply = .ok r

/-- Whether an action sends a circuit of the panel through a raceway of the panel: through a bundle,
or through a conduit while the circuit has one set. -/
def Sends (w : Installation) (a : Action) (id : Nat) (k : RacewayId) : Prop :=
  w.Accepts a ∧ ∃ c, w.OnPanel id c ∧
    match k with
    | .conduit q =>
      a = .change (.panel id) (.route (.sharedConduit (some (.panel q)))) ∧ c.spread.sets = 1
    | .bundle q => a = .change (.panel id) (.route (.sharedBundle (some (.panel q))))

/-- Whether an action redirects a circuit of the panel: asks it to go anywhere, takes it from the
panel or gives it another number of sets, more than one. -/
def Redirects (w : Installation) (a : Action) (id : Nat) : Prop :=
  w.Accepts a ∧ ∃ c, w.OnPanel id c ∧
    ((∃ t, a = .change (.panel id) (.route t)) ∨ a = .removeCircuit id ∨
      ∃ n, a = .change (.panel id) (.setSets n) ∧ n ≠ c.spread.sets ∧ 1 < n)

/-- Whether a circuit of the panel is headed for a shared raceway of the panel by an action: it is
sent there, or runs there and is not redirected. -/
def HeadsFor (w : Installation) (a : Action) (id : Nat) (r : SharedRaceway) : Prop :=
  (∃ k, w.Sends a id k ∧ w.panel.shared? k = some r) ∨ w.Routed id r ∧ ¬ w.Redirects a id

end Installation

/-- Whether a raceway is named that is not on the panel. -/
def Target.isForeign : Target Place → Bool
  | sharedConduit (some (.loose _)) | sharedBundle (some (.loose _)) => true
  | _ => false

namespace Installation

variable {w v : Installation}

/-- Circuits of the panel get into no raceways but those of the panel, and no circuit is added to
the panel that is in a shared raceway. -/
def Orderly (w : Installation) : Action → Prop
  | .change (.panel id) (.route t) =>
    t.isForeign → ∀ r, ¬ (w.step (.change (.panel id) (.route t))).after.Routed id r
  | .addCircuit slot =>
    ∀ n c r, w.circuitAt (.loose slot) = .ok n → w.circuit? n = some c → c.routing ≠ .shared r
  | _ => True

/-- What is done to one circuit leaves the circuits at other places on the panel alone. -/
theorem onPanel_iff_of_other (hw : Seated w) {p : Place} {n : Nat} (hn : w.circuitAt p = .ok n)
    {id : Nat} (hid : .panel id ≠ p)
    (hseats : ∀ m, v.circuitAt (.panel id) = .ok m ↔ w.circuitAt (.panel id) = .ok m)
    (hcircuits : ∀ m, m ≠ n → v.circuit? m = w.circuit? m) (c : Circuit) :
    v.OnPanel id c ↔ w.OnPanel id c := by
  unfold OnPanel
  refine exists_congr fun m => ?_
  rw [hseats]
  refine and_congr_right fun hm => ?_
  have hne : m ≠ n := fun he => hid (hw.apart hm (he ▸ hn))
  rw [hcircuits m hne]

theorem routed_congr {id : Nat} (h : ∀ c, v.OnPanel id c ↔ w.OnPanel id c) (r : SharedRaceway) :
    v.Routed id r ↔ w.Routed id r :=
  exists_congr fun c => and_congr_left fun _ => h c

theorem OnPanel.routed_iff {id : Nat} {c : Circuit} (hc : w.OnPanel id c) (r : SharedRaceway) :
    w.Routed id r ↔ c.routing = .shared r := by
  constructor
  · rintro ⟨d, hd, hr⟩
    rwa [hc.unique hd]
  · exact fun hr => ⟨c, hc, hr⟩

theorem OnPanel.sends_change_iff {id : Nat} {c : Circuit} (hc : w.OnPanel id c)
    {ch : Change Place} (ha : w.Accepts (.change (.panel id) ch)) (r : SharedRaceway) :
    (∃ k, w.Sends (.change (.panel id) ch) id k ∧ w.panel.shared? k = some r) ↔
      (∃ q, ch = .route (.sharedConduit (some (.panel q))) ∧ c.spread.sets = 1 ∧
        w.panel.shared? (.conduit q) = some r) ∨
      ∃ q, ch = .route (.sharedBundle (some (.panel q))) ∧
        w.panel.shared? (.bundle q) = some r := by
  constructor
  · rintro ⟨k, ⟨-, d, hd, hk⟩, hr⟩
    cases hc.unique hd
    cases k with
    | conduit q =>
      obtain ⟨he, hsets⟩ := hk
      cases he
      exact Or.inl ⟨q, rfl, hsets, hr⟩
    | bundle q =>
      cases hk
      exact Or.inr ⟨q, rfl, hr⟩
  · rintro (⟨q, rfl, hsets, hr⟩ | ⟨q, rfl, hr⟩)
    · exact ⟨.conduit q, ⟨ha, c, hc, rfl, hsets⟩, hr⟩
    · exact ⟨.bundle q, ⟨ha, c, hc, rfl⟩, hr⟩

theorem OnPanel.redirects_change_iff {id : Nat} {c : Circuit} (hc : w.OnPanel id c)
    {ch : Change Place} (ha : w.Accepts (.change (.panel id) ch)) :
    w.Redirects (.change (.panel id) ch) id ↔
      (∃ t, ch = .route t) ∨ ∃ n, ch = .setSets n ∧ n ≠ c.spread.sets ∧ 1 < n := by
  constructor
  · rintro ⟨-, d, hd, ⟨t, he⟩ | he | ⟨n, he, hn⟩⟩
    · cases he
      exact Or.inl ⟨t, rfl⟩
    · cases he
    · cases he
      cases hc.unique hd
      exact Or.inr ⟨n, rfl, hn⟩
  · rintro (⟨t, rfl⟩ | ⟨n, rfl, hn⟩)
    · exact ⟨ha, c, hc, Or.inl ⟨t, rfl⟩⟩
    · exact ⟨ha, c, hc, Or.inr (Or.inr ⟨n, rfl, hn⟩)⟩

/-- A circuit that is asked to go somewhere comes into a shared raceway only if it is sent through
one of the panel, foreign ones aside. -/
theorem destination_eq_shared_iff {t : Target Place} {u : Target Nat}
    (hu : w.findTarget t = .ok u) {sets : Nat} (hpos : 0 < sets) {r : SharedRaceway}
    (hforeign : t.isForeign → u.destination sets ≠ .shared r) :
    u.destination sets = .shared r ↔
      (∃ q, t = .sharedConduit (some (.panel q)) ∧ sets = 1 ∧
        w.panel.shared? (.conduit q) = some r) ∨
      ∃ q, t = .sharedBundle (some (.panel q)) ∧ w.panel.shared? (.bundle q) = some r := by
  rcases t with _ | _ | _ | ⟨_ | ⟨q | q⟩⟩ | ⟨_ | ⟨q | q⟩⟩
  case sharedConduit.some.panel =>
    cases hq : w.panel.conduits[q]? with
    | none => simp [findTarget, conduitAt, hq, Except.map] at hu
    | some n =>
      simp only [findTarget, conduitAt, hq, Except.map, Except.ok.injEq] at hu
      subst hu
      by_cases hn : 1 < sets
      · have hne : sets ≠ 1 := by omega
        simp [Target.destination, Target.routingFor, hn, hne]
      · have hone : sets = 1 := by omega
        simp [Target.destination, Target.routingFor, hone, Panel.shared?, hq]
  case sharedBundle.some.panel =>
    cases hq : w.panel.bundles[q]? with
    | none => simp [findTarget, bundleAt, hq, Except.map] at hu
    | some n =>
      simp only [findTarget, bundleAt, hq, Except.map, Except.ok.injEq] at hu
      subst hu
      simp [Target.destination, Target.routingFor, Panel.shared?, hq]
  case sharedConduit.some.loose => simp [hforeign rfl]
  case sharedBundle.some.loose => simp [hforeign rfl]
  all_goals
    cases hu
    simp [Target.destination, Target.routingFor]

/-- Where a circuit of the panel runs after a change of its own. -/
theorem OnPanel.routing_change_iff {id : Nat} {c : Circuit} (hc : w.OnPanel id c)
    (hpos : 0 < c.spread.sets) {ch : Change Place} {d : Change Nat} (hd : w.findChange ch = .ok d)
    (ha : w.Accepts (.change (.panel id) ch)) {r : SharedRaceway}
    (hforeign : ∀ t, ch = .route t → t.isForeign →
      (Job.apply d ⟨c, w.site, []⟩).circuit.routing ≠ .shared r) :
    (Job.apply d ⟨c, w.site, []⟩).circuit.routing = .shared r ↔
      w.HeadsFor (.change (.panel id) ch) id r := by
  unfold HeadsFor
  rw [hc.sends_change_iff ha, hc.redirects_change_iff ha, hc.routed_iff]
  have hrouting := Job.routing_meet (.change d) ⟨c, w.site, []⟩
  change (Job.apply d ⟨c, w.site, []⟩).circuit.routing = _ at hrouting
  rw [hrouting] at hforeign ⊢
  cases ch with
  | route t =>
    cases hu : w.findTarget t with
    | error e => simp [findChange, hu, Except.map] at hd
    | ok u =>
      simp only [findChange, hu, Except.map, Except.ok.injEq] at hd
      subst hd
      have hdest := destination_eq_shared_iff hu hpos (hforeign t rfl)
      simpa [Occurrence.attempt?, Attempt.destination] using hdest
  | setSets n =>
    cases hd
    simp only [Occurrence.attempt?]
    by_cases hn : n ≠ c.spread.sets ∧ 1 < n
    · cases hr : c.routing <;> simp [hn, Routing.shared?, Attempt.destination]
    · simp [hn]
  | _ =>
    cases hd
    simp [Occurrence.attempt?]

/-! ## One action -/

theorem accepts_of_attempt {a : Action} {e : Effect} (h : w.attempt a = .ok e) : w.Accepts a :=
  ⟨e.reply, by rw [step, h]⟩

theorem not_accepts_of_attempt {a : Action} {e : Refusal} (h : w.attempt a = .error e) :
    ¬ w.Accepts a := by
  rintro ⟨r, hr⟩
  rw [step, h] at hr
  cases hr

/-- A route that is neither sent nor redirected stays. -/
theorem routed_iff_of_stays {a : Action} {id : Nat} {r : SharedRaceway}
    (h : v.Routed id r ↔ w.Routed id r) (hs : ∀ k, ¬ w.Sends a id k) (hr : ¬ w.Redirects a id) :
    v.Routed id r ↔ w.HeadsFor a id r := by
  rw [h]
  constructor
  · exact fun h => Or.inr ⟨h, hr⟩
  · rintro (⟨k, hk, -⟩ | ⟨h, -⟩)
    · exact absurd hk (hs k)
    · exact h

/-- What is sent is changed. -/
theorem Sends.exists_change {a : Action} {id : Nat} {k : RacewayId} (h : w.Sends a id k) :
    ∃ c, a = .change (.panel id) c := by
  obtain ⟨-, c, -, hk⟩ := h
  cases k with
  | conduit q => exact ⟨_, hk.1⟩
  | bundle q => exact ⟨_, hk⟩

/-- What is redirected is changed or taken from the panel. -/
theorem Redirects.exists_change {a : Action} {id : Nat} (h : w.Redirects a id) :
    (∃ c, a = .change (.panel id) c) ∨ a = .removeCircuit id := by
  obtain ⟨-, c, -, ⟨t, ha⟩ | ha | ⟨n, ha, -⟩⟩ := h
  · exact Or.inl ⟨_, ha⟩
  · exact Or.inr ha
  · exact Or.inl ⟨_, ha⟩

/-- Actions of other kinds than changes and removals leave all routes alone. -/
theorem routed_iff_of_quiet {a : Action} (ha : a.reroutes = false) {id : Nat} {r : SharedRaceway}
    (h : v.Routed id r ↔ w.Routed id r) : v.Routed id r ↔ w.HeadsFor a id r := by
  refine routed_iff_of_stays h (fun k hk => ?_) fun hr => ?_
  · obtain ⟨c, rfl⟩ := hk.exists_change
    cases ha
  · rcases hr.exists_change with ⟨c, rfl⟩ | rfl <;> cases ha

theorem reroutes_of_on? {a : Action} (h : a.on? = none) : a.reroutes = false := by
  cases a <;> cases h <;> rfl

theorem routed_make {load : Load} {nonlinear : Bool} {q : Place} (hw : Seated w)
    (hseats : ∀ p m, v.circuitAt p = .ok m ↔
      p = q ∧ m = w.circuits.length ∨ w.circuitAt p = .ok m)
    (hcircuits : v.circuits = w.circuits ++ [some (Circuit.create load nonlinear w.site).circuit])
    (id : Nat) (r : SharedRaceway) : v.Routed id r ↔ w.Routed id r := by
  have hnew := replaced_append w.circuits (Circuit.create load nonlinear w.site).circuit
  rw [← hcircuits] at hnew
  constructor
  · rintro ⟨c, ⟨n, hn, hc⟩, hr⟩
    rcases (hseats _ n).mp hn with ⟨-, rfl⟩ | hn
    · cases hnew.self.symm.trans hc
      rw [Circuit.routing_create] at hr
      cases hr
    · have hold := hnew.other n (Nat.ne_of_lt (hw.lt hn))
      exact ⟨c, ⟨n, hn, hold.symm.trans hc⟩, hr⟩
  · rintro ⟨c, ⟨n, hn, hc⟩, hr⟩
    have hold := hnew.other n (Nat.ne_of_lt (hw.lt hn))
    exact ⟨c, ⟨n, (hseats _ n).mpr (Or.inr hn), hold.trans hc⟩, hr⟩

theorem routed_add {slot i n : Nat} (hn : w.circuitAt (.loose slot) = .ok n)
    (hseats : ∀ p m, v.circuitAt p = .ok m ↔
      p = .panel i ∧ m = n ∨ p ≠ .loose slot ∧ w.circuitAt p = .ok m)
    (hcircuits : ∀ m, v.circuit? m = w.circuit? m) (ho : w.Orderly (.addCircuit slot)) (id : Nat)
    (r : SharedRaceway) : v.Routed id r ↔ w.Routed id r := by
  constructor
  · rintro ⟨c, ⟨m, hm, hc⟩, hr⟩
    rw [hcircuits] at hc
    rcases (hseats _ m).mp hm with ⟨-, rfl⟩ | ⟨-, hm⟩
    · exact absurd hr (ho m c r hn hc)
    · exact ⟨c, ⟨m, hm, hc⟩, hr⟩
  · rintro ⟨c, ⟨m, hm, hc⟩, hr⟩
    have hplace : Place.panel id ≠ .loose slot := nofun
    exact ⟨c, ⟨m, (hseats _ m).mpr (Or.inr ⟨hplace, hm⟩), (hcircuits m).trans hc⟩, hr⟩

theorem routed_modify {n : Nat} {f : Circuit → Circuit} (hf : ∀ c, (f c).routing = c.routing)
    (hseats : ∀ p, v.circuitAt p = w.circuitAt p)
    (hcircuits : ∀ m, v.circuit? m = if m = n then (w.circuit? n).map f else w.circuit? m)
    (id : Nat) (r : SharedRaceway) : v.Routed id r ↔ w.Routed id r := by
  have hcircuit : ∀ m, (v.circuit? m).map Circuit.routing = (w.circuit? m).map Circuit.routing := by
    intro m
    rw [hcircuits]
    split
    · rename_i hm
      rw [hm]
      cases w.circuit? n with
      | none => rfl
      | some c => exact congrArg some (hf c)
    · rfl
  have hrouted : ∀ u : Installation, u.Routed id r ↔ ∃ m, u.circuitAt (.panel id) = .ok m ∧
      (u.circuit? m).map Circuit.routing = some (.shared r) := by
    intro u
    constructor
    · rintro ⟨c, ⟨m, hm, hc⟩, hr⟩
      exact ⟨m, hm, by rw [hc, ← hr]; rfl⟩
    · rintro ⟨m, hm, hc⟩
      obtain ⟨c, hc, hr⟩ := Option.map_eq_some_iff.mp hc
      exact ⟨c, ⟨m, hm, hc⟩, hr⟩
  rw [hrouted, hrouted]
  refine exists_congr fun m => ?_
  rw [hseats, hcircuit]

theorem routed_remove {i slot n : Nat} {f : Circuit → Circuit} (hw : Seated w)
    (ha : w.Accepts (.removeCircuit i)) (hn : w.circuitAt (.panel i) = .ok n)
    (hseats : ∀ p m, v.circuitAt p = .ok m ↔
      p = .loose slot ∧ m = n ∨ p ≠ .panel i ∧ w.circuitAt p = .ok m)
    (hcircuits : ∀ m, v.circuit? m = if m = n then (w.circuit? n).map f else w.circuit? m)
    (id : Nat) (r : SharedRaceway) : v.Routed id r ↔ w.HeadsFor (.removeCircuit i) id r := by
  by_cases hid : id = i
  · subst hid
    obtain ⟨c, hc⟩ := hw.live hn
    have hredirects : w.Redirects (.removeCircuit id) id :=
      ⟨ha, c, ⟨n, hn, hc⟩, Or.inr (Or.inl rfl)⟩
    constructor
    · rintro ⟨c, ⟨m, hm, -⟩, -⟩
      rcases (hseats _ m).mp hm with ⟨he, -⟩ | ⟨hne, -⟩
      · cases he
      · exact absurd rfl hne
    · rintro (⟨k, hk, -⟩ | ⟨-, hnot⟩)
      · obtain ⟨c, he⟩ := hk.exists_change
        cases he
      · exact absurd hredirects hnot
  · have hplace : Place.panel id ≠ .panel i := fun he => hid (Place.panel.inj he)
    refine routed_iff_of_stays (routed_congr ?_ r) (fun k hk => ?_) fun hr => ?_
    · refine onPanel_iff_of_other hw hn hplace (fun m => ?_) fun m hm => ?_
      · rw [hseats]
        simp [hplace]
      · rw [hcircuits, if_neg hm]
    · obtain ⟨c, he⟩ := hk.exists_change
      cases he
    · rcases hr.exists_change with ⟨c, he⟩ | he
      · cases he
      · cases he
        exact hid rfl

theorem routed_change {p : Place} {ch : Change Place} {n : Nat} {d : Change Nat} (hw : Seated w)
    (hpos : ∀ {id c}, w.OnPanel id c → 0 < c.spread.sets) (ha : w.Accepts (.change p ch))
    (ho : w.Orderly (.change p ch)) (hv : (w.step (.change p ch)).after = v)
    (hd : w.findChange ch = .ok d) (hn : w.circuitAt p = .ok n)
    (hseats : ∀ p, v.circuitAt p = w.circuitAt p)
    (hcircuits : ∀ m, v.circuit? m =
      if m = n then (w.circuit? n).map fun c => (Job.apply d ⟨c, w.site, []⟩).circuit
      else w.circuit? m)
    (id : Nat) (r : SharedRaceway) : v.Routed id r ↔ w.HeadsFor (.change p ch) id r := by
  by_cases hp : .panel id = p
  · subst hp
    obtain ⟨c, hc⟩ := hw.live hn
    have hon : w.OnPanel id c := ⟨n, hn, hc⟩
    have hafter : v.OnPanel id (Job.apply d ⟨c, w.site, []⟩).circuit := by
      refine ⟨n, (hseats _).trans hn, ?_⟩
      rw [hcircuits, if_pos rfl, hc]
      rfl
    rw [hafter.routed_iff]
    refine hon.routing_change_iff (hpos hon) hd ha ?_
    rintro t rfl hforeign hr
    have hnot := ho hforeign r
    rw [hv] at hnot
    exact hnot ⟨_, hafter, hr⟩
  · refine routed_iff_of_stays (routed_congr ?_ r) (fun k hk => ?_) fun hr => ?_
    · exact onPanel_iff_of_other hw hn hp (fun m => by rw [hseats]) fun m hm => by
        rw [hcircuits, if_neg hm]
    · obtain ⟨c, he⟩ := hk.exists_change
      cases he
      exact hp rfl
    · rcases hr.exists_change with ⟨c, he⟩ | he
      · cases he
        exact hp rfl
      · cases he

/-- After an action that is not refused a circuit of the panel runs where it was headed for. -/
theorem routed_of_motion (hw : Seated w) (hpos : ∀ {id c}, w.OnPanel id c → 0 < c.spread.sets)
    {a : Action} (ha : w.Accepts a) (ho : w.Orderly a) (hv : (w.step a).after = v)
    (hm : Motion w a v) (id : Nat) (r : SharedRaceway) : v.Routed id r ↔ w.HeadsFor a id r := by
  cases hm with
  | still hon hseats hcircuits =>
    refine routed_iff_of_quiet (reroutes_of_on? hon) (routed_congr (fun c => ?_) r)
    exact exists_congr fun n => by rw [hseats, hcircuits]
  | make load nonlinear q hseats hcircuits =>
    exact routed_iff_of_quiet rfl (routed_make hw hseats hcircuits id r)
  | add i n hn hseats hcircuits =>
    exact routed_iff_of_quiet rfl (routed_add hn hseats hcircuits ho id r)
  | remove slot n hn hseats hcircuits =>
    exact routed_remove hw ha hn hseats hcircuits id r
  | @drop slot _ _ _ n hn hseats hcircuits =>
    have hplace : Place.panel id ≠ .loose slot := nofun
    refine routed_iff_of_quiet rfl (routed_congr ?_ r)
    refine onPanel_iff_of_other hw hn hplace (fun m => ?_) hcircuits
    rw [hseats]
    simp
  | change n d hd hn hseats hcircuits =>
    exact routed_change hw hpos ha ho hv hd hn hseats hcircuits id r
  | modify p n f hother hn hf hseats hcircuits =>
    exact routed_iff_of_quiet hother (routed_modify hf hseats hcircuits id r)

/-- The same for any action, refused or not. -/
theorem routed_step (hw : Seated w) (hpos : ∀ {id c}, w.OnPanel id c → 0 < c.spread.sets)
    {a : Action} (ho : w.Orderly a) (id : Nat) (r : SharedRaceway) :
    (w.step a).after.Routed id r ↔ w.HeadsFor a id r := by
  cases he : w.attempt a with
  | error e =>
    have hacc := not_accepts_of_attempt he
    have hafter : (w.step a).after = w := by rw [step, he]
    rw [hafter]
    exact routed_iff_of_stays Iff.rfl (fun k hk => hacc hk.1) fun hr => hacc hr.1
  | ok e =>
    have hafter : (w.step a).after = e.after := by rw [step, he]
    rw [hafter]
    exact routed_of_motion hw hpos (accepts_of_attempt he) ho hafter (motion_of_attempt w a e he)
      id r

/-! ## The raceways of the panel keep their ids -/

theorem shared?_of_step {k : RacewayId} {r : SharedRaceway} (h : w.panel.shared? k = some r)
    (a : Action) : (w.step a).after.panel.shared? k = some r := by
  cases he : w.attempt a with
  | error e => rwa [step, he]
  | ok e =>
    rw [step, he]
    cases a with
    | newConduit spec inPanel =>
      cases he
      cases inPanel with
      | false => exact h
      | true => exact Panel.shared?_of_grown h rfl (List.append_nil _).symm
    | newBundle distance inPanel =>
      cases he
      cases inPanel with
      | false => exact h
      | true => exact Panel.shared?_of_grown h (List.append_nil _).symm rfl
    | _ =>
      have hcharts := charts_of_attempt w _ e he (fun _ _ h => by cases h) (fun _ _ h => by cases h)
      simp only [charts, Prod.mk.injEq] at hcharts
      obtain ⟨⟨hc, -⟩, hb, -⟩ := hcharts
      exact Panel.shared?_of_grown h (hc.trans (List.append_nil _).symm)
        (hb.trans (List.append_nil _).symm)

/-- A raceway of the panel keeps its id and gets no other. -/
theorem shared?_step_iff (hw : Charted w) {r : SharedRaceway} (hr : w.panel.Owns r) (a : Action)
    (k : RacewayId) : (w.step a).after.panel.shared? k = some r ↔ w.panel.shared? k = some r := by
  constructor
  · intro hk
    obtain ⟨l, hl⟩ := w.panel.exists_shared?_of_owns hr
    have hv := hw.step a
    have hkr := (Panel.idOf?_eq_some_iff hv.conduits hv.bundles r k).mpr hk
    have hlr := (Panel.idOf?_eq_some_iff hv.conduits hv.bundles r l).mpr (shared?_of_step hl a)
    rw [hkr] at hlr
    cases hlr
    exact hl
  · exact fun hk => shared?_of_step hk a

/-! ## Runs -/

/-- What the installation is to have come to if it went through the scenes: the circuits of the
panel are at home, and run where they were last sent. -/
structure Follows (w : Installation) (scenes : List (Installation × Action)) : Prop where
  home : w.AtHome
  route : ∀ id k, (∃ r, w.Routed id r ∧ w.panel.shared? k = some r) ↔
    Since (fun s => s.1.Sends s.2 id k) (fun s => ¬ s.1.Redirects s.2 id) scenes

theorem Sends.exists_shared? {a : Action} {id : Nat} {k : RacewayId} (h : w.Sends a id k) :
    ∃ r, w.panel.shared? k = some r := by
  obtain ⟨⟨reply, hreply⟩, c, -, hk⟩ := h
  cases k with
  | conduit q =>
    obtain ⟨rfl, -⟩ := hk
    cases hq : w.panel.conduits[q]? with
    | some n => exact ⟨.conduit n, by simp [Panel.shared?, hq]⟩
    | none => simp [step, attempt, findChange, findTarget, conduitAt, hq, Except.map, bind,
        Except.bind] at hreply
  | bundle q =>
    subst hk
    cases hq : w.panel.bundles[q]? with
    | some n => exact ⟨.bundle n, by simp [Panel.shared?, hq]⟩
    | none => simp [step, attempt, findChange, findTarget, bundleAt, hq, Except.map, bind,
        Except.bind] at hreply

theorem Follows.step {scenes : List (Installation × Action)} (h : Follows w scenes)
    (hc : Charted w) (hw : Seated w) (hpos : ∀ {id c}, w.OnPanel id c → 0 < c.spread.sets)
    {a : Action} (ho : w.Orderly a) : Follows (w.step a).after (scenes ++ [(w, a)]) := by
  have hrouted := routed_step hw hpos ho
  have howns : ∀ id r, (w.step a).after.Routed id r → w.panel.Owns r := by
    intro id r hr
    rcases (hrouted id r).mp hr with ⟨k, -, hk⟩ | ⟨hr, -⟩
    · exact Panel.owns_of_shared? hk
    · exact w.atHome_iff.mp h.home id r hr
  constructor
  · rw [atHome_iff]
    intro id r hr
    obtain ⟨k, hk⟩ := w.panel.exists_shared?_of_owns (howns id r hr)
    exact Panel.owns_of_shared? (shared?_of_step hk a)
  · intro id k
    rw [Since.append_iff, ← h.route]
    constructor
    · rintro ⟨r, hr, hk⟩
      have hold := (shared?_step_iff hc (howns id r hr) a k).mp hk
      rcases (hrouted id r).mp hr with ⟨l, hl, hlr⟩ | ⟨hr, hnot⟩
      · have hkr := (Panel.idOf?_eq_some_iff hc.conduits hc.bundles r k).mpr hold
        have hlr := (Panel.idOf?_eq_some_iff hc.conduits hc.bundles r l).mpr hlr
        rw [hkr] at hlr
        cases hlr
        exact Or.inl hl
      · exact Or.inr ⟨⟨r, hr, hold⟩, hnot⟩
    · rintro (hsend | ⟨⟨r, hr, hk⟩, hnot⟩)
      · obtain ⟨r, hk⟩ := hsend.exists_shared?
        exact ⟨r, (hrouted id r).mpr (Or.inl ⟨k, hsend, hk⟩), shared?_of_step hk a⟩
      · exact ⟨r, (hrouted id r).mpr (Or.inr ⟨hr, hnot⟩), shared?_of_step hk a⟩

theorem follows_empty : Follows {} [] := by
  have hnone : ∀ id r, ¬ Routed {} id r := by
    rintro id r ⟨c, ⟨n, hn, -⟩, -⟩
    cases hn
  constructor
  · rw [atHome_iff]
    exact fun id r hr => absurd hr (hnone id r)
  · intro id k
    refine iff_of_false ?_ Since.not_nil
    rintro ⟨r, hr, -⟩
    exact hnone id r hr

theorem follows_run (actions : List Action)
    (ho : ∀ s ∈ scenes {} actions, s.1.Orderly s.2) :
    Follows (run {} actions) (scenes {} actions) := by
  induction actions using List.reverseRecOn with
  | nil => exact follows_empty
  | append_singleton past a ih =>
    rw [scenes_append] at ho ⊢
    rw [run_append]
    have hpast := ih fun s hs => ho s (List.mem_append_left _ hs)
    have hpos : ∀ {id c}, (run {} past).OnPanel id c → 0 < c.spread.sets := by
      rintro id c ⟨n, -, hc⟩
      exact (lived_of_run past n c hc).shaped.even.sets_pos
    exact hpast.step (charted_run past) (seated_run past) hpos
      (ho _ (List.mem_append_right _ List.mem_cons_self))

/-- **Routes follow history.** In a run in which circuits of the panel get into shared raceways only
by being sent through those of the panel, the route map can be made at any time. It has a circuit
run through the raceway that it was last sent through, if the circuit was not redirected since, and
otherwise through none. -/
theorem routes_follow_history (actions : List Action)
    (ho : ∀ s ∈ scenes {} actions, s.1.Orderly s.2) (past : List Action)
    (hpast : past <+: actions) :
    ∃ m, (run {} past).routeMap = .ok m ∧ ∀ id k,
      m.routeOf id = some k ↔
        Since (fun s => s.1.Sends s.2 id k) (fun s => ¬ s.1.Redirects s.2 id) (scenes {} past) := by
  obtain ⟨rest, rfl⟩ := hpast
  rw [scenes_append] at ho
  have hfollows := follows_run past fun s hs => ho s (List.mem_append_left _ hs)
  obtain ⟨m, hm, hroute⟩ := routeMap_of_atHome (charted_run past) hfollows.home
  exact ⟨m, hm, fun id k => (hroute id k).trans (hfollows.route id k)⟩

/-- Of two circuits of a panel the first is sent through the conduit. The second has two sets and is
refused there, so it goes through the bundle. Then the first gets three sets and has to leave. -/
def handover : List Action :=
  let load : Load := { system := .ln120, ampacity := 16, verdict := some true }
  [.newConduit {} true, .newBundle 0 true, .newCircuit load false true, .newCircuit load false true,
    .change (.panel 0) (.route (.sharedConduit (some (.panel 0)))),
    .change (.panel 1) (.setSets 2),
    .change (.panel 1) (.route (.sharedConduit (some (.panel 0)))),
    .change (.panel 1) (.route (.sharedBundle (some (.panel 0)))),
    .change (.panel 0) (.setSets 3)]

theorem routes_after_handover :
    (∀ s ∈ scenes {} handover, s.1.Orderly s.2) ∧ handover <+: handover ∧
      (run {} handover).routeMap = .ok ⟨[(1, .bundle 0)]⟩ ∧
      Since (fun s => s.1.Sends s.2 1 (.bundle 0)) (fun s => ¬ s.1.Redirects s.2 1)
        (scenes {} handover) ∧
      ∀ k, ¬ Since (fun s => s.1.Sends s.2 0 k) (fun s => ¬ s.1.Redirects s.2 0)
        (scenes {} handover) := by
  have ho : ∀ s ∈ scenes {} handover, s.1.Orderly s.2 := by
    rintro ⟨w, a⟩ hs
    have ha : a ∈ handover := mem_of_mem_scenes hs
    simp only [handover, List.mem_cons, List.not_mem_nil, or_false] at ha
    rcases ha with rfl | rfl | rfl | rfl | rfl | rfl | rfl | rfl | rfl
    all_goals first | trivial | exact nofun
  have hmap : (run {} handover).routeMap = .ok ⟨[(1, .bundle 0)]⟩ := by rfl
  obtain ⟨m, hm, hroute⟩ := routes_follow_history handover ho handover List.prefix_rfl
  rw [hmap] at hm
  cases hm
  refine ⟨ho, List.prefix_rfl, hmap, (hroute 1 (.bundle 0)).mp rfl, fun k hk => ?_⟩
  cases (hroute 0 k).mpr hk

end Installation

end Raceways
