import Raceways.Installation.Action

/-!
What an action can come to. Places are forgotten: an action leaves everything as it is, makes a
circuit, lets one thing happen to one circuit, takes one down, or alters the site alone.
-/

namespace Raceways

/-- What can happen to a circuit while it stands. -/
inductive Occurrence where
  | change (c : Change Nat)
  | poke (f : Load → Load)
  | editConduit (e : ConduitEdit)
  | setDistance (distance : Float)
  | overwrite (k : Conduit) (b : Bundle)

namespace Occurrence

def overwrites : Occurrence → Bool
  | overwrite _ _ => true
  | _ => false

/-- The shared raceway that the circuit is asked to go to. -/
def goal? : Occurrence → Option SharedRaceway
  | change (.route (.sharedConduit (some n))) => some (.conduit n)
  | change (.route (.sharedBundle (some n))) => some (.bundle n)
  | _ => none

end Occurrence

namespace Job

def meet (o : Occurrence) (j : Job) : Job :=
  match o with
  | .change c => j.apply c
  | .poke f => { j with circuit.load := f j.circuit.load }
  | .editConduit e => { j with circuit.conduit := j.circuit.conduit.edit e }
  | .setDistance d => { j with circuit.bundle.distance := d }
  | .overwrite k b =>
    { j with
      circuit.conduit := k
      circuit.bundle := b }

end Job

namespace Action

/-- Whether an action puts another value in place of a whole raceway. -/
def overwrites : Action → Bool
  | replacePrivateConduit _ _ | replaceConduit _ _ | replaceBundle _ _ | copyConduit _ _
  | copyBundle _ _ | overwriteConduit _ _ | overwriteBundle _ _ | overwritePrivate _ _ _ => true
  | _ => false

/-- The place of the circuit that an action is an operation on. -/
def on? : Action → Option Place
  | removeCircuit id => some (.panel id)
  | dropCircuit slot _ _ => some (.loose slot)
  | change p _ | pokeLoad p _ | editPrivateConduit p _ | replacePrivateConduit p _
  | setPrivateDistance p _ | overwritePrivate p _ _ => some p
  | _ => none

/-- What happens to a circuit by an action that changes it by itself, its site aside. -/
def aside? : Action → Option (Circuit → Occurrence)
  | pokeLoad _ f => some fun _ => .poke f
  | editPrivateConduit _ e => some fun _ => .editConduit e
  | replacePrivateConduit _ spec => some fun c => .overwrite { toConduitSpec := spec } c.bundle
  | setPrivateDistance _ distance => some fun _ => .setDistance distance
  | overwritePrivate _ k b => some fun _ => .overwrite k b
  | _ => none

variable {a : Action} {o : Circuit → Occurrence}

theorem overwrites_of_aside? (h : a.aside? = some o) (c : Circuit) :
    (o c).overwrites = a.overwrites := by
  cases a <;> cases h <;> rfl

theorem goal?_of_aside? (h : a.aside? = some o) (c : Circuit) : (o c).goal? = none := by
  cases a <;> cases h <;> rfl

theorem eq_pokeLoad_of_aside? (h : a.aside? = some o) {p : Place} (hon : a.on? = some p)
    {c : Circuit} {f : Load → Load} (hf : o c = .poke f) : a = .pokeLoad p f := by
  cases a <;> cases h <;> cases hf
  cases hon
  rfl

end Action

namespace Site

/-- What can happen to a site when nothing happens to a circuit. The flag allows raceways to be
overwritten. -/
inductive Altered (s : Site) (overwriting : Bool) : Site → Prop
  | newConduit (spec : ConduitSpec) :
      Altered s overwriting { s with conduits := s.conduits ++ [{ toConduitSpec := spec }] }
  | newBundle (distance : Float) :
      Altered s overwriting { s with bundles := s.bundles ++ [{ distance := distance }] }
  | issue (n : Nat) : Altered s overwriting (s.issue n)
  | edit (n : Nat) (e : ConduitEdit) :
      Altered s overwriting (s.updateConduit n (Conduit.edit e))
  | setDistance (n : Nat) (distance : Option Float) :
      Altered s overwriting
        (s.updateBundle n fun b => { b with distance := distance.getD b.distance })
  | overwriteConduit (h : overwriting = true) (n : Nat) (f : Conduit → Conduit) :
      Altered s overwriting (s.updateConduit n f)
  | overwriteBundle (h : overwriting = true) (n : Nat) (f : Bundle → Bundle) :
      Altered s overwriting (s.updateBundle n f)

end Site

namespace Installation

/-- The shared raceways that can be named by a place. -/
def Knows (w : Installation) : SharedRaceway → Prop
  | .conduit n => n ∈ w.panel.conduits ∨ n ∈ w.looseConduits
  | .bundle n => n ∈ w.panel.bundles ∨ n ∈ w.looseBundles

/-- The items that an action leaves behind in a shared raceway: those of a circuit that runs through
it and is taken down while someone holds it. -/
def leftBy (w : Installation) (a : Action) (r : SharedRaceway) : List Item :=
  match a with
  | .dropCircuit slot k b =>
    match w.findHeld k b, w.circuitAt (.loose slot) with
    | .ok held, .ok n =>
      match w.circuit? n with
      | some c => if c.routing = .shared r ∧ r ∈ held then c.items else []
      | none => []
    | _, _ => []
  | _ => []

theorem leftBy_dropCircuit {w : Installation} {slot n : Nat} {k b : Option Place}
    {held : List SharedRaceway} (hheld : w.findHeld k b = .ok held)
    (hn : w.circuitAt (.loose slot) = .ok n) (r : SharedRaceway) :
    w.leftBy (.dropCircuit slot k b) r =
      match w.circuit? n with
      | some c => if c.routing = .shared r ∧ r ∈ held then c.items else []
      | none => [] := by
  simp only [leftBy, hheld, hn]

theorem leftBy_of_aside? {w : Installation} {a : Action} {o : Circuit → Occurrence}
    (h : a.aside? = some o) (r : SharedRaceway) : w.leftBy a r = [] := by
  cases a <;> cases h <;> rfl

/-- What an action comes to on the site and for the circuits. Only a circuit that is taken down
leaves items behind, and only a poke changes a load without the circuit's knowing. -/
inductive Turn (w : Installation) (a : Action) : Site → List (Option Circuit) → Prop
  | rest (hleft : ∀ r, w.leftBy a r = []) : Turn w a w.site w.circuits
  | build (load : Load) (nonlinear : Bool) (hon : a.on? = none) :
      Turn w a (Circuit.create load nonlinear w.site).site
        (w.circuits ++ [some (Circuit.create load nonlinear w.site).circuit])
  | alter (s : Site) (hon : a.on? = none) (hs : w.site.Altered a.overwrites s) :
      Turn w a s w.circuits
  | work (p : Place) (n : Nat) (c : Circuit) (o : Occurrence) (hon : a.on? = some p)
      (hn : w.circuitAt p = .ok n) (hc : w.circuit? n = some c)
      (ho : o.overwrites = true → a.overwrites = true)
      (hgoal : ∀ r, o.goal? = some r → w.Knows r) (hleft : ∀ r, w.leftBy a r = [])
      (hpoke : ∀ f, o = .poke f → a = .pokeLoad p f) :
      Turn w a (Job.meet o ⟨c, w.site, []⟩).site
        (w.circuits.set n (some (Job.meet o ⟨c, w.site, []⟩).circuit))
  | takeDown (slot : Nat) (k b : Option Place) (held : List SharedRaceway) (n : Nat)
      (c : Circuit) (ha : a = .dropCircuit slot k b) (hheld : w.findHeld k b = .ok held)
      (hn : w.circuitAt (.loose slot) = .ok n) (hc : w.circuit? n = some c) :
      Turn w a (c.dismantle held w.site).1 (w.circuits.set n none)

theorem bind_eq_ok_iff {ε α β : Type} (x : Except ε α) (f : α → Except ε β) (b : β) :
    (x >>= f) = .ok b ↔ ∃ a, x = .ok a ∧ f a = .ok b := by
  cases x with
  | error e => simp [bind, Except.bind]
  | ok a => simp [bind, Except.bind]

theorem knows_of_conduitAt {w : Installation} {p : Place} {n : Nat} (h : w.conduitAt p = .ok n) :
    w.Knows (.conduit n) := by
  cases p with
  | panel id =>
    cases hk : w.panel.conduits[id]? with
    | none => simp [conduitAt, hk] at h
    | some k =>
      simp only [conduitAt, hk, Except.ok.injEq] at h
      exact Or.inl (h ▸ List.mem_of_getElem? hk)
  | loose slot =>
    cases hk : w.looseConduits[slot]? with
    | none => simp [conduitAt, hk] at h
    | some k =>
      simp only [conduitAt, hk, Except.ok.injEq] at h
      exact Or.inr (h ▸ List.mem_of_getElem? hk)

theorem knows_of_bundleAt {w : Installation} {p : Place} {n : Nat} (h : w.bundleAt p = .ok n) :
    w.Knows (.bundle n) := by
  cases p with
  | panel id =>
    cases hk : w.panel.bundles[id]? with
    | none => simp [bundleAt, hk] at h
    | some k =>
      simp only [bundleAt, hk, Except.ok.injEq] at h
      exact Or.inl (h ▸ List.mem_of_getElem? hk)
  | loose slot =>
    cases hk : w.looseBundles[slot]? with
    | none => simp [bundleAt, hk] at h
    | some k =>
      simp only [bundleAt, hk, Except.ok.injEq] at h
      exact Or.inr (h ▸ List.mem_of_getElem? hk)

/-- A change that was found leads only to raceways that are known. -/
theorem knows_of_findChange {w : Installation} {c : Change Place} {d : Change Nat}
    (h : w.findChange c = .ok d) (r : SharedRaceway)
    (hr : (Occurrence.change d).goal? = some r) : w.Knows r := by
  cases c with
  | route t =>
    cases t with
    | sharedConduit name =>
      cases name with
      | none => cases h; cases hr
      | some p =>
        cases hn : w.conduitAt p with
        | error e => simp [findChange, findTarget, hn, Except.map] at h
        | ok n =>
          simp only [findChange, findTarget, hn, Except.map, Except.ok.injEq] at h
          cases h
          cases hr
          exact knows_of_conduitAt hn
    | sharedBundle name =>
      cases name with
      | none => cases h; cases hr
      | some p =>
        cases hn : w.bundleAt p with
        | error e => simp [findChange, findTarget, hn, Except.map] at h
        | ok n =>
          simp only [findChange, findTarget, hn, Except.map, Except.ok.injEq] at h
          cases h
          cases hr
          exact knows_of_bundleAt hn
    | _ => cases h; cases hr
  | _ => cases h; cases hr

/-- Work on a circuit that is found is something that happens to it. -/
theorem turn_of_work (w v : Installation) (a : Action) (p : Place) (n : Nat) (f : Job → Job)
    (o : Circuit → Occurrence) (hv : v.site = w.site) (hvc : v.circuits = w.circuits)
    (hon : a.on? = some p) (hn : w.circuitAt p = .ok n)
    (hf : ∀ c, f ⟨c, w.site, []⟩ = Job.meet (o c) ⟨c, w.site, []⟩)
    (ho : ∀ c, (o c).overwrites = true → a.overwrites = true)
    (hgoal : ∀ c r, (o c).goal? = some r → w.Knows r) (hleft : ∀ r, w.leftBy a r = [])
    (hpoke : ∀ c g, o c = .poke g → a = .pokeLoad p g) :
    Turn w a (v.work n f).after.site (v.work n f).after.circuits := by
  unfold work circuit?
  rw [hvc]
  cases hc : w.circuits[n]?.join with
  | none =>
    dsimp only
    rw [hv, hvc]
    exact .rest hleft
  | some c =>
    dsimp only
    rw [hv, hf c]
    exact .work p n c (o c) hon hn hc (ho c) (hgoal c) hleft (hpoke c)

/-- An action that changes one circuit by itself is something that happens to it. -/
theorem turn_modifyCircuit {w : Installation} {a : Action} {p : Place} {n : Nat}
    {f : Circuit → Circuit} {o : Circuit → Occurrence} (ho : a.aside? = some o)
    (hon : a.on? = some p) (hn : w.circuitAt p = .ok n)
    (hf : ∀ c, ⟨f c, w.site, []⟩ = Job.meet (o c) ⟨c, w.site, []⟩) :
    Turn w a (w.modifyCircuit n f).after.site (w.modifyCircuit n f).after.circuits := by
  refine turn_of_work w w a p n _ o rfl rfl hon hn hf (fun c hc => ?_) (fun c r hr => ?_)
    (leftBy_of_aside? ho) fun _ _ => Action.eq_pokeLoad_of_aside? ho hon
  · rwa [← Action.overwrites_of_aside? ho c]
  · rw [Action.goal?_of_aside? ho] at hr
    cases hr

/-- An action that makes a change to one circuit is that change happening to it. -/
theorem turn_apply {w v : Installation} {a : Action} {p : Place} {n : Nat} (d : Change Nat)
    (hv : v.site = w.site) (hvc : v.circuits = w.circuits) (hon : a.on? = some p)
    (hn : w.circuitAt p = .ok n) (hleft : ∀ r, w.leftBy a r = [])
    (hgoal : ∀ r, (Occurrence.change d).goal? = some r → w.Knows r) :
    Turn w a (v.work n (Job.apply d)).after.site (v.work n (Job.apply d)).after.circuits :=
  turn_of_work w v a p n _ (fun _ => .change d) hv hvc hon hn (fun _ => rfl) (fun _ => nofun)
    (fun _ => hgoal) hleft (fun _ _ => nofun)

/-- Once a place is found, an action comes to what follows for the number that is there. -/
theorem turn_of_lookup {w : Installation} {a : Action} {e : Effect} {x : Except Refusal Nat}
    {f : Nat → Effect} (h : (x >>= fun n => pure (f n)) = .ok e)
    (hf : ∀ n, x = .ok n → Turn w a (f n).after.site (f n).after.circuits) :
    Turn w a e.after.site e.after.circuits := by
  obtain ⟨n, hn, he⟩ := (bind_eq_ok_iff _ _ _).mp h
  cases he
  exact hf n hn

/-- Every action that is not refused comes to one of the turns. -/
theorem turn_of_attempt (w : Installation) (a : Action) (e : Effect) (h : w.attempt a = .ok e) :
    Turn w a e.after.site e.after.circuits := by
  cases a with
  | newCircuit load nonlinear inPanel =>
    cases h
    cases inPanel <;> exact .build load nonlinear rfl
  | newConduit spec inPanel =>
    cases h
    cases inPanel <;> exact .alter _ rfl (.newConduit spec)
  | newBundle distance inPanel =>
    cases h
    cases inPanel <;> exact .alter _ rfl (.newBundle distance)
  | newItem =>
    cases h
    exact .alter _ rfl (.issue 1)
  | addCircuit slot => exact turn_of_lookup h fun _ _ => .rest fun _ => rfl
  | removeCircuit id =>
    exact turn_of_lookup h fun _ hn =>
      turn_apply (v := { w with panel.circuits := w.panel.circuits.set id none })
        (.route .privateConduit) rfl rfl rfl hn (fun _ => rfl) fun _ => nofun
  | dropCircuit slot k b =>
    obtain ⟨held, hheld, h⟩ := (bind_eq_ok_iff _ _ _).mp h
    refine turn_of_lookup h fun n hn => ?_
    simp only [takeDown, circuit?]
    cases hc : w.circuits[n]?.join with
    | none =>
      refine .rest fun r => ?_
      rw [leftBy_dropCircuit hheld hn, circuit?, hc]
    | some c => exact .takeDown slot k b held n c rfl hheld hn hc
  | change p c =>
    obtain ⟨d, hd, h⟩ := (bind_eq_ok_iff _ _ _).mp h
    exact turn_of_lookup h fun _ hn =>
      turn_apply d rfl rfl rfl hn (fun _ => rfl) (knows_of_findChange hd)
  | pokeLoad | editPrivateConduit | replacePrivateConduit | setPrivateDistance
  | overwritePrivate =>
    exact turn_of_lookup h fun _ hn => turn_modifyCircuit rfl rfl hn fun _ => rfl
  | editConduit p e =>
    exact turn_of_lookup h fun n _ => .alter _ rfl (.edit n e)
  | setDistance p distance =>
    exact turn_of_lookup h fun n _ => .alter _ rfl (.setDistance n distance)
  | copyConduit source target =>
    obtain ⟨k, _, h⟩ := (bind_eq_ok_iff _ _ _).mp h
    exact turn_of_lookup h fun n _ => .alter _ rfl (.overwriteConduit rfl n _)
  | copyBundle source target =>
    obtain ⟨k, _, h⟩ := (bind_eq_ok_iff _ _ _).mp h
    exact turn_of_lookup h fun n _ => .alter _ rfl (.overwriteBundle rfl n _)
  | replaceConduit | overwriteConduit =>
    exact turn_of_lookup h fun n _ => .alter _ rfl (.overwriteConduit rfl n _)
  | replaceBundle | overwriteBundle =>
    exact turn_of_lookup h fun n _ => .alter _ rfl (.overwriteBundle rfl n _)

/-- An action that is refused leaves nothing behind. -/
theorem leftBy_of_refused {w : Installation} {a : Action} {e : Refusal}
    (h : w.attempt a = .error e) (r : SharedRaceway) : w.leftBy a r = [] := by
  cases a with
  | dropCircuit slot k b =>
    simp only [leftBy]
    split
    · rename_i held n hheld hn
      simp [attempt, hheld, hn, bind, Except.bind, pure, Except.pure] at h
    · rfl
  | _ => rfl

/-- What any action comes to, refused or not. -/
theorem turn_of_step (w : Installation) (a : Action) :
    Turn w a (w.step a).after.site (w.step a).after.circuits := by
  unfold step
  cases h : w.attempt a with
  | error r => exact .rest (leftBy_of_refused h)
  | ok e => exact turn_of_attempt w a e h

theorem run_cons (w : Installation) (a : Action) (actions : List Action) :
    w.run (a :: actions) = (w.step a).after.run actions := rfl

theorem run_append (w : Installation) (before after : List Action) :
    w.run (before ++ after) = (w.run before).run after :=
  List.foldl_append

/-- What every action keeps, every run keeps. -/
theorem run_induction {P : Installation → Prop} (hstep : ∀ w a, P w → P (w.step a).after)
    (w : Installation) (actions : List Action) (hw : P w) : P (w.run actions) := by
  induction actions generalizing w with
  | nil => exact hw
  | cons a actions ih =>
    rw [run_cons]
    exact ih _ (hstep w a hw)

/-! ## Circuits by their numbers -/

theorem lt_of_join_eq_some {cs : List (Option Circuit)} {n : Nat} {c : Circuit}
    (h : cs[n]?.join = some c) : n < cs.length := by
  rcases Nat.lt_or_ge n cs.length with hlt | hge
  · exact hlt
  · rw [List.getElem?_eq_none hge] at h
    cases h

theorem join_set_self {cs : List (Option Circuit)} {n : Nat} {c : Circuit}
    (h : cs[n]?.join = some c) (x : Option Circuit) : (cs.set n x)[n]?.join = x := by
  simp [List.getElem?_set_self (lt_of_join_eq_some h)]

theorem join_set_of_ne (cs : List (Option Circuit)) {m n : Nat} (h : n ≠ m) (x : Option Circuit) :
    (cs.set n x)[m]?.join = cs[m]?.join := by
  rw [List.getElem?_set_ne h]

/-- In the second list one circuit is new, and the others are those of the first list. -/
structure Replaced (n : Nat) (c : Circuit) (cs cs' : List (Option Circuit)) : Prop where
  self : cs'[n]?.join = some c
  other : ∀ m, m ≠ n → cs'[m]?.join = cs[m]?.join

theorem replaced_set {cs : List (Option Circuit)} {n : Nat} {c : Circuit}
    (h : cs[n]?.join = some c) (d : Circuit) : Replaced n d cs (cs.set n (some d)) :=
  ⟨join_set_self h _, fun _ hm => join_set_of_ne cs (Ne.symm hm) _⟩

theorem replaced_append (cs : List (Option Circuit)) (c : Circuit) :
    Replaced cs.length c cs (cs ++ [some c]) := by
  refine ⟨by simp, fun m hm => ?_⟩
  rcases Nat.lt_or_gt_of_ne hm with hlt | hgt
  · rw [List.getElem?_append_left hlt]
  · rw [List.getElem?_eq_none (by simp; omega), List.getElem?_eq_none (by omega)]

/-- A circuit of the second list is the new one or one of the first list. -/
theorem Replaced.eq_or {n m : Nat} {c d : Circuit} {cs cs' : List (Option Circuit)}
    (h : Replaced n c cs cs') (hd : cs'[m]?.join = some d) :
    m = n ∧ d = c ∨ m ≠ n ∧ cs[m]?.join = some d := by
  by_cases hm : m = n
  · subst hm
    rw [h.self] at hd
    exact Or.inl ⟨rfl, (Option.some.inj hd).symm⟩
  · rw [h.other m hm] at hd
    exact Or.inr ⟨hm, hd⟩

/-- A circuit that is still there after another was taken down was there before. -/
theorem join_set_none_eq_some {cs : List (Option Circuit)} {n m : Nat} {d : Circuit}
    (h : (cs.set n none)[m]?.join = some d) : m ≠ n ∧ cs[m]?.join = some d := by
  by_cases hm : n = m
  · subst hm
    have hlt : n < cs.length := by simpa using lt_of_join_eq_some h
    simp [List.getElem?_set_self hlt] at h
  · rw [join_set_of_ne cs hm] at h
    exact ⟨Ne.symm hm, h⟩

end Installation

end Raceways
