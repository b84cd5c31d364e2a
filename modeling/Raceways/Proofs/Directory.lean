import Raceways.Proofs.Interference

/-!
The directories of an installation: the raceways that can be named are there, and the panel names
none twice. Shared raceways are never taken down.
-/

namespace Raceways

namespace Site

/-- The second site has all shared raceways of the first. -/
def Kept (s t : Site) : Prop := ∀ r, (s.contents? r).isSome → (t.contents? r).isSome

theorem isSome_fittings? (s : Site) (r : SharedRaceway) :
    (s.fittings? r).isSome = (s.contents? r).isSome := by
  cases r <;> simp [fittings?, contents?]

theorem Frame.kept {near : SharedRaceway → Prop} {own : Nat → Prop} {s t : Site}
    (h : Frame near own s t) : Kept s t := by
  intro r hr
  rw [← isSome_fittings?, h.fittings r, isSome_fittings?]
  exact hr

theorem isSome_contents?_conduit (s : Site) (n : Nat) :
    (s.contents? (.conduit n)).isSome ↔ n < s.conduits.length := by
  simp [contents?]

theorem isSome_contents?_bundle (s : Site) (n : Nat) :
    (s.contents? (.bundle n)).isSome ↔ n < s.bundles.length := by
  simp [contents?]

theorem kept_of_length_le {s t : Site} (hc : s.conduits.length ≤ t.conduits.length)
    (hb : s.bundles.length ≤ t.bundles.length) : Kept s t := by
  intro r hr
  cases r with
  | conduit n =>
    rw [isSome_contents?_conduit] at hr ⊢
    omega
  | bundle n =>
    rw [isSome_contents?_bundle] at hr ⊢
    omega

theorem Altered.kept {s t : Site} {b : Bool} (h : s.Altered b t) : Kept s t := by
  cases h with
  | newConduit spec => exact kept_of_length_le (by simp) (Nat.le_refl _)
  | newBundle distance => exact kept_of_length_le (Nat.le_refl _) (by simp)
  | issue n => exact kept_of_length_le (Nat.le_refl _) (Nat.le_refl _)
  | edit n e => exact kept_of_length_le (by simp [updateConduit]) (Nat.le_refl _)
  | setDistance n d => exact kept_of_length_le (Nat.le_refl _) (by simp [updateBundle])
  | overwriteConduit _ n f => exact kept_of_length_le (by simp [updateConduit]) (Nat.le_refl _)
  | overwriteBundle _ n f => exact kept_of_length_le (Nat.le_refl _) (by simp [updateBundle])

theorem getElem?_append_new {α : Type} (l : List α) (a : α) (n : Nat) :
    (l ++ [a])[n]? = l[n]? ∨ l[n]? = none ∧ (l ++ [a])[n]? = some a := by
  rcases Nat.lt_trichotomy n l.length with hlt | heq | hgt
  · exact Or.inl (List.getElem?_append_left hlt)
  · exact Or.inr (by simp [heq])
  · refine Or.inl ?_
    rw [List.getElem?_eq_none (by simp; omega), List.getElem?_eq_none (by omega)]

theorem map_getElem?_modify {α β : Type} {f : α → α} {g : α → β} (h : ∀ a, g (f a) = g a)
    (l : List α) (k n : Nat) : ((l.modify k f)[n]?).map g = (l[n]?).map g := by
  rw [List.getElem?_modify]
  cases l[n]? with
  | none => rfl
  | some a =>
    change some (g (if k = n then f a else a)) = some (g a)
    split
    · rw [h a]
    · rfl

theorem contents?_updateConduit {f : Conduit → Conduit} (h : ∀ k, (f k).contents = k.contents)
    (n : Nat) (s : Site) (r : SharedRaceway) :
    (s.updateConduit n f).contents? r = s.contents? r := by
  cases r with
  | conduit m => exact map_getElem?_modify h s.conduits n m
  | bundle m => rfl

theorem contents?_updateBundle {f : Bundle → Bundle} (h : ∀ b, (f b).contents = b.contents)
    (n : Nat) (s : Site) (r : SharedRaceway) :
    (s.updateBundle n f).contents? r = s.contents? r := by
  cases r with
  | conduit m => rfl
  | bundle m => exact map_getElem?_modify h s.bundles n m

/-- Unless raceways are overwritten, only a new one has other contents, and it is empty. -/
theorem Altered.contents? {s t : Site} (h : s.Altered false t) (r : SharedRaceway) :
    t.contents? r = s.contents? r ∨
      s.contents? r = none ∧ t.contents? r = some Ascending.empty := by
  cases h with
  | newConduit spec =>
    cases r with
    | bundle n => exact Or.inl rfl
    | conduit n =>
      rcases getElem?_append_new s.conduits { toConduitSpec := spec } n with h | ⟨h, h'⟩
      · exact Or.inl (congrArg (Option.map _) h)
      · exact Or.inr ⟨congrArg (Option.map _) h, congrArg (Option.map _) h'⟩
  | newBundle distance =>
    cases r with
    | conduit n => exact Or.inl rfl
    | bundle n =>
      rcases getElem?_append_new s.bundles { distance := distance } n with h | ⟨h, h'⟩
      · exact Or.inl (congrArg (Option.map _) h)
      · exact Or.inr ⟨congrArg (Option.map _) h, congrArg (Option.map _) h'⟩
  | issue n => exact Or.inl (contents?_issue s n r)
  | edit n e => exact Or.inl (contents?_updateConduit (by intro; rfl) n s r)
  | setDistance n d => exact Or.inl (contents?_updateBundle (by intro; rfl) n s r)
  | overwriteConduit h _ _ => cases h
  | overwriteBundle h _ _ => cases h

end Site

namespace Circuit

theorem routing_inspectLoad_bare (load : Load) (nonlinear : Bool) (site : Site) :
    (bare load nonlinear site).inspectLoad.circuit.routing = .privateConduit :=
  congrArg (·.2.1) (Job.lodging_inspectLoad (bare load nonlinear site))

/-- A circuit is made in its private conduit. -/
theorem routing_create (load : Load) (nonlinear : Bool) (site : Site) :
    (create load nonlinear site).circuit.routing = .privateConduit := by
  have hreview := Job.lodging_reviewPractice (bare load nonlinear site).inspectLoad.refit
  refine Eq.trans (congrArg (·.2.1) hreview) ?_
  exact (Job.routing_refit _).trans (routing_inspectLoad_bare load nonlinear site)

/-- A circuit that is made touches no shared raceway. -/
theorem frame_create (load : Load) (nonlinear : Bool) (site : Site) :
    Site.Frame (fun _ => False) (fun _ => True) site (create load nonlinear site).site := by
  have hsite : (bare load nonlinear site).inspectLoad.site = site.issue 2 :=
    congrArg (·.1) (Job.lodging_inspectLoad (bare load nonlinear site))
  have hreview : (create load nonlinear site).site =
      (bare load nonlinear site).inspectLoad.refit.site :=
    congrArg (·.1) (Job.lodging_reviewPractice _)
  rw [hreview]
  refine Site.Frame.trans (t := site.issue 2) (.issue _ _ _ _) ?_
  rw [← hsite]
  refine (Job.framed_refit _).mono ?_ fun _ _ => trivial
  rintro r (h | h)
  · rw [routing_inspectLoad_bare] at h
    cases h
  · rw [Job.routing_refit, routing_inspectLoad_bare] at h
    cases h

end Circuit

namespace Installation

theorem Turn.kept {w : Installation} {a : Action} {s : Site} {circuits : List (Option Circuit)}
    (t : Turn w a s circuits) : Site.Kept w.site s := by
  cases t with
  | rest _ => exact fun _ h => h
  | build load nonlinear _ => exact (Circuit.frame_create load nonlinear w.site).kept
  | alter _ _ hs => exact hs.kept
  | work _ _ c o _ _ _ _ _ _ => exact (Job.framed_meet o ⟨c, w.site, []⟩).kept
  | takeDown _ _ _ held _ c _ _ _ _ => exact (Circuit.frame_dismantle held c w.site).kept

/-- What the places of shared raceways stand for: the numbers on the panel and the loose ones. -/
def charts (w : Installation) : (List Nat × List Nat) × List Nat × List Nat :=
  ((w.panel.conduits, w.looseConduits), w.panel.bundles, w.looseBundles)

theorem charts_work (w : Installation) (n : Nat) (f : Job → Job) :
    (w.work n f).after.charts = w.charts := by
  unfold work
  split <;> rfl

theorem charts_takeDown (w : Installation) (n : Nat) (held : List SharedRaceway) :
    (w.takeDown n held).after.charts = w.charts := by
  unfold takeDown
  split <;> rfl

theorem charts_of_lookup {w : Installation} {e : Effect} {x : Except Refusal Nat}
    {f : Nat → Effect} (h : (x >>= fun n => pure (f n)) = .ok e)
    (hf : ∀ n, (f n).after.charts = w.charts) : e.after.charts = w.charts := by
  obtain ⟨n, _, he⟩ := (bind_eq_ok_iff _ _ _).mp h
  cases he
  exact hf n

/-- The directories change only when a raceway is made. -/
theorem charts_of_attempt (w : Installation) (a : Action) (e : Effect) (h : w.attempt a = .ok e)
    (hk : ∀ spec inPanel, a ≠ .newConduit spec inPanel)
    (hb : ∀ distance inPanel, a ≠ .newBundle distance inPanel) : e.after.charts = w.charts := by
  cases a with
  | newCircuit load nonlinear inPanel =>
    cases h
    cases inPanel <;> rfl
  | newConduit spec inPanel => exact absurd rfl (hk spec inPanel)
  | newBundle distance inPanel => exact absurd rfl (hb distance inPanel)
  | newItem =>
    cases h
    rfl
  | addCircuit slot => exact charts_of_lookup h fun _ => rfl
  | removeCircuit id => exact charts_of_lookup h fun _ => charts_work _ _ _
  | dropCircuit slot k b =>
    obtain ⟨held, _, h⟩ := (bind_eq_ok_iff _ _ _).mp h
    exact charts_of_lookup h fun _ => charts_takeDown _ _ _
  | change p c =>
    obtain ⟨d, _, h⟩ := (bind_eq_ok_iff _ _ _).mp h
    exact charts_of_lookup h fun _ => charts_work _ _ _
  | pokeLoad | editPrivateConduit | replacePrivateConduit | setPrivateDistance
  | overwritePrivate => exact charts_of_lookup h fun _ => charts_work _ _ _
  | copyConduit source target | copyBundle source target =>
    obtain ⟨k, _, h⟩ := (bind_eq_ok_iff _ _ _).mp h
    exact charts_of_lookup h fun _ => rfl
  | _ => exact charts_of_lookup h fun _ => rfl

/-! ## The directories are in order -/

structure Charted (w : Installation) : Prop where
  known : ∀ r, w.Knows r → (w.site.contents? r).isSome
  conduits : w.panel.conduits.Nodup
  bundles : w.panel.bundles.Nodup

namespace Charted

theorem empty : Charted {} where
  known r h := by cases r <;> rcases h with h | h <;> cases h
  conduits := List.nodup_nil
  bundles := List.nodup_nil

theorem of_charts_eq {w v : Installation} (h : Charted w) (hc : v.charts = w.charts)
    (hs : Site.Kept w.site v.site) : Charted v := by
  simp only [charts, Prod.mk.injEq] at hc
  obtain ⟨⟨hpc, hlc⟩, hpb, hlb⟩ := hc
  refine ⟨?_, ?_, ?_⟩
  · intro r hr
    refine hs r (h.known r ?_)
    cases r with
    | conduit n =>
      unfold Knows at hr ⊢
      rwa [hpc, hlc] at hr
    | bundle n =>
      unfold Knows at hr ⊢
      rwa [hpb, hlb] at hr
  · rw [hpc]
    exact h.conduits
  · rw [hpb]
    exact h.bundles

/-- A raceway that is made takes a number that no directory has yet. -/
theorem nodup_append_new {l : List Nat} {bound : Nat} (hl : l.Nodup) (h : ∀ n ∈ l, n < bound) :
    (l ++ [bound]).Nodup := by
  rw [List.nodup_append]
  refine ⟨hl, by simp, ?_⟩
  intro n hn m hm
  have hlt := h n hn
  have heq := List.mem_singleton.mp hm
  omega

theorem lt_of_conduit {w : Installation} (h : Charted w) {n : Nat}
    (hn : n ∈ w.panel.conduits ∨ n ∈ w.looseConduits) : n < w.site.conduits.length :=
  (Site.isSome_contents?_conduit w.site n).mp (h.known (.conduit n) hn)

theorem lt_of_bundle {w : Installation} (h : Charted w) {n : Nat}
    (hn : n ∈ w.panel.bundles ∨ n ∈ w.looseBundles) : n < w.site.bundles.length :=
  (Site.isSome_contents?_bundle w.site n).mp (h.known (.bundle n) hn)

theorem knows_addConduit {w : Installation} {k : Conduit} {inPanel : Bool} {r : SharedRaceway}
    (h : (w.addConduit k inPanel).1.Knows r) :
    w.Knows r ∨ r = .conduit w.site.conduits.length := by
  cases inPanel <;> cases r <;> simp [Installation.addConduit, Knows] at h ⊢ <;> grind

theorem knows_addBundle {w : Installation} {b : Bundle} {inPanel : Bool} {r : SharedRaceway}
    (h : (w.addBundle b inPanel).1.Knows r) :
    w.Knows r ∨ r = .bundle w.site.bundles.length := by
  cases inPanel <;> cases r <;> simp [Installation.addBundle, Knows] at h ⊢ <;> grind

theorem addConduit {w : Installation} (h : Charted w) (k : Conduit) (inPanel : Bool) :
    Charted (w.addConduit k inPanel).1 := by
  have hsite : (w.addConduit k inPanel).1.site =
      { w.site with conduits := w.site.conduits ++ [k] } := by
    cases inPanel <;> rfl
  have hkept : Site.Kept w.site (w.addConduit k inPanel).1.site := by
    rw [hsite]
    exact Site.kept_of_length_le (by simp) (Nat.le_refl _)
  refine ⟨?_, ?_, ?_⟩
  · intro r hr
    rcases knows_addConduit hr with hr | rfl
    · exact hkept r (h.known r hr)
    · rw [hsite]
      simp [Site.isSome_contents?_conduit]
  · cases inPanel with
    | false => exact h.conduits
    | true => exact nodup_append_new h.conduits fun n hn => h.lt_of_conduit (Or.inl hn)
  · cases inPanel <;> exact h.bundles

theorem addBundle {w : Installation} (h : Charted w) (b : Bundle) (inPanel : Bool) :
    Charted (w.addBundle b inPanel).1 := by
  have hsite : (w.addBundle b inPanel).1.site =
      { w.site with bundles := w.site.bundles ++ [b] } := by
    cases inPanel <;> rfl
  have hkept : Site.Kept w.site (w.addBundle b inPanel).1.site := by
    rw [hsite]
    exact Site.kept_of_length_le (Nat.le_refl _) (by simp)
  refine ⟨?_, ?_, ?_⟩
  · intro r hr
    rcases knows_addBundle hr with hr | rfl
    · exact hkept r (h.known r hr)
    · rw [hsite]
      simp [Site.isSome_contents?_bundle]
  · cases inPanel <;> exact h.conduits
  · cases inPanel with
    | false => exact h.bundles
    | true => exact nodup_append_new h.bundles fun n hn => h.lt_of_bundle (Or.inl hn)

theorem attempt {w : Installation} (h : Charted w) {a : Action} {e : Effect}
    (he : w.attempt a = .ok e) : Charted e.after := by
  have hkept : Site.Kept w.site e.after.site := (turn_of_attempt w a e he).kept
  cases a with
  | newConduit spec inPanel =>
    cases he
    exact h.addConduit _ _
  | newBundle distance inPanel =>
    cases he
    exact h.addBundle _ _
  | _ =>
    exact h.of_charts_eq
      (charts_of_attempt w _ e he (fun _ _ h => by cases h) (fun _ _ h => by cases h)) hkept

theorem step {w : Installation} (h : Charted w) (a : Action) : Charted (w.step a).after := by
  unfold Installation.step
  cases he : w.attempt a with
  | error r => exact h
  | ok e => exact h.attempt he

end Charted

/-- In every installation that can be come to, the directories are in order. -/
theorem charted_run (actions : List Action) : Charted (run {} actions) :=
  run_induction (P := Charted) (fun _ a h => h.step a) {} actions .empty

end Installation

end Raceways
