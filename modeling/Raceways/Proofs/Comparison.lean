import Raceways.Raceway.Fill

/-!
Comparison by `==`. Items are compared by what is said of them, and their diameters as numbers: a
cable without a diameter differs from itself, and zero has no sign. Items that compare equal have
one id and one area nevertheless, and contents that compare equal are filled alike.
-/

namespace Raceways

/-! ## Doubles -/

namespace Double

open Float.Model UnpackedFloat

/-- What compares equal is equal, zeros of either sign apart. -/
theorem eq_of_compare {x y : UnpackedFloat} (h : x.compare y = some .eq) :
    x = y ∨ ∃ s t, x = .zero s ∧ y = .zero t := by
  cases x with
  | notANumber => cases h
  | infinity s =>
    cases s <;> rcases y with (_ | _) | _ | _ | ⟨_ | _, _⟩ <;> cases h <;> exact Or.inl rfl
  | zero s =>
    rcases y with (_ | _) | _ | t | ⟨_ | _, _⟩
    case zero => exact Or.inr ⟨s, t, rfl, rfl⟩
    all_goals cases h
  | finite s m e hm =>
    rcases y with (_ | _) | _ | _ | ⟨t, n, d, hn⟩
    case finite =>
      have hsign : s = t := by cases s <;> cases t <;> first | rfl | cases h
      subst hsign
      have hparts : (compare e d).then (compare m n) = .eq := by
        cases s with
        | positive => exact Option.some.inj h
        | negative => exact Ordering.swap_eq_eq.mp (Option.some.inj h)
      obtain ⟨he, hm⟩ := Ordering.then_eq_eq.mp hparts
      obtain rfl := Int.compare_eq_eq.mp he
      obtain rfl := Nat.compare_eq_eq.mp hm
      exact Or.inl rfl
    all_goals cases s <;> cases h

theorem unpack_of_beq {a b : Float} (h : a == b) :
    a.toModel.unpack = b.toModel.unpack ∨
      ∃ s t, a.toModel.unpack = .zero s ∧ b.toModel.unpack = .zero t :=
  eq_of_compare (eq_of_beq h)

theorem mul_congr_right (x : Float) {a b : Float} (h : a.toModel.unpack = b.toModel.unpack) :
    x * a = x * b := by
  change Float.ofModel (pack (UnpackedFloat.mul Format.binary64 x.toModel.unpack a.toModel.unpack))
    = Float.ofModel (pack (UnpackedFloat.mul Format.binary64 x.toModel.unpack b.toModel.unpack))
  rw [h]

theorem mul_mul_congr (x : Float) {a b : Float} (h : a.toModel.unpack = b.toModel.unpack) :
    x * a * a = x * b * b := by
  rw [mul_congr_right x h, mul_congr_right _ h]

/-- The sign of a zero is lost when it is squared. -/
theorem pi_mul_zero {a : Float} {s : Sign} (h : a.toModel.unpack = .zero s) :
    Cable.pi * a * a = 0 := by
  have hpos : Cable.pi * 0 * 0 = 0 := by decide
  have hneg : Cable.pi * (-0) * (-0) = 0 := by decide
  cases s with
  | positive => exact (mul_mul_congr _ (h.trans (by rfl))).trans hpos
  | negative => exact (mul_mul_congr _ (h.trans (by rfl))).trans hneg

theorem pi_mul_of_beq {a b : Float} (h : a == b) : Cable.pi * a * a = Cable.pi * b * b := by
  rcases unpack_of_beq h with heq | ⟨s, t, ha, hb⟩
  · exact mul_mul_congr _ heq
  · rw [pi_mul_zero ha, pi_mul_zero hb]

end Double

/-! ## Items -/

namespace Cable

theorem id_of_beq {c d : Cable} (h : c == d) : c.id = d.id := by
  have h' : (c.toCableSpec == d.toCableSpec && c.id == d.id) = true := h
  exact eq_of_beq (Bool.and_eq_true_iff.mp h').2

theorem diameter_of_beq {c d : Cable} (h : c == d) : c.diameter == d.diameter := by
  have h' : ((c.type == d.type && (c.size == d.size && (c.metal == d.metal &&
    (c.diameter == d.diameter && c.conductors == d.conductors)))) && c.id == d.id) = true := h
  simp only [Bool.and_eq_true] at h'
  exact h'.1.2.2.2.1

theorem area_of_beq {c d : Cable} (h : c == d) : c.area = d.area := by
  unfold area
  rw [Double.pi_mul_of_beq (diameter_of_beq h)]

end Cable

namespace Item

theorem id_of_beq {i j : Item} (h : i == j) : i.id = j.id := by
  cases i with
  | conductor c =>
    cases j with
    | conductor d => exact congrArg Conductor.id (eq_of_beq h)
    | cable d => cases h
  | cable c =>
    cases j with
    | conductor d => cases h
    | cable d => exact Cable.id_of_beq h

theorem area_of_beq {i j : Item} (h : i == j) : i.area = j.area := by
  cases i with
  | conductor c =>
    cases j with
    | conductor d => exact congrArg Conductor.area (eq_of_beq h)
    | cable d => cases h
  | cable c =>
    cases j with
    | conductor d => cases h
    | cable d => exact Cable.area_of_beq h

end Item

/-! ## Collections -/

namespace Ascending

variable {α : Type} {key : α → Int}

theorem head_le {a b : α} {l : List α} (hfirst : ∀ c ∈ l, key a < key c) (hb : b ∈ a :: l) :
    key a ≤ key b := by
  rcases List.mem_cons.mp hb with rfl | hb
  · exact Int.le_refl _
  · exact Int.le_of_lt (hfirst b hb)

theorem mem_of_head_lt {a b : α} {l : List α} (hlt : key a < key b) (hb : b ∈ a :: l) : b ∈ l := by
  rcases List.mem_cons.mp hb with rfl | hb
  · exact absurd hlt (Int.lt_irrefl _)
  · exact hb

variable [BEq α]

/-- In ascending order, what compares equal is in the same place. -/
theorem beq_of_pairwise (hkey : ∀ {a b : α}, a == b → key a = key b) : ∀ {l m : List α},
    l.Pairwise (fun a b => key a < key b) → m.Pairwise (fun a b => key a < key b) →
      (∀ a ∈ l, ∃ b ∈ m, a == b) → (∀ b ∈ m, ∃ a ∈ l, a == b) → l == m
  | [], [], _, _, _, _ => rfl
  | [], b :: m, _, _, _, hm => by simpa using hm b
  | a :: l, [], _, _, hl, _ => by simpa using hl a
  | a :: l, b :: m, hal, hbm, hl, hm => by
    obtain ⟨hfirst, hl'⟩ := List.pairwise_cons.mp hal
    obtain ⟨hfirst', hm'⟩ := List.pairwise_cons.mp hbm
    obtain ⟨x, hx, hax⟩ := hl a List.mem_cons_self
    obtain ⟨y, hy, hyb⟩ := hm b List.mem_cons_self
    -- neither first element comes before the other
    have hfirsts : key a = key b := by
      have hbx : key b ≤ key x := head_le hfirst' hx
      have hay : key a ≤ key y := head_le hfirst hy
      have hkx := hkey hax
      have hky := hkey hyb
      omega
    have hab : a == b := by
      rcases List.mem_cons.mp hx with rfl | hx
      · exact hax
      · have hlt : key b < key x := hfirst' x hx
        have hkx := hkey hax
        omega
    have hrest : l == m := by
      refine beq_of_pairwise hkey hl' hm' (fun c hc => ?_) (fun d hd => ?_)
      · obtain ⟨z, hz, hcz⟩ := hl c (List.mem_cons_of_mem a hc)
        have hlt : key b < key z :=
          calc key b = key a := hfirsts.symm
            _ < key c := hfirst c hc
            _ = key z := hkey hcz
        exact ⟨z, mem_of_head_lt hlt hz, hcz⟩
      · obtain ⟨z, hz, hzd⟩ := hm d (List.mem_cons_of_mem b hd)
        have hlt : key a < key z :=
          calc key a = key b := hfirsts
            _ < key d := hfirst' d hd
            _ = key z := (hkey hzd).symm
        exact ⟨z, mem_of_head_lt hlt hz, hzd⟩
    rw [List.cons_beq_cons, hab, hrest, Bool.and_true]

end Ascending

theorem Contents.beq_of_mem {c d : Contents} (h : ∀ i ∈ c.toList, ∃ j ∈ d.toList, i == j)
    (h' : ∀ j ∈ d.toList, ∃ i ∈ c.toList, i == j) : c == d :=
  Ascending.beq_of_pairwise (fun hij => congrArg Int.ofNat (Item.id_of_beq hij)) c.ascending
    d.ascending h h'

theorem Item.map_area_of_beq {l m : List Item} (h : l == m) : l.map area = m.map area := by
  induction l generalizing m with
  | nil =>
    cases m with
    | nil => rfl
    | cons j m => simp at h
  | cons i l ih =>
    cases m with
    | nil => simp at h
    | cons j m =>
      rw [List.cons_beq_cons, Bool.and_eq_true] at h
      rw [List.map_cons, List.map_cons, area_of_beq h.1, ih h.2]

theorem Fill.total_of_beq {c d : Contents} (h : c == d) :
    total Item.area c = total Item.area d := by
  have harea : c.toList.map Item.area = d.toList.map Item.area := Item.map_area_of_beq h
  unfold total
  rw [← List.foldl_map (f := Item.area) (g := (· + ·)), harea, List.foldl_map]

end Raceways
