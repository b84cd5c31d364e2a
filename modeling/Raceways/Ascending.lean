/-!
Finite collections in ascending order of a key, at most one element per key. An element is
looked up by its key, and two collections that answer every look-up alike are equal, whatever
they were built by.
-/

namespace Raceways

structure Ascending {α : Type} (key : α → Int) where
  toList : List α
  ascending : toList.Pairwise (fun a b => key a < key b)

namespace Ascending

variable {α : Type} {key : α → Int}

instance [BEq α] : BEq (Ascending key) := ⟨fun a b => a.toList == b.toList⟩

instance [DecidableEq α] : DecidableEq (Ascending key) := fun a b =>
  decidable_of_iff (a.toList = b.toList) (by cases a; cases b; simp)

def empty : Ascending key := ⟨[], List.Pairwise.nil⟩

instance : Inhabited (Ascending key) := ⟨empty⟩

def size (m : Ascending key) : Nat := m.toList.length

def isEmpty (m : Ascending key) : Bool := m.toList.isEmpty

def find? (m : Ascending key) (k : Int) : Option α := m.toList.find? (fun a => key a = k)

def contains (m : Ascending key) (k : Int) : Bool := m.toList.any (fun a => key a = k)

/-- Puts an element where it belongs, in place of the one with its key. -/
def place (key : α → Int) (a : α) : List α → List α
  | [] => [a]
  | b :: rest =>
    if key a < key b then a :: b :: rest
    else if key a = key b then a :: rest
    else b :: place key a rest

theorem mem_place {a x : α} : ∀ {l : List α}, x ∈ place key a l → x = a ∨ x ∈ l
  | [], h => by simpa [place] using h
  | b :: rest, h => by
    unfold place at h
    split at h
    · simpa using h
    · split at h
      · rcases List.mem_cons.mp h with h | h
        · exact .inl h
        · exact .inr (List.mem_cons_of_mem b h)
      · rcases List.mem_cons.mp h with h | h
        · exact .inr (h ▸ List.mem_cons_self)
        · exact (mem_place h).imp_right (List.mem_cons_of_mem b)

theorem place_pairwise (a : α) : ∀ {l : List α},
    l.Pairwise (fun a b => key a < key b) →
      (place key a l).Pairwise (fun a b => key a < key b)
  | [], _ => by simp [place]
  | b :: rest, h => by
    obtain ⟨hb, hrest⟩ := List.pairwise_cons.mp h
    unfold place
    split
    · rename_i hab
      refine List.pairwise_cons.mpr ⟨fun x hx => ?_, h⟩
      rcases List.mem_cons.mp hx with rfl | hx
      · exact hab
      · exact Int.lt_trans hab (hb x hx)
    · split
      · rename_i hab
        exact List.pairwise_cons.mpr ⟨fun x hx => hab ▸ hb x hx, hrest⟩
      · refine List.pairwise_cons.mpr ⟨fun x hx => ?_, place_pairwise a hrest⟩
        rcases mem_place hx with rfl | hx
        · omega
        · exact hb x hx

/-- Adds an element, in place of the one with its key if there is one. -/
def put (a : α) (m : Ascending key) : Ascending key :=
  ⟨place key a m.toList, place_pairwise a m.ascending⟩

/-- Adds an element unless one with its key is there. -/
def putNew (a : α) (m : Ascending key) : Ascending key :=
  if m.contains (key a) then m else m.put a

def erase (k : Int) (m : Ascending key) : Ascending key :=
  ⟨m.toList.filter (fun a => key a ≠ k), m.ascending.filter _⟩

def putAll (l : List α) (m : Ascending key) : Ascending key :=
  l.foldl (fun m a => m.put a) m

/-- Removes the elements with the keys of the given ones. -/
def eraseAll (l : List α) (m : Ascending key) : Ascending key :=
  l.foldl (fun m a => m.erase (key a)) m

@[simp] theorem find?_empty (k : Int) : (empty : Ascending key).find? k = none := rfl

theorem contains_eq_isSome_find? (m : Ascending key) (k : Int) :
    m.contains k = (m.find? k).isSome := by
  simp [contains, find?, List.isSome_find?]

theorem find?_place (a : α) (k : Int) : ∀ {l : List α},
    l.Pairwise (fun a b => key a < key b) →
      (place key a l).find? (fun b => key b = k)
        = if key a = k then some a else l.find? (fun b => key b = k)
  | [], _ => by by_cases h : key a = k <;> simp [place, h]
  | b :: rest, h => by
    obtain ⟨hb, hrest⟩ := List.pairwise_cons.mp h
    unfold place
    split
    · by_cases ha : key a = k <;> simp [List.find?_cons, ha]
    · split
      · rename_i hab
        by_cases ha : key a = k
        · simp [ha]
        · have hbk : key b ≠ k := fun hbk => ha (hab.trans hbk)
          simp [ha, hbk]
      · rename_i hlt hne
        rw [List.find?_cons, List.find?_cons, find?_place a k hrest]
        by_cases hbk : key b = k
        · have ha : key a ≠ k := fun ha => hne (ha.trans hbk.symm)
          simp [hbk, ha]
        · simp [hbk]

theorem find?_put (a : α) (m : Ascending key) (k : Int) :
    (m.put a).find? k = if key a = k then some a else m.find? k :=
  find?_place a k m.ascending

theorem find?_putNew (a : α) (m : Ascending key) (k : Int) :
    (m.putNew a).find? k = if key a = k then (m.find? k).or (some a) else m.find? k := by
  unfold putNew
  rw [contains_eq_isSome_find?]
  by_cases h : key a = k
  · subst h
    cases hm : m.find? (key a) <;> simp [hm, find?_put]
  · cases hm : m.find? (key a) <;> simp [h, find?_put]

theorem find?_erase (j : Int) (m : Ascending key) (k : Int) :
    (m.erase j).find? k = if k = j then none else m.find? k := by
  unfold erase find?
  rw [List.find?_filter]
  by_cases h : k = j
  · subst h
    simp
  · rw [if_neg h]
    congr 1
    funext a
    by_cases ha : key a = k <;> simp [ha, h]

/-- Of the elements put in, the last one with the key is found. -/
theorem find?_putAll (l : List α) (m : Ascending key) (k : Int) :
    (m.putAll l).find? k = (l.reverse.find? (fun a => key a = k)).or (m.find? k) := by
  unfold putAll
  induction l generalizing m with
  | nil => simp
  | cons a rest ih =>
    rw [List.foldl_cons, ih, find?_put, List.reverse_cons, List.find?_append]
    by_cases ha : key a = k <;> simp [ha]

theorem find?_eraseAll (l : List α) (m : Ascending key) (k : Int) :
    (m.eraseAll l).find? k = if ∃ a ∈ l, key a = k then none else m.find? k := by
  unfold eraseAll
  induction l generalizing m with
  | nil => simp
  | cons a rest ih =>
    rw [List.foldl_cons, ih, find?_erase]
    by_cases hr : ∃ b ∈ rest, key b = k
    · simp [hr]
    · by_cases ha : key a = k
      · simp [ha]
      · simp [ha, Ne.symm ha]

theorem key_of_find? {m : Ascending key} {k : Int} {a : α} (h : m.find? k = some a) :
    key a = k := by
  simpa using List.find?_some h

private theorem find?_of_mem {a : α} : ∀ {l : List α},
    l.Pairwise (fun a b => key a < key b) → a ∈ l → l.find? (fun b => key b = key a) = some a
  | [], _, ha => by cases ha
  | b :: rest, h, ha => by
    obtain ⟨hb, hrest⟩ := List.pairwise_cons.mp h
    rcases List.mem_cons.mp ha with rfl | ha
    · simp
    · have hne : key b ≠ key a := Int.ne_of_lt (hb a ha)
      simpa [List.find?_cons, hne] using find?_of_mem hrest ha

theorem mem_iff_find? {m : Ascending key} {a : α} :
    a ∈ m.toList ↔ m.find? (key a) = some a :=
  ⟨find?_of_mem m.ascending, List.mem_of_find?_eq_some⟩

private theorem eq_of_mem_iff : ∀ {l m : List α},
    l.Pairwise (fun a b => key a < key b) → m.Pairwise (fun a b => key a < key b) →
      (∀ a, a ∈ l ↔ a ∈ m) → l = m
  | [], [], _, _, _ => rfl
  | [], b :: m, _, _, h => absurd ((h b).mpr List.mem_cons_self) (by simp)
  | a :: l, [], _, _, h => absurd ((h a).mp List.mem_cons_self) (by simp)
  | a :: l, b :: m, hl, hm, h => by
    obtain ⟨ha, hl'⟩ := List.pairwise_cons.mp hl
    obtain ⟨hb, hm'⟩ := List.pairwise_cons.mp hm
    have hab : a = b := by
      rcases List.mem_cons.mp ((h a).mp List.mem_cons_self) with hab | ham
      · exact hab
      · rcases List.mem_cons.mp ((h b).mpr List.mem_cons_self) with hba | hbl
        · exact hba.symm
        · have h1 := ha b hbl
          have h2 := hb a ham
          omega
    subst hab
    refine congrArg (a :: ·) (eq_of_mem_iff hl' hm' fun x => ⟨fun hx => ?_, fun hx => ?_⟩)
    · rcases List.mem_cons.mp ((h x).mp (List.mem_cons_of_mem a hx)) with rfl | hx'
      · exact absurd (ha x hx) (Int.lt_irrefl _)
      · exact hx'
    · rcases List.mem_cons.mp ((h x).mpr (List.mem_cons_of_mem a hx)) with rfl | hx'
      · exact absurd (hb x hx) (Int.lt_irrefl _)
      · exact hx'

/-- A collection is known by its members. -/
theorem ext_mem {l m : Ascending key} (h : ∀ a, a ∈ l.toList ↔ a ∈ m.toList) : l = m := by
  have hmem : l.toList = m.toList := eq_of_mem_iff l.ascending m.ascending h
  cases l
  cases m
  cases hmem
  rfl

/-- A collection is known by its look-ups. -/
theorem ext_find? {l m : Ascending key} (h : ∀ k, l.find? k = m.find? k) : l = m :=
  ext_mem fun a => by rw [mem_iff_find?, mem_iff_find?, h]

end Ascending

end Raceways
