import Raceways.Ascending
import Raceways.Ledger.Message

/-!
Ledgers: numbered texts, at most one per number. The first text recorded under a number stays
until the number is removed.
-/

namespace Raceways

structure Ledger where
  entries : Ascending (fun e : Int × String => e.1)
  deriving BEq, DecidableEq

namespace Ledger

def empty : Ledger := ⟨Ascending.empty⟩

instance : Inhabited Ledger := ⟨empty⟩

/-- The numbers and texts recorded, in order of number. -/
def toList (l : Ledger) : List (Int × String) := l.entries.toList

def size (l : Ledger) : Nat := l.entries.size

def isEmpty (l : Ledger) : Bool := l.entries.isEmpty

def add (n : Int) (text : String) (l : Ledger) : Ledger := ⟨l.entries.putNew (n, text)⟩

def remove (n : Int) (l : Ledger) : Ledger := ⟨l.entries.erase n⟩

def record (m : Message) (l : Ledger) : Ledger := l.add m.number m.text

def retract (m : Message) (l : Ledger) : Ledger := l.remove m.number

def retractAll (ms : List Message) (l : Ledger) : Ledger :=
  ms.foldl (fun l m => l.retract m) l

def has (l : Ledger) (n : Int) : Bool := l.entries.contains n

def holds (l : Ledger) (m : Message) : Bool := l.has m.number

def text? (l : Ledger) (n : Int) : Option String := (l.entries.find? n).map Prod.snd

def ofSeverity (l : Ledger) (s : Severity) : List (Int × String) :=
  l.toList.filter (fun e => Severity.ofNumber e.1 = s)

def hasErrors (l : Ledger) : Bool := l.toList.any (fun e => e.1 < 0)

def hasWarnings (l : Ledger) : Bool := l.toList.any (fun e => 0 < e.1)

@[simp] theorem text?_empty (k : Int) : empty.text? k = none := rfl

theorem has_eq_isSome_text? (l : Ledger) (k : Int) : l.has k = (l.text? k).isSome := by
  simp [has, text?, Ascending.contains_eq_isSome_find?]

theorem text?_add (l : Ledger) (n : Int) (t : String) (k : Int) :
    (l.add n t).text? k = if n = k then (l.text? k).or (some t) else l.text? k := by
  unfold add text?
  rw [Ascending.find?_putNew]
  by_cases h : n = k
  · cases l.entries.find? k <;> simp [h]
  · simp [h]

theorem text?_remove (l : Ledger) (n k : Int) :
    (l.remove n).text? k = if k = n then none else l.text? k := by
  unfold remove text?
  rw [Ascending.find?_erase]
  by_cases h : k = n <;> simp [h]

theorem text?_retractAll (ms : List Message) (l : Ledger) (k : Int) :
    (l.retractAll ms).text? k
      = if ∃ m ∈ ms, m.number = k then none else l.text? k := by
  unfold retractAll
  induction ms generalizing l with
  | nil => simp
  | cons m rest ih =>
    rw [List.foldl_cons, ih, retract, text?_remove]
    by_cases hr : ∃ x ∈ rest, x.number = k
    · simp [hr]
    · by_cases hm : m.number = k
      · simp [hm]
      · simp [hm, Ne.symm hm]

/-- A ledger is known by its texts. -/
theorem ext_text? {a b : Ledger} (h : ∀ k, a.text? k = b.text? k) : a = b := by
  have he : a.entries = b.entries := Ascending.ext_find? fun k => by
    have hk := h k
    unfold text? at hk
    cases ha : a.entries.find? k with
    | none =>
      cases hb : b.entries.find? k with
      | none => rfl
      | some y => simp [ha, hb] at hk
    | some x =>
      cases hb : b.entries.find? k with
      | none => simp [ha, hb] at hk
      | some y =>
        have hx := Ascending.key_of_find? ha
        have hy := Ascending.key_of_find? hb
        simp only [ha, hb, Option.map_some, Option.some.injEq] at hk
        exact congrArg some (Prod.ext (hx.trans hy.symm) hk)
  cases a
  cases b
  exact congrArg Ledger.mk he

end Ledger

end Raceways
