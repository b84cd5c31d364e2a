import Mathlib.Data.List.DropRight
import Mathlib.Data.List.Induction
import Mathlib.Data.Set.Card
import Raceways.Proofs.Record

/-!
How a ledger comes about. Of all that is written into a ledger and struck out of it, each number
has its own story: what counts is what was written under it since it was last struck out, and of
that the first text.
-/

namespace Raceways

namespace Severity

theorem ofNumber_eq_error_iff (n : Int) : ofNumber n = error ↔ n < 0 := by
  unfold ofNumber
  split_ifs <;> simp_all

theorem ofNumber_eq_neutral_iff (n : Int) : ofNumber n = neutral ↔ n = 0 := by
  unfold ofNumber
  split_ifs <;> simp <;> omega

theorem ofNumber_eq_warning_iff (n : Int) : ofNumber n = warning ↔ 0 < n := by
  unfold ofNumber
  split_ifs <;> simp <;> omega

end Severity

namespace Ledger

/-- What can be done to a ledger. -/
inductive Edit where
  | add (n : Int) (text : String)
  | record (m : Message)
  | remove (n : Int)
  | retractAll (ms : List Message)
  | clear

namespace Edit

def make (e : Edit) (l : Ledger) : Ledger :=
  match e with
  | add n text => l.add n text
  | record m => l.record m
  | remove n => l.remove n
  | retractAll ms => l.retractAll ms
  | clear => empty

/-- The text that an edit has for a number. -/
def text? (k : Int) : Edit → Option String
  | add n text => if n = k then some text else none
  | record m => if m.number = k then some m.text else none
  | _ => none

/-- Whether an edit strikes a number out. -/
def strikes (k : Int) : Edit → Bool
  | remove n => n = k
  | retractAll ms => ms.any (fun m => m.number = k)
  | clear => true
  | _ => false

/-- A number that is struck out has no text, and one that has a text keeps it. -/
theorem text?_make (e : Edit) (l : Ledger) (k : Int) :
    (e.make l).text? k = if e.strikes k then none else (l.text? k).or (e.text? k) := by
  cases e with
  | add n text =>
    change (l.add n text).text? k = (l.text? k).or (if n = k then some text else none)
    rw [text?_add]
    split <;> simp
  | record m =>
    change (l.add m.number m.text).text? k =
      (l.text? k).or (if m.number = k then some m.text else none)
    rw [text?_add]
    split <;> simp
  | remove n =>
    change (l.remove n).text? k = _
    rw [text?_remove]
    by_cases h : k = n
    · simp [strikes, h]
    · simp [strikes, text?, h, Ne.symm h]
  | retractAll ms =>
    change (l.retractAll ms).text? k = _
    rw [text?_retractAll]
    by_cases h : ∃ m ∈ ms, m.number = k
    · simp [strikes, h]
    · simp [strikes, text?, h]
  | clear => simp [make, strikes]

end Edit

/-! ## One number after another -/

/-- The ledger that edits come to, starting with nothing. -/
def kept (edits : List Edit) : Ledger := edits.foldl (fun l e => e.make l) empty

/-- The edits since a number was last struck out. -/
def recent (k : Int) (edits : List Edit) : List Edit := edits.rtakeWhile (fun e => !e.strikes k)

/-- The text that edits leave under a number: the first since it was last struck out. -/
def firstText? (k : Int) (edits : List Edit) : Option String :=
  (recent k edits).findSome? (Edit.text? k)

theorem recent_append (k : Int) (edits : List Edit) (e : Edit) :
    recent k (edits ++ [e]) = if e.strikes k then [] else recent k edits ++ [e] := by
  unfold recent
  rw [List.rtakeWhile_concat]
  cases e.strikes k <;> rfl

theorem text?_kept (edits : List Edit) (k : Int) : (kept edits).text? k = firstText? k edits := by
  induction edits using List.reverseRecOn with
  | nil => rfl
  | append_singleton past e ih =>
    have hlast : kept (past ++ [e]) = e.make (kept past) := by simp [kept]
    rw [hlast, Edit.text?_make, ih, firstText?, firstText?, recent_append]
    cases e.strikes k with
    | true => rfl
    | false =>
      simp only [Bool.false_eq_true, ↓reduceIte, List.findSome?_append, List.findSome?_singleton]

theorem has_kept_iff (edits : List Edit) (k : Int) :
    (kept edits).has k ↔ ∃ e ∈ recent k edits, (e.text? k).isSome := by
  rw [has_eq_isSome_text?, text?_kept, firstText?, List.findSome?_isSome_iff]

theorem firstText?_eq_none {k : Int} {edits : List Edit} (h : ∀ e ∈ edits, e.text? k = none) :
    firstText? k edits = none :=
  List.findSome?_eq_none_iff.mpr fun e he => h e ((List.rtakeWhile_suffix _ edits).mem he)

/-! ## The numbers in order -/

theorem ascending_toList (l : Ledger) : l.toList.Pairwise fun e e' => e.1 < e'.1 :=
  l.entries.ascending

/-- A ledger has as many entries as numbers. -/
theorem size_eq_ncard (l : Ledger) : l.size = {k | l.has k}.ncard := by
  have hnodup : (l.toList.map Prod.fst).Nodup :=
    List.pairwise_map.mpr (l.ascending_toList.imp Int.ne_of_lt)
  have hset : {k | l.has k} = ((l.toList.map Prod.fst).toFinset : Set Int) := by
    ext k
    have hmem : k ∈ l.toList.map Prod.fst ↔ ∃ t, (k, t) ∈ l.toList := by simp
    simp only [Set.mem_ofPred_eq, List.coe_toFinset, hmem, has_eq_isSome_text?,
      Option.isSome_iff_exists, mem_toList_iff]
  rw [hset, Set.ncard_coe_finset, List.toFinset_card_of_nodup hnodup, List.length_map]
  rfl

theorem mem_ofSeverity_iff (l : Ledger) (s : Severity) (e : Int × String) :
    e ∈ l.ofSeverity s ↔ e ∈ l.toList ∧ Severity.ofNumber e.1 = s := by
  simp [ofSeverity]

/-- Split by severity and put together again, entries in order are as they were: errors come
before neutral entries, and these before warnings. -/
theorem filter_append_filter_append_filter {l : List (Int × String)}
    (h : l.Pairwise fun e e' => e.1 < e'.1) :
    l.filter (fun e => Severity.ofNumber e.1 = .error) ++
        l.filter (fun e => Severity.ofNumber e.1 = .neutral) ++
        l.filter (fun e => Severity.ofNumber e.1 = .warning) = l := by
  induction l with
  | nil => rfl
  | cons e rest ih =>
    obtain ⟨hfirst, hrest⟩ := List.pairwise_cons.mp h
    rcases Int.lt_or_le e.1 0 with hneg | hpos
    · have herror := (Severity.ofNumber_eq_error_iff e.1).mpr hneg
      simp [herror, ih hrest]
    · -- After an entry that is no error there are only warnings.
      have hwarn : ∀ e' ∈ rest, Severity.ofNumber e'.1 = .warning := fun e' he' =>
        (Severity.ofNumber_eq_warning_iff e'.1).mpr (Int.lt_of_le_of_lt hpos (hfirst e' he'))
      have hnone : ∀ s, s ≠ .warning →
          rest.filter (fun e => Severity.ofNumber e.1 = s) = [] := by
        intro s hs
        rw [List.filter_eq_nil_iff]
        intro e' he'
        simpa [hwarn e' he'] using hs.symm
      have hall : rest.filter (fun e => Severity.ofNumber e.1 = .warning) = rest :=
        List.filter_eq_self.mpr fun e' he' => decide_eq_true (hwarn e' he')
      cases hs : Severity.ofNumber e.1 with
      | error => exact absurd ((Severity.ofNumber_eq_error_iff e.1).mp hs) (Int.not_lt.mpr hpos)
      | neutral => simp [hs, hnone, hall]
      | warning => simp [hs, hnone, hall]

theorem hasErrors_iff (l : Ledger) : l.hasErrors ↔ l.ofSeverity .error ≠ [] := by
  unfold hasErrors ofSeverity
  simp [List.any_eq_true, List.filter_eq_nil_iff, Severity.ofNumber_eq_error_iff]

theorem hasWarnings_iff (l : Ledger) : l.hasWarnings ↔ l.ofSeverity .warning ≠ [] := by
  unfold hasWarnings ofSeverity
  simp [List.any_eq_true, List.filter_eq_nil_iff, Severity.ofNumber_eq_warning_iff]

/-! ## All edits -/

/-- **Ledgers follow their edits.** A number is on record if something was written under it since
it was last struck out, with the first text that was. The entries are in order, one for each number
on record; errors, neutral entries and warnings are consecutive parts of them. So edits that leave
the same texts lead to the same ledger. -/
theorem entries_follow_edits (edits : List Edit) :
    let l := kept edits
    (∀ k, l.has k ↔ ∃ e ∈ recent k edits, (e.text? k).isSome) ∧
    (∀ k, l.text? k = firstText? k edits) ∧
    (l.toList.Pairwise fun e e' => e.1 < e'.1) ∧
    (∀ k t, (k, t) ∈ l.toList ↔ firstText? k edits = some t) ∧
    l.size = {k | l.has k}.ncard ∧
    l.ofSeverity .error ++ l.ofSeverity .neutral ++ l.ofSeverity .warning = l.toList ∧
    (∀ e ∈ l.ofSeverity .error, e.1 < 0) ∧ (∀ e ∈ l.ofSeverity .neutral, e.1 = 0) ∧
    (∀ e ∈ l.ofSeverity .warning, 0 < e.1) ∧
    (l.hasErrors ↔ l.ofSeverity .error ≠ []) ∧ (l.hasWarnings ↔ l.ofSeverity .warning ≠ []) ∧
    ∀ edits', (∀ k, firstText? k edits' = firstText? k edits) → kept edits' = l := by
  intro l
  have hseverity : ∀ s, ∀ e ∈ l.ofSeverity s, Severity.ofNumber e.1 = s := fun s e he =>
    ((l.mem_ofSeverity_iff s e).mp he).2
  refine ⟨has_kept_iff edits, text?_kept edits, l.ascending_toList, fun k t => ?_,
    l.size_eq_ncard, filter_append_filter_append_filter l.ascending_toList, fun e he => ?_,
    fun e he => ?_, fun e he => ?_, l.hasErrors_iff, l.hasWarnings_iff, fun edits' h => ?_⟩
  · rw [mem_toList_iff, text?_kept]
  · exact (Severity.ofNumber_eq_error_iff e.1).mp (hseverity .error e he)
  · exact (Severity.ofNumber_eq_neutral_iff e.1).mp (hseverity .neutral e he)
  · exact (Severity.ofNumber_eq_warning_iff e.1).mp (hseverity .warning e he)
  · refine ext_text? fun k => ?_
    rw [text?_kept, text?_kept, h k]

/-- An error is written down, struck out and written down again, twice; a warning about practice is
withdrawn. -/
def rewritten : List Edit :=
  [.add (-7) "first", .add 0 "status", .remove (-7), .record .cableInConduit, .add (-7) "second",
    .add (-7) "third", .retractAll Message.aboutPractice, .add 4 "note"]

theorem entries_of_rewritten :
    let tidy : List Edit := [.clear, .add 4 "note", .add (-7) "second", .add 0 "status"]
    let l := kept rewritten
    (∃ e ∈ recent (-7) rewritten, (e.text? (-7)).isSome) ∧ l.has (-7) ∧
      (-7, "second") ∈ l.ofSeverity .error ∧ (-7 : Int) < 0 ∧ l.hasErrors ∧ l.hasWarnings ∧
      {k | l.has k}.ncard = 3 ∧ (∀ k, firstText? k tidy = firstText? k rewritten) ∧
      kept tidy = l := by
  intro tidy l
  obtain ⟨hhas, -, -, -, hsize, -, hneg, -, -, herrors, hwarnings, hsame⟩ :=
    entries_follow_edits rewritten
  have hrecent : ∃ e ∈ recent (-7) rewritten, (e.text? (-7)).isSome := by decide
  have herror : (-7, "second") ∈ l.ofSeverity .error := by decide
  have hlisted : ∀ k ∈ ([-7, 0, 3, 4] : List Int),
      firstText? k tidy = firstText? k rewritten := by
    decide
  have htexts : ∀ k, firstText? k tidy = firstText? k rewritten := by
    intro k
    by_cases hk : k ∈ ([-7, 0, 3, 4] : List Int)
    · exact hlisted k hk
    · simp only [List.mem_cons, List.not_mem_nil, or_false, not_or] at hk
      rw [@firstText?_eq_none k tidy, @firstText?_eq_none k rewritten] <;>
        simp [tidy, rewritten, Edit.text?, hk, Message.number, eq_comm]
  have hthree : {k | l.has k}.ncard = 3 := by
    rw [← hsize]
    decide
  exact ⟨hrecent, (hhas (-7)).mpr hrecent, herror, hneg _ herror,
    herrors.mpr (List.ne_nil_of_mem herror), hwarnings.mpr (by decide), hthree, htexts,
    hsame tidy htexts⟩

end Ledger

end Raceways
