import Mathlib
import RehashReport.Samples.Basic

/-!
# Tables and their records

A table keeps its two columns apart, and `Samples.toList` reads them side by side as records.
Nothing gets lost on the way: the columns are the two parts of the records
(`map_rehashCount_toList`, `map_bucketCount_toList`), hence tables with the same records are equal
(`toList_injective`).

Edits make a table from other ones: it is begun anew, a record is added, a copy is put aside and
brought back.  `Desk.run` does a sequence of them with any kind of table.  A view of one kind as
another that goes along with what a single edit does goes along with every sequence (`map_step`,
`map_run`).  For tables in columns and plain lists of records `toList` is such a view
(`toList_run`).
-/

namespace RehashReport

namespace Samples

variable (s : Samples)

theorem map_rehashCount_toList : s.toList.map Record.rehashCount = s.rehashCounts.toList := by
  have hlength : s.rehashCounts.toList.length = s.bucketCounts.toList.length := s.aligned
  rw [toList, List.map_map]
  exact List.map_fst_zip hlength.le

theorem map_bucketCount_toList : s.toList.map Record.bucketCount = s.bucketCounts.toList := by
  have hlength : s.rehashCounts.toList.length = s.bucketCounts.toList.length := s.aligned
  rw [toList, List.map_map]
  exact List.map_snd_zip hlength.ge

theorem length_toList : s.toList.length = s.size := by
  have h : s.rehashCounts.size = s.bucketCounts.size := s.aligned
  simp [toList, size, h]

theorem getElem?_toList (i : ℕ) (r : Record) :
    s.toList[i]? = some r ↔
      s.rehashCounts[i]? = some r.rehashCount ∧ s.bucketCounts[i]? = some r.bucketCount := by
  obtain ⟨rehashCount, bucketCount⟩ := r
  simp [toList, List.getElem?_zip_eq_some]

/-- Tables with the same records are equal. -/
theorem toList_injective : Function.Injective toList := by
  intro s t h
  have hrehashes : s.rehashCounts = t.rehashCounts := by
    rw [← Array.toList_inj, ← map_rehashCount_toList, h, map_rehashCount_toList]
  have hbuckets : s.bucketCounts = t.bucketCounts := by
    rw [← Array.toList_inj, ← map_bucketCount_toList, h, map_bucketCount_toList]
  cases s
  cases t
  cases hrehashes
  cases hbuckets
  rfl

end Samples

/-! ## Edits -/

/-- A change of the table on a desk, or of the copy beside it. -/
inductive Edit
  /-- The table gives way to an empty one. -/
  | clear
  /-- A record is added at the end of the table. -/
  | push (r : Record)
  /-- The table gives way to that of the given records. -/
  | fill (rs : List Record)
  /-- The table is copied, and an earlier copy is dropped. -/
  | save
  /-- The table gives way to the copy. -/
  | restore

/-- The ways to make a table of some kind. -/
structure TableKind (α : Type) where
  empty : α
  push : α → Record → α
  ofList : List Record → α

/-- Tables in columns. -/
def Samples.kind : TableKind Samples := ⟨.empty, .push, .ofList⟩

/-- Plain lists of records. -/
def recordList : TableKind (List Record) := ⟨[], fun rs r => rs ++ [r], fun rs => rs⟩

/-- A table, and a copy of an earlier one. -/
structure Desk (α : Type) where
  table : α
  copy : α

namespace Desk

variable {α β : Type} {k : TableKind α} {l : TableKind β} {f : α → β}

/-- Makes one edit. -/
def step (k : TableKind α) (d : Desk α) : Edit → Desk α
  | .clear => { d with table := k.empty }
  | .push r => { d with table := k.push d.table r }
  | .fill rs => { d with table := k.ofList rs }
  | .save => { d with copy := d.table }
  | .restore => { d with table := d.copy }

/-- Makes edits one after another, with an empty table and an empty copy at first. -/
def run (k : TableKind α) (edits : List Edit) : Desk α :=
  edits.foldl (step k) ⟨k.empty, k.empty⟩

/-- The desk with both tables seen as something else. -/
def map (f : α → β) (d : Desk α) : Desk β := ⟨f d.table, f d.copy⟩

/-- `IsView k l f`: seen through `f`, tables of the first kind are made as those of the second. -/
structure IsView (k : TableKind α) (l : TableKind β) (f : α → β) : Prop where
  empty : f k.empty = l.empty
  push : ∀ t r, f (k.push t r) = l.push (f t) r
  ofList : ∀ rs, f (k.ofList rs) = l.ofList rs

/-- A view goes along with every edit. -/
theorem map_step (h : IsView k l f) (d : Desk α) (e : Edit) :
    (step k d e).map f = step l (d.map f) e := by
  cases e with
  | clear => simp [step, map, h.empty]
  | push r => simp [step, map, h.push]
  | fill rs => simp [step, map, h.ofList]
  | save => rfl
  | restore => rfl

theorem map_foldl_step (h : IsView k l f) (d : Desk α) (edits : List Edit) :
    (edits.foldl (step k) d).map f = edits.foldl (step l) (d.map f) := by
  induction edits generalizing d with
  | nil => rfl
  | cons e edits ih => rw [List.foldl_cons, List.foldl_cons, ih, map_step h]

/-- A view goes along with every sequence of edits. -/
theorem map_run (h : IsView k l f) (edits : List Edit) : (run k edits).map f = run l edits := by
  rw [run, map_foldl_step h, run, map, h.empty]

theorem isView_toList : IsView Samples.kind recordList Samples.toList where
  empty := Samples.toList_empty
  push := Samples.toList_push
  ofList := Samples.toList_ofList

/-- The records of a table are those that the same edits leave in a list. -/
theorem toList_run (edits : List Edit) :
    (run Samples.kind edits).table.toList = (run recordList edits).table :=
  congrArg Desk.table (map_run isView_toList edits)

end Desk

end RehashReport
