import Mathlib
import RehashReport.Proofs.Distribution.Sums
import RehashReport.Proofs.Samples.Records

/-!
# The lines of a report

A line of a report takes its entries from the same position of four series (`getElem?_rows`), and
there are as many lines as the shortest of the four has entries (`length_rows`).  The series of a
distribution are no shorter than its table (`length_rows_of_ofSamples`), so each record of a table
has a line, in the order in which the records were put into it (`rows_of_edits`).
-/

namespace RehashReport.Distribution

theorem length_rows (d : Distribution) (s : Samples) :
    (d.rows s).length = min (min d.rehashCounts.length s.bucketCounts.size)
      (min d.frequencies.length d.cumulative.length) := by
  simp [rows]

theorem getElem?_rows (d : Distribution) (s : Samples) (i : ℕ) (row : Row) :
    (d.rows s)[i]? = some row ↔
      d.rehashCounts[i]? = some row.rehashCount ∧ s.bucketCounts[i]? = some row.bucketCount ∧
        d.frequencies[i]? = some row.frequency ∧ d.cumulative[i]? = some row.cumulative := by
  obtain ⟨rehashCount, bucketCount, frequency, cumulative⟩ := row
  simp only [rows, List.getElem?_map, Option.map_eq_some_iff, Prod.exists,
    List.getElem?_zip_eq_some, Array.getElem?_toList, Row.mk.injEq]
  constructor
  · rintro ⟨_, _, _, _, ⟨⟨hr, hb⟩, hf, hc⟩, rfl, rfl, rfl, rfl⟩
    exact ⟨hr, hb, hf, hc⟩
  · rintro ⟨hr, hb, hf, hc⟩
    exact ⟨_, _, _, _, ⟨⟨hr, hb⟩, hf, hc⟩, rfl, rfl, rfl, rfl⟩

/-- The series of a distribution are no shorter than its table. -/
theorem length_rows_of_ofSamples {s : Samples} {d : Distribution} (h : ofSamples s = .ok d) :
    (d.rows s).length = s.size := by
  obtain ⟨-, -, rfl⟩ := ofSamples_eq_ok_iff.1 h
  have hcounts : (ofTotal s (.ofNat s.bucketTotal)).rehashCounts.length = s.size :=
    s.length_rehashCounts
  have hbuckets : s.bucketCounts.size = s.size := s.aligned.symm
  rw [length_rows, hcounts, hbuckets, length_frequencies, length_cumulative]
  omega

/-- A line of the report of a table has a record of it, and the shares at the same position. -/
theorem getElem?_rows_of_ofSamples {s : Samples} {d : Distribution} (h : ofSamples s = .ok d)
    (i : ℕ) (row : Row) :
    (d.rows s)[i]? = some row ↔ s.toList[i]? = some ⟨row.rehashCount, row.bucketCount⟩ ∧
      d.frequencies[i]? = some row.frequency ∧ d.cumulative[i]? = some row.cumulative := by
  obtain ⟨-, -, hd⟩ := ofSamples_eq_ok_iff.1 h
  have hcounts : d.rehashCounts = s.rehashCounts.toList := by rw [hd, ofTotal]
  rw [getElem?_rows, Samples.getElem?_toList, hcounts, Array.getElem?_toList, and_assoc]

/-- **No record is lost between a table and its report.**  Let a table be made by any edits, and a
list by the same ones.  The columns of the table are of one length and the two parts of the records
in the list, and tables made in two ways are equal just when the lists are.  If the table has a
distribution, its report has a line for every record, with the counts of the record and the shares
at its position.  Of any four series, the report has as many lines as the shortest of them allows,
each with the entries at its own position. -/
theorem rows_of_edits (edits : List Edit) :
    let s := (Desk.run Samples.kind edits).table
    let records := (Desk.run recordList edits).table
    s.rehashCounts.size = s.bucketCounts.size ∧
      s.rehashCounts.toList = records.map Record.rehashCount ∧
      s.bucketCounts.toList = records.map Record.bucketCount ∧
      (∀ others, s = (Desk.run Samples.kind others).table ↔
        records = (Desk.run recordList others).table) ∧
      (∀ d, ofSamples s = .ok d → (d.rows s).length = records.length ∧
        ∀ (i : ℕ) (row : Row), (d.rows s)[i]? = some row ↔
          records[i]? = some ⟨row.rehashCount, row.bucketCount⟩ ∧
            d.frequencies[i]? = some row.frequency ∧ d.cumulative[i]? = some row.cumulative) ∧
      ∀ (d : Distribution) (t : Samples),
        (d.rows t).length = min (min d.rehashCounts.length t.bucketCounts.size)
          (min d.frequencies.length d.cumulative.length) ∧
        ∀ (i : ℕ) (row : Row), (d.rows t)[i]? = some row ↔
          d.rehashCounts[i]? = some row.rehashCount ∧ t.bucketCounts[i]? = some row.bucketCount ∧
            d.frequencies[i]? = some row.frequency ∧ d.cumulative[i]? = some row.cumulative := by
  intro s records
  have hrecords : s.toList = records := Desk.toList_run edits
  refine ⟨s.aligned, ?_, ?_, ?_, ?_, ?_⟩
  · rw [← hrecords, Samples.map_rehashCount_toList]
  · rw [← hrecords, Samples.map_bucketCount_toList]
  · intro others
    rw [← hrecords, ← Desk.toList_run others]
    exact Samples.toList_injective.eq_iff.symm
  · intro d hd
    rw [← hrecords]
    refine ⟨?_, getElem?_rows_of_ofSamples hd⟩
    rw [length_rows_of_ofSamples hd, Samples.length_toList]
  · intro d t
    exact ⟨length_rows d t, getElem?_rows d t⟩

/-- A copy that is brought back after the table was made anew, with one more record. -/
theorem rows_of_edits_restored :
    let edits : List Edit :=
      [.push ⟨0, 5⟩, .save, .fill [⟨7, 1⟩, ⟨3, 0⟩, ⟨9, 2⟩], .clear, .restore, .push ⟨4, 3⟩]
    let s := (Desk.run Samples.kind edits).table
    let d := ofTotal s 8
    ofSamples s = .ok d ∧ (Desk.run recordList edits).table = [⟨0, 5⟩, ⟨4, 3⟩] ∧
      (d.rows s).length = 2 ∧
      (d.rows s)[1]? = some ⟨4, 3, percentage 8 3, percentage 8 3⟩ := by
  intro edits s d
  have hd : ofSamples s = .ok d := by decide +kernel
  obtain ⟨-, -, -, -, hrows, -⟩ := rows_of_edits edits
  obtain ⟨hlength, hrow⟩ := hrows d hd
  refine ⟨hd, by decide, ?_, ?_⟩
  · rw [hlength]
    decide
  · rw [hrow]
    decide +kernel

end RehashReport.Distribution
