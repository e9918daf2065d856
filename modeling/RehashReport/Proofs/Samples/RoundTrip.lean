import Mathlib
import RehashReport.Proofs.Delimited.Writing
import RehashReport.Proofs.Samples.Reader

/-!
# Reading undoes writing

A `Sheet` is a table of samples as people write them: titles in any order and among others, and in
each line any cells, two of them with a numeral between blanks.  However its titles and cells are
written as delimited text, reading gives the rows of the sheet (`read_of_writes`).
-/

namespace RehashReport

open Delimited (RawRecord Writes)
open Text (isBlank trim)

/-! ## Cells -/

/-- A numeral between any blanks, and the number that it denotes. -/
def CellDenotes (cell : List Char) (n : ℕ) : Prop :=
  ∃ before numeral after, cell = before ++ numeral ++ after ∧ (∀ c ∈ before, isBlank c = true) ∧
    (∀ c ∈ after, isBlank c = true) ∧ Numeral.Denotes numeral n

theorem CellDenotes.denotes_trim {cell : List Char} {n : ℕ} (h : CellDenotes cell n) :
    Numeral.Denotes (trim cell) n := by
  obtain ⟨before, numeral, after, rfl, hbefore, hafter, hnumeral⟩ := h
  rwa [trim, Text.stripBy_append numeral hbefore hafter,
    Text.stripBy_eq_self hnumeral.isBlank_eq_false]

/-! ## Sheets -/

/-- A line of a sheet with some titles: as many cells, and in the columns of the two counts the
numbers of a row. -/
structure Line (titles : List (List Char)) where
  cells : List (List Char)
  row : Record
  length_cells : cells.length = titles.length
  holds : ∀ column : Column, ∃ cell, cells[titles.idxOf column.title.toList]? = some cell ∧
    CellDenotes cell (row.get column).toNat

/-- A table of samples with other columns among its two.  No title starts with a byte order
mark. -/
structure Sheet where
  titles : List (List Char)
  lines : List (Line titles)
  count_titles : ∀ column : Column, titles.count column.title.toList = 1
  unmarked : ∀ title ∈ titles, title.head? ≠ some '\uFEFF'

namespace Sheet

/-- The rows of a sheet. -/
def rows (sheet : Sheet) : List Record := sheet.lines.map Line.row

/-- The fields that are to be written: the titles and then the cells of all lines. -/
def fields (sheet : Sheet) : List (List (List UInt8)) :=
  (sheet.titles :: sheet.lines.map Line.cells).map fun texts => texts.map Utf8.encode

theorem two_le_length_titles (sheet : Sheet) : 2 ≤ sheet.titles.length := by
  have hmem : ∀ column : Column, column.title.toList ∈ sheet.titles := by
    intro column
    rw [← List.count_pos_iff, sheet.count_titles]
    exact Nat.one_pos
  have hrehashes := hmem .rehashCount
  have hbuckets := hmem .bucketCount
  generalize sheet.titles = titles at hrehashes hbuckets
  match titles with
  | [] => cases hrehashes
  | [title] =>
    rw [List.mem_singleton] at hrehashes hbuckets
    rw [← hrehashes] at hbuckets
    exact absurd hbuckets (by decide)
  | _ :: _ :: titles => simp

theorem two_le_length_of_mem_fields (sheet : Sheet) {texts : List (List UInt8)}
    (h : texts ∈ sheet.fields) : 2 ≤ texts.length := by
  rw [fields, List.map_cons, List.map_map, List.mem_cons, List.mem_map] at h
  rcases h with rfl | ⟨line, -, rfl⟩
  · rw [List.length_map]
    exact sheet.two_le_length_titles
  · simp only [Function.comp_apply, List.length_map, line.length_cells]
    exact sheet.two_le_length_titles

/-- Only a text that starts with the character of the mark has the bytes of the mark in front. -/
theorem head?_eq_of_marked {title : List Char}
    (h : Utf8.byteOrderMark <+: Utf8.encode title) : title.head? = some '\uFEFF' := by
  obtain ⟨rest, hrest⟩ := h
  have hmark : Utf8.byteOrderMark = String.utf8EncodeChar '\uFEFF' := by decide
  have hdecode := Utf8.decode_append '\uFEFF' rest
  rw [← hmark, hrest, Utf8.decode_encode] at hdecode
  split at hdecode <;> cases hdecode
  rfl

/-- The title of a column stands in the header where it stands among the titles. -/
theorem count_place_titles (titles : List (List Char)) (column : Column) :
    (titles.map Utf8.encode).count column.titleBytes = titles.count column.title.toList ∧
      (titles.map Utf8.encode).idxOf column.titleBytes = titles.idxOf column.title.toList :=
  Samples.count_idxOf_map (fun _ => Utf8.encode_injective.eq_iff) titles

/-- A line that was scanned below the titles becomes its row. -/
theorem readRecord_line (sheet : Sheet) (line : Line sheet.titles) {header r : RawRecord}
    (hheader : header.fields = sheet.titles.map Utf8.encode)
    (hr : r.fields = line.cells.map Utf8.encode) :
    Samples.readRecord (Samples.layoutOf header) header.fields.length r = .ok line.row := by
  have htext : ∀ {r : RawRecord} {texts : List (List Char)},
      r.fields = texts.map Utf8.encode → r.IsText := by
    intro r texts hfields field hfield
    rw [hfields, List.mem_map] at hfield
    obtain ⟨text, -, rfl⟩ := hfield
    exact ⟨text, rfl⟩
  rw [Samples.readRecord_of_isText (htext hheader)]
  refine ⟨?_, htext hr, ?_, ?_⟩
  · rw [hr, hheader, List.length_map, List.length_map, line.length_cells]
  · intro column
    rw [hheader, (count_place_titles sheet.titles column).1, sheet.count_titles]
  · intro column
    obtain ⟨cell, hcell, hdenotes⟩ := line.holds column
    refine ⟨Utf8.encode cell, ?_, cell, rfl, hdenotes.denotes_trim⟩
    rw [Delimited.RawRecord.place, hheader, (count_place_titles sheet.titles column).2, hr,
      List.getElem?_map, hcell, Option.map_some]

/-- **Reading undoes writing.**  Whatever the way in which a sheet was written, its rows are read,
in their order and with no other. -/
theorem read_of_writes (sheet : Sheet) {bytes : List UInt8} (h : Writes sheet.fields bytes) :
    Samples.read bytes = .ok (.ofList sheet.rows) := by
  have hscan := Delimited.map_fields_scan h (fun _ => sheet.two_le_length_of_mem_fields) (by
    rintro _ ⟨⟩ field hfield hmark
    rw [List.head?_map, Option.mem_map] at hfield
    obtain ⟨title, htitle, rfl⟩ := hfield
    exact sheet.unmarked title (List.mem_of_head? htitle) (head?_eq_of_marked hmark))
  rw [fields, List.map_cons, List.map_eq_cons_iff] at hscan
  obtain ⟨header, records, hscan, hheader, hrecords⟩ := hscan
  rw [Samples.read, hscan, Samples.ofRecords_cons_eq_ok_iff, Samples.toList_ofList, rows,
    List.forall₂_map_right_iff]
  rw [List.map_map, ← List.forall₂_eq_eq_eq, List.forall₂_map_left_iff,
    List.forall₂_map_right_iff] at hrecords
  exact hrecords.imp fun r line hr => sheet.readRecord_line line hheader hr

/-- A sheet with its two columns in the other order, and a third between them. -/
def swapped : Sheet where
  titles := [" count".toList, "note".toList, "rehashes per bucket".toList]
  lines :=
    [{ cells := ["\t+007".toList, "a,\"b\"".toList, "0xFf\u2003".toList]
       row := ⟨255, 7⟩
       length_cells := rfl
       holds := by
        rintro (_ | _)
        · refine ⟨"0xFf\u2003".toList, by decide, [], "0xFf".toList, ['\u2003'], by decide,
            by simp, by simp [isBlank],
            .hexadecimal (.plain ⟨by decide, [15, 15], ?_, by decide⟩)⟩
          exact .cons rfl (.cons rfl .nil)
        · refine ⟨"\t+007".toList, by decide, ['\t'], "+007".toList, [], by decide,
            by simp [isBlank], by simp, .decimal (.plus ⟨by decide, [0, 0, 7], ?_, by decide⟩)⟩
          exact .cons rfl (.cons rfl (.cons rfl .nil)) }]
  count_titles := by
    rintro (_ | _) <;> decide
  unmarked := by decide

/-- With a byte order mark, empty lines, quotes and padding. -/
theorem read_of_writes_swapped :
    let text := "\uFEFF\n count,note,\"rehashes per bucket\"\r\n\n\t+007,\"a,\"\"b\"\"\",0xFf\u2003"
    Writes swapped.fields (Utf8.encode text.toList) ∧
      Samples.read (Utf8.encode text.toList) = .ok (.ofList [⟨255, 7⟩]) := by
  intro text
  have hwrites : Writes swapped.fields
      (Utf8.byteOrderMark ++ ([0x0A] ++ (_ ++ ([0x0D, 0x0A, 0x0A] ++ _)))) :=
    .marked (by decide)
      (.ended
        (.more (.bare (by decide +kernel)) (.more (.bare (by decide +kernel)) (.last .quoted)))
        (by decide) (by decide)
        (.unended
          (.more (.bare (by decide +kernel)) (.more .quoted (.last (.bare (by decide +kernel)))))))
  obtain ⟨bytes, hwrites, hbytes⟩ :
      ∃ bytes, Writes swapped.fields bytes ∧ bytes = Utf8.encode text.toList :=
    ⟨_, hwrites, by decide +kernel⟩
  rw [← hbytes]
  exact ⟨hwrites, read_of_writes swapped hwrites⟩

end Sheet

end RehashReport
