import Mathlib
import RehashReport.Proofs.Delimited.Boundary
import RehashReport.Proofs.Samples.Reader

/-!
# Reading on

How the reading of an input depends on the reading of its front.  Records are read one by one under
the layout and the field count of the header, and nothing else passes from one to the next.  So a
table can be cut between two records and read in parts (`exists_read_append`), and an error is that
of the first record that is not a row: all before it can be read, its position is that of these
bytes, and what follows it does not matter (`read_first_error`).
-/

namespace RehashReport

open Delimited

/-! ## The byte that ends a record -/

/-- A byte after an input ends its record number `n`, the first one being number zero. -/
def Delimited.EndsRecord (n : ℕ) (bytes : List UInt8) (b : UInt8) : Prop :=
  (completed bytes).length = n ∧ (completed (bytes ++ [b])).length = n + 1

/-- Every record that ends within an input ends at a byte. -/
theorem Delimited.exists_endsRecord {n : ℕ} {bytes : List UInt8}
    (h : n < (completed bytes).length) :
    ∃ u b v, bytes = u ++ b :: v ∧ EndsRecord n u b := by
  have hsplit : completed bytes =
      (completed bytes).take n ++ (completed bytes)[n] :: (completed bytes).drop (n + 1) := by
    rw [← List.drop_eq_getElem_cons h, List.take_append_drop]
  obtain ⟨u, b, v, hcontent, hfront, hr⟩ := Cursor.exists_of_emitted hsplit
  have hlength : ((opening bytes).emitted u).length = n := by
    rw [hfront, List.length_take, Nat.min_eq_left h.le]
  have hmark := mark_append_of_content hcontent
  have hmark' : mark (mark bytes ++ (u ++ [b])) = mark bytes := by
    refine mark_append_of_content (v := v) ?_
    rw [hcontent, List.append_assoc, List.singleton_append]
  refine ⟨mark bytes ++ u, b, v, ?_, ?_, ?_⟩
  · rw [List.append_assoc, ← hcontent, mark_append_content]
  · rw [completed, opening, content, hmark, List.drop_left]
    exact hlength
  · rw [List.append_assoc, completed, opening, content, hmark', List.drop_left,
      Cursor.emitted_append, List.length_append]
    show ((opening bytes).emitted u).length + _ = _
    rw [hlength, Cursor.emitted_cons]
    show n + ((((opening bytes).run u).step b).2.toList ++ _).length = _
    rw [hr]
    rfl

namespace Samples

/-! ## One record after the other -/

/-- Two lists are related to a list in turn just when they are related to its two parts. -/
theorem forall₂_append_iff {α β : Type} {p : α → β → Prop} {xs ys : List α} {zs : List β} :
    List.Forall₂ p (xs ++ ys) zs ↔
      ∃ front back, zs = front ++ back ∧ List.Forall₂ p xs front ∧ List.Forall₂ p ys back := by
  induction xs generalizing zs with
  | nil => simp
  | cons x xs ih =>
    simp only [List.cons_append, List.forall₂_cons_left_iff, ih]
    constructor
    · rintro ⟨z, _, hz, ⟨front, back, rfl, hfront, hback⟩, rfl⟩
      exact ⟨z :: front, back, rfl, ⟨z, front, hz, hfront, rfl⟩, hback⟩
    · rintro ⟨_, back, rfl, ⟨z, front, hz, hfront, rfl⟩, hback⟩
      exact ⟨z, front ++ back, hz, ⟨front, back, rfl, hfront, hback⟩, rfl⟩

/-- What records are read as depends on their fields alone, and not on where they stand. -/
theorem forall₂_readRecord_congr {layout : Layout} {expected : ℕ} {rs rs' : List RawRecord}
    (h : rs.map RawRecord.fields = rs'.map RawRecord.fields) {rows : List Record} :
    List.Forall₂ (fun r row => readRecord layout expected r = .ok row) rs rows ↔
      List.Forall₂ (fun r row => readRecord layout expected r = .ok row) rs' rows := by
  have hfields : ∀ rs : List RawRecord,
      List.Forall₂ (fun r row => readRecord layout expected r = .ok row) rs rows ↔
        List.Forall₂ (fun fields row => readRecord layout expected ⟨.origin, fields⟩ = .ok row)
          (rs.map RawRecord.fields) rows := by
    intro rs
    rw [List.forall₂_map_left_iff]
    rfl
  rw [hfields rs, hfields rs', h]

/-- Reading fails at the first record that is not a row. -/
theorem readRows_eq_error_iff {layout : Layout} {expected : ℕ} (number : ℕ)
    {records : List RawRecord} {e : SamplesError} :
    readRows layout expected number records = .error e ↔
      ∃ front r back rows fault, records = front ++ r :: back ∧
        List.Forall₂ (fun r row => readRecord layout expected r = .ok row) front rows ∧
        readRecord layout expected r = .error fault ∧
        e = ⟨number + front.length, r.start, fault⟩ := by
  induction records generalizing number with
  | nil => simp [readRows]
  | cons r records ih =>
    rw [readRows]
    cases hr : readRecord layout expected r with
    | error fault =>
      dsimp only
      constructor
      · rintro ⟨⟩
        exact ⟨[], r, records, [], fault, rfl, .nil, hr, rfl⟩
      · rintro ⟨front, r', back, rows, fault', hrecords, hfront, hr', rfl⟩
        cases front with
        | nil =>
          obtain ⟨rfl, rfl⟩ := List.cons_eq_cons.1 hrecords
          rw [hr] at hr'
          cases hr'
          rfl
        | cons x front =>
          obtain ⟨rfl, -⟩ := List.cons_eq_cons.1 hrecords
          obtain ⟨row, _, hrow, -, -⟩ := List.forall₂_cons_left_iff.1 hfront
          rw [hr] at hrow
          cases hrow
    | ok row =>
      have hmap : (readRows layout expected (number + 1) records).map (row :: ·) = .error e ↔
          readRows layout expected (number + 1) records = .error e := by
        cases readRows layout expected (number + 1) records <;> simp [Except.map]
      dsimp only
      rw [hmap, ih]
      constructor
      · rintro ⟨front, r', back, rows, fault, rfl, hfront, hr', rfl⟩
        refine ⟨r :: front, r', back, row :: rows, fault, rfl, .cons hr hfront, hr', ?_⟩
        rw [List.length_cons, Nat.add_assoc, Nat.add_comm 1]
      · rintro ⟨front, r', back, rows, fault, hrecords, hfront, hr', rfl⟩
        cases front with
        | nil =>
          obtain ⟨rfl, -⟩ := List.cons_eq_cons.1 hrecords
          rw [hr] at hr'
          cases hr'
        | cons x front =>
          obtain ⟨rfl, rfl⟩ := List.cons_eq_cons.1 hrecords
          obtain ⟨_, rows, -, hrest, -⟩ := List.forall₂_cons_left_iff.1 hfront
          refine ⟨front, r', back, rows, fault, rfl, hrest, hr', ?_⟩
          rw [List.length_cons, Nat.add_assoc, Nat.add_comm 1]

/-! ## Cutting a table -/

section

variable {header part rest : List UInt8} (hone : (completed header).length = 1)
  (hheader : (cursorAfter header).place = .recordStart)
  (hpart : (cursorAfter (header ++ part)).place = .recordStart)

include hone hheader hpart

theorem read_append_eq_ok_iff {u : Samples} :
    read (header ++ part ++ rest) = .ok u ↔
      ∃ s t, read (header ++ part) = .ok s ∧ read (header ++ rest) = .ok t ∧
        u.toList = s.toList ++ t.toList := by
  obtain ⟨first, hfirst⟩ := List.length_eq_one_iff.1 hone
  have hne : completed header ≠ [] := by simp [hfirst]
  have hpartRecords : completed (header ++ part) = first :: (cursorAfter header).emitted part := by
    rw [completed_append hne, hfirst, List.singleton_append]
  have hpartNe : completed (header ++ part) ≠ [] := by simp [hpartRecords]
  -- before the rest, the two cursors differ in their positions only
  have hagrees : (cursorAfter (header ++ part)).Agrees (cursorAfter header) :=
    (tidy_cursorAfter _).agrees (tidy_cursorAfter _) hpart hheader
  have hwhole : ∀ u, read (header ++ part ++ rest) = .ok u ↔
      ∃ front back, u.toList = front ++ back ∧
        List.Forall₂ (fun r row => readRecord (layoutOf first) first.fields.length r = .ok row)
          ((cursorAfter header).emitted part) front ∧
        List.Forall₂ (fun r row => readRecord (layoutOf first) first.fields.length r = .ok row)
          (scanFrom (cursorAfter header) rest) back := by
    intro u
    rw [read, scan_append hpartNe, hpartRecords, List.cons_append, ofRecords_cons_eq_ok_iff,
      forall₂_append_iff]
    simp only [forall₂_readRecord_congr (hagrees.map_fields_scanFrom rest)]
  have hread : ∀ s, read (header ++ part) = .ok s ↔
      List.Forall₂ (fun r row => readRecord (layoutOf first) first.fields.length r = .ok row)
        ((cursorAfter header).emitted part) s.toList := by
    intro s
    rw [read, scan_of_recordStart hpart, hpartRecords, ofRecords_cons_eq_ok_iff]
  have hrest : ∀ t, read (header ++ rest) = .ok t ↔
      List.Forall₂ (fun r row => readRecord (layoutOf first) first.fields.length r = .ok row)
        (scanFrom (cursorAfter header) rest) t.toList := by
    intro t
    rw [read, scan_append hne, hfirst, List.singleton_append, ofRecords_cons_eq_ok_iff]
  simp only [hwhole, hread, hrest]
  constructor
  · rintro ⟨front, back, hrows, hfront, hback⟩
    refine ⟨ofList front, ofList back, ?_, ?_, ?_⟩
    · rwa [toList_ofList]
    · rwa [toList_ofList]
    · rw [toList_ofList, toList_ofList, hrows]
  · rintro ⟨s, t, hs, ht, hrows⟩
    exact ⟨s.toList, t.toList, hrows, hs, ht⟩

/-- **Nothing passes from record to record.**  Let an input end after its header, and let it end
between records also with some more bytes.  Then, whatever else is added, the whole can be read just
when the two parts below the header can, and its rows are those of the one and then those of the
other. -/
theorem read_append :
    ((∃ u, read (header ++ part ++ rest) = .ok u) ↔
        (∃ s, read (header ++ part) = .ok s) ∧ ∃ t, read (header ++ rest) = .ok t) ∧
      ∀ s t u, read (header ++ part) = .ok s → read (header ++ rest) = .ok t →
        read (header ++ part ++ rest) = .ok u → u.toList = s.toList ++ t.toList := by
  constructor
  · constructor
    · rintro ⟨u, hu⟩
      obtain ⟨s, t, hs, ht, -⟩ := (read_append_eq_ok_iff hone hheader hpart).1 hu
      exact ⟨⟨s, hs⟩, t, ht⟩
    · rintro ⟨⟨s, hs⟩, t, ht⟩
      refine ⟨ofList (s.toList ++ t.toList), ?_⟩
      exact (read_append_eq_ok_iff hone hheader hpart).2 ⟨s, t, hs, ht, toList_ofList _⟩
  · intro s t u hs ht hu
    obtain ⟨s', t', hs', ht', hrows⟩ := (read_append_eq_ok_iff hone hheader hpart).1 hu
    rw [hs] at hs'
    rw [ht] at ht'
    cases hs'
    cases ht'
    exact hrows

end

/-- A header with a byte order mark, a line end cut in two, quotes around a line feed and a last
record without an end. -/
theorem read_append_split_lineEnd :
    let header := Utf8.byteOrderMark ++ Utf8.encode "rehashes per bucket, count\r".toList
    let part := Utf8.encode "\n0,\"5\n\"\r".toList
    let rest := Utf8.encode "\n1,0x2".toList
    (completed header).length = 1 ∧ (cursorAfter header).place = .recordStart ∧
      (cursorAfter (header ++ part)).place = .recordStart ∧
      read (header ++ part ++ rest) = .ok (ofList [⟨0, 5⟩, ⟨1, 2⟩]) ∧
      ((∃ u, read (header ++ part ++ rest) = .ok u) ↔
        (∃ s, read (header ++ part) = .ok s) ∧ ∃ t, read (header ++ rest) = .ok t) := by
  intro header part rest
  have hone : (completed header).length = 1 := by decide
  have hheader : (cursorAfter header).place = .recordStart := by decide
  have hpart : (cursorAfter (header ++ part)).place = .recordStart := by decide
  exact ⟨hone, hheader, hpart, eq_ok_of_toOption (by decide +kernel),
    (read_append hone hheader hpart).1⟩

/-! ## The first error -/

/-- Below a header, all of `front` are rows and the record after them is not, for which there is an
error. -/
structure FirstFault (header : RawRecord) (front : List RawRecord) (r : RawRecord)
    (e : SamplesError) : Prop where
  rows : ∃ rows, List.Forall₂
    (fun r row => readRecord (layoutOf header) header.fields.length r = .ok row) front rows
  fault : ∃ fault, readRecord (layoutOf header) header.fields.length r = .error fault ∧
    e = ⟨1 + front.length, r.start, fault⟩

theorem read_eq_error_iff {bytes : List UInt8} {e : SamplesError} :
    read bytes = .error e ↔
      ∃ header front r back, scan bytes = header :: (front ++ r :: back) ∧
        FirstFault header front r e := by
  rw [read]
  cases scan bytes with
  | nil => simp [ofRecords]
  | cons header records =>
    have hmap : ofRecords (header :: records) = .error e ↔
        readRows (layoutOf header) header.fields.length 1 records = .error e := by
      rw [ofRecords]
      cases readRows (layoutOf header) header.fields.length 1 records <;> simp [Except.map]
    rw [hmap, readRows_eq_error_iff]
    constructor
    · rintro ⟨front, r, back, rows, fault, rfl, hfront, hr, he⟩
      exact ⟨header, front, r, back, rfl, ⟨rows, hfront⟩, fault, hr, he⟩
    · rintro ⟨_, front, r, back, ⟨⟩, ⟨rows, hfront⟩, fault, hr, he⟩
      exact ⟨front, r, back, rows, fault, rfl, hfront, hr, he⟩

theorem FirstFault.record_eq {header r : RawRecord} {front : List RawRecord} {e : SamplesError}
    (h : FirstFault header front r e) : e.record = front.length + 1 := by
  obtain ⟨_, -, rfl⟩ := h.fault
  exact Nat.add_comm 1 _

theorem FirstFault.start_eq {header r : RawRecord} {front : List RawRecord} {e : SamplesError}
    (h : FirstFault header front r e) : e.start = r.start := by
  obtain ⟨_, -, rfl⟩ := h.fault
  rfl

/-- An input that ends before the faulty record can be read. -/
theorem FirstFault.read_front {header r : RawRecord} {front : List RawRecord} {e : SamplesError}
    (h : FirstFault header front r e) {bytes : List UInt8}
    (hcompleted : completed bytes = header :: front)
    (hplace : (cursorAfter bytes).place = .recordStart) :
    ∃ s, read bytes = .ok s ∧ s.size = front.length := by
  obtain ⟨rows, hrows⟩ := h.rows
  refine ⟨ofList rows, ?_, ?_⟩
  · rw [read, scan_of_recordStart hplace, hcompleted, ofRecords_cons_eq_ok_iff, toList_ofList]
    exact hrows
  · rw [← length_toList, toList_ofList, hrows.length_eq]

/-- If the faulty record ends at a byte, the same fault comes first whatever follows. -/
theorem FirstFault.read_of_endsRecord {header r : RawRecord} {front back : List RawRecord}
    {e : SamplesError} (h : FirstFault header front r e) {u v : List UInt8} {b : UInt8}
    (hscan : scan (u ++ b :: v) = header :: (front ++ r :: back))
    (hends : EndsRecord e.record u b) (w : List UInt8) : read (u ++ b :: w) = .error e := by
  have hlength := hends.2
  rw [h.record_eq] at hlength
  have hne : completed (u ++ [b]) ≠ [] := by
    rw [← List.length_pos_iff_ne_nil, hlength]
    omega
  have hsplit : ∀ w, u ++ b :: w = (u ++ [b]) ++ w := by simp
  rw [hsplit v, scan_append hne] at hscan
  -- up to the byte, the records are the header, the rows and the faulty one
  have hcompleted : completed (u ++ [b]) = header :: (front ++ [r]) := by
    have hrecords : header :: (front ++ r :: back) = (header :: (front ++ [r])) ++ back := by simp
    exact List.append_inj_left (hscan.trans hrecords) (by simp [hlength])
  rw [read_eq_error_iff, hsplit w, scan_append hne, hcompleted]
  exact ⟨header, front, r, scanFrom (cursorAfter (u ++ [b])) w, by simp, h⟩

/-- **The first error.**  If an input cannot be read, let its error name record `R` and a position.
The bytes before that position are read as `R - 1` rows, and the line is one more than their line
feeds.  If record `R` ends at a byte, then every input that agrees with this one up to that byte has
the same error; otherwise record `R` ends with the input. -/
theorem read_first_error {bytes : List UInt8} {e : SamplesError} (h : read bytes = .error e) :
    (e.start.byte ≤ bytes.length ∧
        ∃ s, read (bytes.take e.start.byte) = .ok s ∧ s.size + 1 = e.record) ∧
      e.start.line = 1 + (bytes.take e.start.byte).count lineFeed ∧
      (∀ u b v, bytes = u ++ b :: v → EndsRecord e.record u b →
        ∀ w, read (u ++ b :: w) = .error e) ∧
      ((∃ u b v, bytes = u ++ b :: v ∧ EndsRecord e.record u b) ∨
        (completed bytes).length = e.record) := by
  obtain ⟨header, front, r, back, hscan, hfault⟩ := read_eq_error_iff.1 h
  have hsplit : scan bytes = (header :: front) ++ r :: back := hscan
  obtain ⟨u, v, hbytes, hcompleted, hplace, hstart⟩ := exists_before_record hsplit
  have hposition : e.start = ⟨u.length, 1 + u.count lineFeed⟩ := by
    rw [hfault.start_eq, hstart, Position.after_eq, Position.origin, Nat.zero_add]
  have htake : bytes.take e.start.byte = u := by
    rw [hposition, hbytes, List.take_left]
  rw [htake]
  refine ⟨⟨?_, ?_⟩, by rw [hposition], ?_, ?_⟩
  · rw [hposition, hbytes, List.length_append]
    exact Nat.le_add_right _ _
  · obtain ⟨s, hs, hsize⟩ := hfault.read_front hcompleted hplace
    exact ⟨s, hs, by rw [hsize, hfault.record_eq]⟩
  · rintro u b v rfl hends w
    exact hfault.read_of_endsRecord hscan hends w
  · by_cases hlt : e.record < (completed bytes).length
    · exact Or.inl (exists_endsRecord hlt)
    · -- at most one record of the input does not end at a byte
      refine Or.inr (Nat.le_antisymm (not_lt.1 hlt) ?_)
      have hlength := congrArg List.length hscan
      have hflush := (cursorAfter bytes).length_flush_le
      simp only [scan_eq, List.length_append, List.length_cons] at hlength
      rw [hfault.record_eq]
      omega

/-- Behind a byte order mark, an empty line and a record in quotes over two lines, the second record
has too large a number. -/
theorem read_first_error_quoted :
    let bytes := Utf8.byteOrderMark ++
      Utf8.encode "rehashes per bucket, count\r\n\"1\n\",2\n3,0x10000000000000000\nx".toList
    let e : SamplesError := ⟨2, ⟨38, 4⟩, .row (.badNumber 1 .tooLarge)⟩
    read bytes = .error e ∧ (∃ s, read (bytes.take 38) = .ok s ∧ s.size + 1 = 2) ∧
      (4 = 1 + (bytes.take 38).count lineFeed) ∧
      bytes = bytes.take 59 ++ lineFeed :: [0x78] ∧ EndsRecord 2 (bytes.take 59) lineFeed ∧
      ∀ w, read (bytes.take 59 ++ lineFeed :: w) = .error e := by
  intro bytes e
  have herror : read bytes = .error e := by decide +kernel
  have hbytes : bytes = bytes.take 59 ++ lineFeed :: [0x78] := by decide
  have hends : EndsRecord 2 (bytes.take 59) lineFeed := ⟨by decide, by decide⟩
  obtain ⟨⟨-, hfront⟩, hline, hsame, -⟩ := read_first_error herror
  exact ⟨herror, hfront, hline, hbytes, hends, hsame _ _ _ hbytes hends⟩

end Samples

end RehashReport
