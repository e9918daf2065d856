import Mathlib
import RehashReport.Proofs.Samples.Layout
import RehashReport.Proofs.Samples.Records
import RehashReport.Proofs.Text.Blank
import RehashReport.Proofs.Text.Numeral
import RehashReport.Samples.Reader

/-!
# Where rows come from

A record becomes a row if it has as many fields as the header, all of them text, and the two fields
that count denote numbers between their blanks (`readRecord_eq_ok_iff`).  Which two these are, the
header says: those under the two titles, each of which it has to hold once, if all of it is text
(`readRecord_of_isText`), and the first two whatever it holds otherwise
(`readRecord_of_not_isText`).  Over all records this is `read_eq_ok_iff_source`.
-/

namespace RehashReport

open Delimited (RawRecord)

/-! ## Fields -/

/-- The bytes of a column's title. -/
def Column.titleBytes (column : Column) : List UInt8 :=
  Utf8.encode column.title.toList

/-- Whether all fields of a record are text. -/
def Delimited.RawRecord.IsText (r : RawRecord) : Prop :=
  ∀ field ∈ r.fields, ∃ text, Utf8.encode text = field

/-- Where the title of a column first stands among the fields of a record. -/
def Delimited.RawRecord.place (header : RawRecord) (column : Column) : ℕ :=
  header.fields.idxOf column.titleBytes

/-- The number that the text of a field denotes between its blanks. -/
def FieldDenotes (field : List UInt8) (n : ℕ) : Prop :=
  ∃ text, Utf8.encode text = field ∧ Numeral.Denotes (Text.trim text) n

/-- The counts of a row are those in the fields of a record at the places of their columns. -/
def RowAt (place : Column → ℕ) (r : RawRecord) (row : Record) : Prop :=
  ∀ column, ∃ field, r.fields[place column]? = some field ∧
    FieldDenotes field (row.get column).toNat

namespace Samples

/-- A field is text, and this is left of it without the blanks around it. -/
def TrimsTo (field : List UInt8) (trimmed : List Char) : Prop :=
  ∃ text, Utf8.encode text = field ∧ Text.trim text = trimmed

theorem TrimsTo.unique {field : List UInt8} {s t : List Char} (hs : TrimsTo field s)
    (ht : TrimsTo field t) : s = t := by
  obtain ⟨s, rfl, rfl⟩ := hs
  obtain ⟨t, henc, rfl⟩ := ht
  rw [Utf8.encode_injective henc]

theorem fieldDenotes_iff {field : List UInt8} {v : UInt64} :
    FieldDenotes field v.toNat ↔
      ∃ trimmed, TrimsTo field trimmed ∧ Numeral.read trimmed = .ok v := by
  simp only [Numeral.read_eq_ok_iff]
  constructor
  · rintro ⟨text, henc, hdenotes⟩
    exact ⟨Text.trim text, ⟨text, henc, rfl⟩, hdenotes⟩
  · rintro ⟨trimmed, ⟨text, henc, rfl⟩, hdenotes⟩
    exact ⟨text, henc, hdenotes⟩

theorem decodeFields_eq_ok_iff (index : ℕ) {fields : List (List UInt8)}
    {texts : List (List Char)} :
    decodeFields index fields = .ok texts ↔
      List.Forall₂ (fun field text => Utf8.decode field = .ok text) fields texts := by
  induction fields generalizing index texts with
  | nil =>
    rw [decodeFields, List.forall₂_nil_left_iff]
    constructor
    · rintro ⟨⟩
      rfl
    · rintro rfl
      rfl
  | cons field fields ih =>
    rw [decodeFields, List.forall₂_cons_left_iff]
    cases hfield : Utf8.decode field with
    | error validBytes => simp
    | ok text =>
      dsimp only
      simp only [map_eq_ok_iff, ih, Except.ok.injEq, exists_and_left, exists_eq_left',
        @eq_comm _ texts]

/-- The texts of fields that are decoded and trimmed. -/
theorem exists_decodeFields_trim_iff {fields : List (List UInt8)} {trimmed : List (List Char)} :
    (∃ texts, decodeFields 0 (fields.map Text.trimAscii) = .ok texts ∧
      texts.map Text.trim = trimmed) ↔ List.Forall₂ TrimsTo fields trimmed := by
  simp only [decodeFields_eq_ok_iff, List.forall₂_map_left_iff]
  constructor
  · rintro ⟨texts, htexts, rfl⟩
    rw [List.forall₂_map_right_iff]
    exact htexts.imp fun field text h => Text.exists_decode_trimAscii_iff.1 ⟨text, h, rfl⟩
  · intro h
    induction h with
    | nil => exact ⟨[], .nil, rfl⟩
    | cons hfield _ ih =>
      obtain ⟨text, htext, rfl⟩ := Text.exists_decode_trimAscii_iff.2 hfield
      obtain ⟨texts, htexts, rfl⟩ := ih
      exact ⟨text :: texts, .cons htext htexts, rfl⟩

theorem isText_iff {r : RawRecord} :
    r.IsText ↔ ∃ trimmed, List.Forall₂ TrimsTo r.fields trimmed := by
  rw [Delimited.RawRecord.IsText]
  generalize r.fields = fields
  induction fields with
  | nil => simp
  | cons field fields ih =>
    rw [List.forall_mem_cons, ih]
    constructor
    · rintro ⟨⟨text, htext⟩, trimmed, htrimmed⟩
      exact ⟨Text.trim text :: trimmed, .cons ⟨text, htext, rfl⟩ htrimmed⟩
    · rintro ⟨trimmed, htrimmed⟩
      obtain _ | ⟨⟨text, htext, -⟩, hrest⟩ := htrimmed
      exact ⟨⟨text, htext⟩, _, hrest⟩

/-! ## One record -/

theorem readRecord_eq_ok_iff {layout : Layout} {expected : ℕ} {r : RawRecord} {row : Record} :
    readRecord layout expected r = .ok row ↔
      r.fields.length = expected ∧
        ∃ trimmed, List.Forall₂ TrimsTo r.fields trimmed ∧ layout.read trimmed = .ok row := by
  rw [readRecord]
  by_cases hlength : r.fields.length = expected
  · rw [if_neg (not_not.2 hlength)]
    simp only [hlength, true_and, ← exists_decodeFields_trim_iff, bind_eq_ok_iff,
      mapError_eq_ok_iff]
    constructor
    · rintro ⟨texts, htexts, hrow⟩
      exact ⟨_, ⟨texts, htexts, rfl⟩, hrow⟩
    · rintro ⟨_, ⟨texts, htexts, rfl⟩, hrow⟩
      exact ⟨texts, htexts, hrow⟩
  · simp [hlength]

/-- What a list relates to has the same places. -/
theorem exists_getElem?_of_forall₂ {α β : Type} {p : α → β → Prop} {xs : List α} {ys : List β}
    (h : List.Forall₂ p xs ys) {i : ℕ} {x : α} (hx : xs[i]? = some x) :
    ∃ y, ys[i]? = some y ∧ p x y := by
  induction h generalizing i with
  | nil => simp at hx
  | cons hhead _ ih =>
    cases i with
    | zero =>
      cases hx
      exact ⟨_, rfl, hhead⟩
    | succ i => exact ih hx

/-- The fields that count hold the counts, told by what is left of all fields. -/
theorem rowAt_iff {place : Column → ℕ} {r : RawRecord} {trimmed : List (List Char)}
    (h : List.Forall₂ TrimsTo r.fields trimmed) {row : Record} :
    RowAt place r row ↔
      ∀ column, ∃ text, trimmed[place column]? = some text ∧
        Numeral.read text = .ok (row.get column) := by
  refine forall_congr' fun column => ?_
  constructor
  · rintro ⟨field, hfield, hdenotes⟩
    obtain ⟨text, htext, hread⟩ := fieldDenotes_iff.1 hdenotes
    obtain ⟨text', htext', htrims⟩ := exists_getElem?_of_forall₂ h hfield
    rw [htext.unique htrims] at hread
    exact ⟨text', htext', hread⟩
  · rintro ⟨text, htext, hread⟩
    obtain ⟨field, hfield, htrims⟩ := exists_getElem?_of_forall₂ h.flip htext
    exact ⟨field, hfield, fieldDenotes_iff.2 ⟨text, htrims, hread⟩⟩

/-! ## Under a header -/

/-- What a function makes of one thing only occurs among the images as that thing does. -/
theorem count_idxOf_map {α β : Type} [BEq α] [LawfulBEq α] [BEq β] [LawfulBEq β] {f : α → β}
    {a : α} {b : β} (h : ∀ x, f x = b ↔ x = a) (xs : List α) :
    (xs.map f).count b = xs.count a ∧ (xs.map f).idxOf b = xs.idxOf a := by
  induction xs with
  | nil => simp
  | cons x xs ih =>
    by_cases hx : x = a
    · simp [hx, (h a).2 rfl, ih.1]
    · have hfx : f x ≠ b := fun hfx => hx ((h x).1 hfx)
      simp [List.count_cons_of_ne hx, List.count_cons_of_ne hfx, List.idxOf_cons_ne _ hx,
        List.idxOf_cons_ne _ hfx, ih]

/-- The columns that readable titles give stand where their bytes do. -/
theorem count_idxOf_columns (titles : List (List Char)) (column : Column) :
    (titles.map Column.ofTitle?).count (some column) =
        (titles.map Utf8.encode).count column.titleBytes ∧
      (titles.map Column.ofTitle?).idxOf (some column) =
        (titles.map Utf8.encode).idxOf column.titleBytes := by
  have hnames := count_idxOf_map (fun x => @Column.ofTitle?_eq_some_iff x column) titles
  have hbytes := count_idxOf_map (a := column.title.toList)
    (fun x => Utf8.encode_injective.eq_iff (a := x)) titles
  rw [hnames.1, hnames.2, Column.titleBytes, hbytes.1, hbytes.2]
  exact ⟨rfl, rfl⟩

theorem layoutOf_of_map {header : RawRecord} {titles : List (List Char)}
    (h : header.fields = titles.map Utf8.encode) : layoutOf header = .ofHeader titles := by
  have hdecode : decodeFields 0 header.fields = .ok titles := by
    rw [decodeFields_eq_ok_iff, h, List.forall₂_map_left_iff]
    exact List.forall₂_same.2 fun text _ => Utf8.decode_encode text
  rw [layoutOf, hdecode]

theorem exists_map_of_isText {header : RawRecord} (h : header.IsText) :
    ∃ titles : List (List Char), header.fields = titles.map Utf8.encode := by
  rw [Delimited.RawRecord.IsText] at h
  generalize header.fields = fields at h ⊢
  induction fields with
  | nil => exact ⟨[], rfl⟩
  | cons field fields ih =>
    rw [List.forall_mem_cons] at h
    obtain ⟨⟨text, rfl⟩, hrest⟩ := h
    obtain ⟨titles, rfl⟩ := ih hrest
    exact ⟨text :: titles, rfl⟩

theorem layoutOf_of_not_isText {header : RawRecord} (h : ¬header.IsText) :
    layoutOf header = .positional := by
  rw [layoutOf]
  split
  next titles htitles =>
    rw [decodeFields_eq_ok_iff] at htitles
    refine absurd (fun field hfield => ?_) h
    obtain ⟨i, hi⟩ := List.getElem?_of_mem hfield
    obtain ⟨text, -, htext⟩ := exists_getElem?_of_forall₂ htitles hi
    exact ⟨text, Utf8.encode_of_decode htext⟩
  next => rfl

/-- Under a header that is text, a record has its counts below the two titles, and each of them
stands there once. -/
theorem readRecord_of_isText {header : RawRecord} (h : header.IsText) {r : RawRecord}
    {row : Record} :
    readRecord (layoutOf header) header.fields.length r = .ok row ↔
      r.fields.length = header.fields.length ∧ r.IsText ∧
        (∀ column : Column, header.fields.count column.titleBytes = 1) ∧
        RowAt header.place r row := by
  obtain ⟨titles, htitles⟩ := exists_map_of_isText h
  have hread : ∀ {trimmed}, List.Forall₂ TrimsTo r.fields trimmed →
      r.fields.length = header.fields.length →
        ((layoutOf header).read trimmed = .ok row ↔
          (∀ column : Column, header.fields.count column.titleBytes = 1) ∧
            RowAt header.place r row) := by
    intro trimmed htrimmed hlength
    have hcolumns : (titles.map Column.ofTitle?).length = trimmed.length := by
      rw [← htrimmed.length_eq, hlength, htitles, List.length_map, List.length_map]
    rw [layoutOf_of_map htitles, Layout.ofHeader, Layout.read_named_eq_ok_iff,
      rowAt_iff htrimmed, ← forall_and]
    refine forall_congr' fun column => ?_
    obtain ⟨hcount, hplace⟩ := count_idxOf_columns titles column
    simp only [Layout.textsUnder_eq_singleton_iff hcolumns, hcount, hplace, ← htitles,
      Delimited.RawRecord.place, and_assoc, exists_and_left]
  rw [readRecord_eq_ok_iff, isText_iff]
  constructor
  · rintro ⟨hlength, trimmed, htrimmed, hrow⟩
    exact ⟨hlength, ⟨trimmed, htrimmed⟩, (hread htrimmed hlength).1 hrow⟩
  · rintro ⟨hlength, ⟨trimmed, htrimmed⟩, hrow⟩
    exact ⟨hlength, trimmed, htrimmed, (hread htrimmed hlength).2 hrow⟩

/-- Under a header that is no text, a record has its counts in the first two fields. -/
theorem readRecord_of_not_isText {header : RawRecord} (h : ¬header.IsText) {r : RawRecord}
    {row : Record} :
    readRecord (layoutOf header) header.fields.length r = .ok row ↔
      r.fields.length = header.fields.length ∧ r.IsText ∧ RowAt Layout.defaultPlace r row := by
  rw [layoutOf_of_not_isText h, readRecord_eq_ok_iff, isText_iff]
  constructor
  · rintro ⟨hlength, trimmed, htrimmed, hrow⟩
    rw [Layout.read_positional_eq_ok_iff, ← rowAt_iff htrimmed] at hrow
    exact ⟨hlength, ⟨trimmed, htrimmed⟩, hrow⟩
  · rintro ⟨hlength, ⟨trimmed, htrimmed⟩, hrow⟩
    refine ⟨hlength, trimmed, htrimmed, ?_⟩
    rwa [Layout.read_positional_eq_ok_iff, ← rowAt_iff htrimmed]

/-! ## All records -/

theorem readRows_eq_ok_iff {layout : Layout} {expected : ℕ} (number : ℕ)
    {records : List RawRecord} {rows : List Record} :
    readRows layout expected number records = .ok rows ↔
      List.Forall₂ (fun r row => readRecord layout expected r = .ok row) records rows := by
  induction records generalizing number rows with
  | nil =>
    rw [readRows, List.forall₂_nil_left_iff]
    constructor
    · rintro ⟨⟩
      rfl
    · rintro rfl
      rfl
  | cons r records ih =>
    rw [readRows, List.forall₂_cons_left_iff]
    cases hr : readRecord layout expected r with
    | error fault => simp
    | ok row =>
      dsimp only
      simp only [map_eq_ok_iff, ih, Except.ok.injEq, exists_and_left, exists_eq_left',
        @eq_comm _ rows]

theorem eq_ok_of_toOption {ε α : Type} {result : Except ε α} {value : α}
    (h : result.toOption = some value) : result = .ok value := by
  cases result with
  | error e => cases h
  | ok v =>
    cases h
    rfl

/-- A table is read if all records after the header are rows, and then it has these rows. -/
theorem ofRecords_cons_eq_ok_iff {header : RawRecord} {records : List RawRecord} {s : Samples} :
    ofRecords (header :: records) = .ok s ↔
      List.Forall₂ (fun r row => readRecord (layoutOf header) header.fields.length r = .ok row)
        records s.toList := by
  rw [ofRecords, map_eq_ok_iff, ← readRows_eq_ok_iff 1]
  constructor
  · rintro ⟨rows, hrows, rfl⟩
    rwa [toList_ofList]
  · intro hrows
    exact ⟨s.toList, hrows, toList_injective (toList_ofList s.toList)⟩

/-- Where the rows of a table come from, given its header and the records after it. -/
structure Source (header : RawRecord) (records : List RawRecord) (s : Samples) : Prop where
  /-- All records have as many fields as the header. -/
  lengths : ∀ r ∈ records, r.fields.length = header.fields.length
  /-- All records after the header are text. -/
  texts : ∀ r ∈ records, r.IsText
  /-- There are as many rows as records after the header. -/
  size : s.size = records.length
  /-- A header that is text has each title once, and the rows are below the titles. -/
  named : header.IsText → (∀ column : Column, header.fields.count column.titleBytes = 1) ∧
    List.Forall₂ (RowAt header.place) records s.toList
  /-- Below any other header the rows are in the first two fields. -/
  unnamed : ¬header.IsText → List.Forall₂ (RowAt Layout.defaultPlace) records s.toList

/-- **Where rows come from.**  Bytes are read as a table with rows exactly if these have their
source in the records of the bytes.  The titles count if the header is text, and only then. -/
theorem read_eq_ok_iff_source {bytes : List UInt8} {s : Samples} (hrows : s.size ≠ 0) :
    read bytes = .ok s ↔
      ∃ header records, Delimited.scan bytes = header :: records ∧ Source header records s := by
  rw [read]
  cases hscan : Delimited.scan bytes with
  | nil =>
    refine iff_of_false ?_ (by simp)
    rintro ⟨⟩
    exact hrows rfl
  | cons header records =>
    have hunique : (∃ header' records', header :: records = header' :: records' ∧
        Source header' records' s) ↔ Source header records s := by
      constructor
      · rintro ⟨_, _, ⟨⟩, hsource⟩
        exact hsource
      · exact fun hsource => ⟨header, records, rfl, hsource⟩
    have hsize : ∀ {p : RawRecord → Record → Prop}, List.Forall₂ p records s.toList →
        s.size = records.length := fun h => by rw [h.length_eq, length_toList]
    rw [hunique, ofRecords_cons_eq_ok_iff]
    by_cases htext : header.IsText
    · simp only [readRecord_of_isText htext, List.forall₂_and_left]
      constructor
      · rintro ⟨hlengths, htexts, htitles, hall⟩
        have hrecord : ∃ r, r ∈ records := by
          apply List.exists_mem_of_ne_nil
          rintro rfl
          exact hrows (hsize hall)
        obtain ⟨r, hr⟩ := hrecord
        exact ⟨hlengths, htexts, hsize hall, fun _ => ⟨htitles r hr, hall⟩,
          fun hnot => absurd htext hnot⟩
      · intro h
        exact ⟨h.lengths, h.texts, fun _ _ => (h.named htext).1, (h.named htext).2⟩
    · simp only [readRecord_of_not_isText htext, List.forall₂_and_left]
      constructor
      · rintro ⟨hlengths, htexts, hall⟩
        exact ⟨hlengths, htexts, hsize hall, fun h => absurd h htext, fun _ => hall⟩
      · intro h
        exact ⟨h.lengths, h.texts, h.unnamed htext⟩

/-- The counts may stand in any two of several columns. -/
theorem source_of_swapped_columns :
    let bytes := Utf8.encode " count,,rehashes per bucket\n 2,-,0x1".toList
    (ofList [⟨1, 2⟩]).size ≠ 0 ∧ read bytes = .ok (ofList [⟨1, 2⟩]) ∧
      ∃ header records, Delimited.scan bytes = header :: records ∧
        Source header records (ofList [⟨1, 2⟩]) := by
  have hrows : (ofList [⟨1, 2⟩]).size ≠ 0 := by decide
  have hread : read (Utf8.encode " count,,rehashes per bucket\n 2,-,0x1".toList) =
      .ok (ofList [⟨1, 2⟩]) := eq_ok_of_toOption (by decide +kernel)
  exact ⟨hrows, hread, (read_eq_ok_iff_source hrows).1 hread⟩

/-- A table can be read whose header, being no text, has neither title. -/
theorem not_titled_of_read :
    ¬∀ (bytes : List UInt8) (s : Samples), read bytes = .ok s → s.size ≠ 0 →
      ∃ header records, Delimited.scan bytes = header :: records ∧
        (∀ column : Column, header.fields.count column.titleBytes = 1) ∧
        (∀ r ∈ records, r.fields.length = header.fields.length) ∧ s.size = records.length ∧
        List.Forall₂ (RowAt header.place) records s.toList := by
  intro h
  -- the fields `\xFF` and `b`, and below them `1` and `2`
  have hread : read [0xFF, 0x2C, 0x62, 0x0A, 0x31, 0x2C, 0x32, 0x0A] = .ok (ofList [⟨1, 2⟩]) :=
    eq_ok_of_toOption (by decide +kernel)
  obtain ⟨header, records, hscan, htitles, -⟩ := h _ _ hread (by decide)
  have hheader : Delimited.scan [0xFF, 0x2C, 0x62, 0x0A, 0x31, 0x2C, 0x32, 0x0A] =
      [⟨⟨0, 1⟩, [[0xFF], [0x62]]⟩, ⟨⟨4, 2⟩, [[0x31], [0x32]]⟩] := by decide
  rw [hheader] at hscan
  cases hscan
  exact absurd (htitles .rehashCount) (by decide)

end Samples

end RehashReport
