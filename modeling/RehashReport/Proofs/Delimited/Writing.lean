import Mathlib
import RehashReport.Delimited.Scanner

/-!
# Writing delimited text

All the ways of writing records of fields: with a byte order mark or without, with any line ends
before, between and after the records, and with quotes around any field.  Scanning gives the
records back (`map_fields_scan`).

The invariant of the scan is what the cursor holds: the completed fields of the open record and the
content of the open field, either outside quotes (`Outside`), which includes the place before a
field (`AtField`), or inside them (`Inside`).
-/

namespace RehashReport.Delimited

open Cursor (isTerminator)

/-! ## Ways of writing -/

/-- A field with each of its quotes doubled. -/
def doubleQuotes (field : List UInt8) : List UInt8 :=
  field.flatMap fun b => if b = quote then [quote, quote] else [b]

/-- Whether a byte can stand in a field without quotes. -/
def IsBare (b : UInt8) : Prop := b ≠ comma ∧ b ≠ quote ∧ isTerminator b = false

/-- Whether bytes are line feeds and carriage returns and nothing else. -/
def AreBreaks (bytes : List UInt8) : Prop := ∀ b ∈ bytes, isTerminator b = true

instance : DecidablePred IsBare := fun _ => instDecidableAnd

instance : DecidablePred AreBreaks := fun bytes => List.decidableBAll _ bytes

/-- The ways of writing a field: as it is, if it needs no quotes, or between quotes. -/
inductive WritesField (field : List UInt8) : List UInt8 → Prop
  | bare : (∀ b ∈ field, IsBare b) → WritesField field field
  | quoted : WritesField field (quote :: (doubleQuotes field ++ [quote]))

/-- The ways of writing the fields of a record, with commas between them. -/
inductive WritesLine : List (List UInt8) → List UInt8 → Prop
  | last {field bytes : List UInt8} : WritesField field bytes → WritesLine [field] bytes
  | more {field bytes rest : List UInt8} {fields : List (List UInt8)} :
      WritesField field bytes → WritesLine fields rest →
        WritesLine (field :: fields) (bytes ++ comma :: rest)

/-- The ways of writing records, each but the last one with a line end or several. -/
inductive WritesLines : List (List (List UInt8)) → List UInt8 → Prop
  | none : WritesLines [] []
  | unended {fields : List (List UInt8)} {bytes : List UInt8} :
      WritesLine fields bytes → WritesLines [fields] bytes
  | ended {fields : List (List UInt8)} {lines : List (List (List UInt8))}
      {bytes breaks rest : List UInt8} :
      WritesLine fields bytes → AreBreaks breaks → breaks ≠ [] → WritesLines lines rest →
        WritesLines (fields :: lines) (bytes ++ (breaks ++ rest))

/-- The ways of writing records into an input, which may start with a byte order mark and with
line ends. -/
inductive Writes (lines : List (List (List UInt8))) : List UInt8 → Prop
  | plain {breaks bytes : List UInt8} :
      AreBreaks breaks → WritesLines lines bytes → Writes lines (breaks ++ bytes)
  | marked {breaks bytes : List UInt8} :
      AreBreaks breaks → WritesLines lines bytes →
        Writes lines (Utf8.byteOrderMark ++ (breaks ++ bytes))

/-! ## Bytes that complete no record -/

/-- Some bytes take a cursor to another one and complete no record. -/
def Silent (c d : Cursor) (bytes : List UInt8) : Prop :=
  c.run bytes = d ∧ c.emitted bytes = []

theorem Silent.refl (c : Cursor) : Silent c c [] := ⟨rfl, rfl⟩

theorem Silent.cons {c d e : Cursor} {b : UInt8} {bytes : List UInt8} (hstep : c.step b = (d, none))
    (h : Silent d e bytes) : Silent c e (b :: bytes) := by
  constructor
  · rw [Cursor.run_cons, hstep]
    exact h.1
  · rw [Cursor.emitted_cons, hstep]
    exact h.2

theorem Silent.append {c d e : Cursor} {u v : List UInt8} (hu : Silent c d u) (hv : Silent d e v) :
    Silent c e (u ++ v) := by
  constructor
  · rw [Cursor.run_append, hu.1, hv.1]
  · rw [Cursor.emitted_append, hu.2, hu.1, hv.2, List.nil_append]

theorem Silent.single {c d : Cursor} {b : UInt8} (hstep : c.step b = (d, none)) :
    Silent c d [b] := .cons hstep (.refl d)

theorem Silent.scanFrom_append {c d : Cursor} {u : List UInt8} (h : Silent c d u)
    (v : List UInt8) : scanFrom c (u ++ v) = scanFrom d v := by
  rw [scanFrom, scanFrom, Cursor.emitted_append, Cursor.run_append, h.1, h.2, List.nil_append]

/-! ## What a cursor holds -/

/-- The cursor stands outside quotes, after the completed fields `done` of its record and the bytes
`content` of the open one. -/
structure Outside (c : Cursor) (done : List (List UInt8)) (content : List UInt8) : Prop where
  fields : c.fields.reverse = done
  field : c.field.reverse = content
  place : c.place ≠ .quoted
  first : c.place = .recordStart → done = []

/-- The cursor stands inside quotes. -/
structure Inside (c : Cursor) (done : List (List UInt8)) (content : List UInt8) : Prop where
  fields : c.fields.reverse = done
  field : c.field.reverse = content
  place : c.place = .quoted

/-- The cursor stands before a field. -/
structure AtField (c : Cursor) (done : List (List UInt8)) : Prop where
  fields : c.fields.reverse = done
  field : c.field.reverse = []
  place : c.place = if done = [] then .recordStart else .fieldStart

variable {c : Cursor} {done : List (List UInt8)} {content : List UInt8} {b : UInt8}

theorem atField_startingAt (p : Position) : AtField (.startingAt p) [] := ⟨rfl, rfl, rfl⟩

theorem AtField.outside (h : AtField c done) : Outside c done [] := by
  refine ⟨h.fields, h.field, ?_, ?_⟩
  · rw [h.place]
    split_ifs <;> simp
  · intro hplace
    by_contra hdone
    rw [h.place, if_neg hdone] at hplace
    cases hplace

theorem Outside.fields_record (h : Outside c done content) :
    c.record.fields = done ++ [content] := by
  rw [Cursor.record, List.reverse_cons, h.fields, h.field]

/-- Outside quotes, all bytes but a quote are taken alike, except that a line end before a record
is none of it. -/
theorem Outside.step (h : Outside c done content) (hquote : b ≠ quote)
    (hbreak : isTerminator b = true → done ≠ []) : c.step b = c.stepBare b := by
  cases hplace : c.place with
  | recordStart =>
    have hterminator : isTerminator b = false := by
      by_contra hb
      exact hbreak (by simpa using hb) (h.first hplace)
    simp [Cursor.step, hplace, hterminator, Cursor.stepFirst, hquote]
  | fieldStart => simp [Cursor.step, hplace, Cursor.stepFirst, hquote]
  | bare => simp [Cursor.step, hplace]
  | quoted => exact absurd hplace h.place
  | quoteSeen => simp [Cursor.step, hplace, hquote]

theorem Outside.step_bare (h : Outside c done content) (hb : IsBare b) :
    c.step b = (c.push b .bare, none) ∧ Outside (c.push b .bare) done (content ++ [b]) := by
  obtain ⟨hcomma, hquote, hterminator⟩ := hb
  constructor
  · rw [h.step hquote (by simp [hterminator]), Cursor.stepBare, if_neg hcomma, hterminator]
    rfl
  · refine ⟨h.fields, ?_, by simp [Cursor.push], by simp [Cursor.push]⟩
    rw [Cursor.push, List.reverse_cons, h.field]

theorem Outside.step_comma (h : Outside c done content) :
    c.step comma = (c.closeField comma, none) ∧
      AtField (c.closeField comma) (done ++ [content]) := by
  constructor
  · rw [h.step (by decide) (fun h => absurd h (by decide)), Cursor.stepBare, if_pos rfl]
  · refine ⟨?_, rfl, by simp [Cursor.closeField]⟩
    rw [Cursor.closeField, List.reverse_cons, h.fields, h.field]

theorem Outside.step_terminator (h : Outside c done content) (hdone : done ≠ [])
    (hb : isTerminator b = true) : c.step b = (c.closeRecord b, some c.record) := by
  have hquote : b ≠ quote := by
    rintro rfl
    exact absurd hb (by decide)
  have hcomma : b ≠ comma := by
    rintro rfl
    exact absurd hb (by decide)
  rw [h.step hquote fun _ => hdone, Cursor.stepBare, if_neg hcomma, if_pos hb]

theorem AtField.step_quote (h : AtField c done) :
    c.step quote = (c.pass quote .quoted, none) ∧ Inside (c.pass quote .quoted) done [] := by
  constructor
  · have hterminator : isTerminator quote = false := by decide
    by_cases hdone : done = []
    · simp [Cursor.step, h.place, hdone, hterminator, Cursor.stepFirst]
    · simp [Cursor.step, h.place, hdone, Cursor.stepFirst]
  · exact ⟨h.fields, h.field, rfl⟩

theorem AtField.step_break (h : AtField c []) (hb : isTerminator b = true) :
    c.step b = (c.pass b .recordStart, none) ∧ AtField (c.pass b .recordStart) [] := by
  constructor
  · simp [Cursor.step, h.place, hb]
  · exact ⟨h.fields, h.field, rfl⟩

theorem Inside.step_byte (h : Inside c done content) (hb : b ≠ quote) :
    c.step b = (c.push b .quoted, none) ∧ Inside (c.push b .quoted) done (content ++ [b]) := by
  constructor
  · simp [Cursor.step, h.place, hb]
  · refine ⟨h.fields, ?_, rfl⟩
    rw [Cursor.push, List.reverse_cons, h.field]

theorem Inside.step_quote (h : Inside c done content) :
    c.step quote = (c.pass quote .quoteSeen, none) ∧
      Outside (c.pass quote .quoteSeen) done content := by
  constructor
  · simp [Cursor.step, h.place]
  · exact ⟨h.fields, h.field, by simp [Cursor.pass], by simp [Cursor.pass]⟩

/-- Two quotes inside quotes are one quote of the field. -/
theorem Inside.silent_quotes (h : Inside c done content) :
    ∃ d, Silent c d [quote, quote] ∧ Inside d done (content ++ [quote]) := by
  refine ⟨(c.pass quote .quoteSeen).push quote .quoted, ?_, h.fields, ?_, rfl⟩
  · exact .cons h.step_quote.1 (.single (by simp [Cursor.step, Cursor.pass]))
  · show (quote :: c.field).reverse = content ++ [quote]
    rw [List.reverse_cons, h.field]

/-! ## Runs over what is written -/

theorem Outside.silent_bare (h : Outside c done content) {bytes : List UInt8}
    (hbytes : ∀ b ∈ bytes, IsBare b) :
    ∃ d, Silent c d bytes ∧ Outside d done (content ++ bytes) := by
  induction bytes generalizing c content with
  | nil => exact ⟨c, .refl c, by rwa [List.append_nil]⟩
  | cons b bytes ih =>
    obtain ⟨hstep, hnext⟩ := h.step_bare (hbytes b List.mem_cons_self)
    obtain ⟨d, hsilent, hd⟩ := ih hnext fun x hx => hbytes x (List.mem_cons_of_mem b hx)
    refine ⟨d, .cons hstep hsilent, ?_⟩
    rwa [List.append_assoc, List.singleton_append] at hd

theorem Inside.silent_doubleQuotes (h : Inside c done content) (field : List UInt8) :
    ∃ d, Silent c d (doubleQuotes field) ∧ Inside d done (content ++ field) := by
  induction field generalizing c content with
  | nil => exact ⟨c, .refl c, by rwa [List.append_nil]⟩
  | cons b field ih =>
    have hfirst : ∃ d, Silent c d (if b = quote then [quote, quote] else [b]) ∧
        Inside d done (content ++ [b]) := by
      split_ifs with hb
      · rw [hb]
        exact h.silent_quotes
      · exact ⟨_, .single (h.step_byte hb).1, (h.step_byte hb).2⟩
    obtain ⟨d, hd, hinside⟩ := hfirst
    obtain ⟨e, he, hrest⟩ := ih hinside
    refine ⟨e, ?_, ?_⟩
    · rw [doubleQuotes, List.flatMap_cons]
      exact hd.append he
    · rwa [List.append_assoc, List.singleton_append] at hrest

/-- Over a written field, the cursor gathers the field. -/
theorem AtField.silent_field (h : AtField c done) {field bytes : List UInt8}
    (hfield : WritesField field bytes) : ∃ d, Silent c d bytes ∧ Outside d done field := by
  cases hfield with
  | bare hbare => exact h.outside.silent_bare hbare
  | quoted =>
    obtain ⟨hopen, hinside⟩ := h.step_quote
    obtain ⟨d, hd, hcontent⟩ := hinside.silent_doubleQuotes field
    obtain ⟨hclose, houtside⟩ := hcontent.step_quote
    exact ⟨_, .cons hopen (hd.append (.single hclose)), houtside⟩

/-- Over a written record, the cursor gathers its fields, the last of them still open. -/
theorem AtField.silent_line (h : AtField c done) {fields : List (List UInt8)}
    {bytes : List UInt8} (hline : WritesLine fields bytes) :
    ∃ d front last, Silent c d bytes ∧ Outside d front last ∧ done ++ fields = front ++ [last] := by
  induction hline generalizing c done with
  | last hfield =>
    obtain ⟨d, hd, houtside⟩ := h.silent_field hfield
    exact ⟨d, done, _, hd, houtside, rfl⟩
  | @more field bytes rest fields hfield _ ih =>
    obtain ⟨d, hd, houtside⟩ := h.silent_field hfield
    obtain ⟨hcomma, hnext⟩ := houtside.step_comma
    obtain ⟨e, front, last, he, hlast, hfields⟩ := ih hnext
    refine ⟨e, front, last, hd.append (.cons hcomma he), hlast, ?_⟩
    rw [← hfields, List.append_assoc, List.singleton_append]

theorem AtField.silent_breaks (h : AtField c []) {breaks : List UInt8}
    (hbreaks : AreBreaks breaks) : ∃ d, Silent c d breaks ∧ AtField d [] := by
  induction breaks generalizing c with
  | nil => exact ⟨c, .refl c, h⟩
  | cons b breaks ih =>
    obtain ⟨hstep, hnext⟩ := h.step_break (hbreaks b List.mem_cons_self)
    obtain ⟨d, hd, hat⟩ := ih hnext fun x hx => hbreaks x (List.mem_cons_of_mem b hx)
    exact ⟨d, .cons hstep hd, hat⟩

/-- Fields of which there are two at least are some and a last one. -/
theorem front_ne_nil {fields front : List (List UInt8)} {last : List UInt8}
    (h : fields = front ++ [last]) (hfields : 2 ≤ fields.length) : front ≠ [] := by
  rintro rfl
  simp [h] at hfields

theorem Outside.flush (h : Outside c done content) (hdone : done ≠ []) :
    c.flush = [c.record] := by
  rw [Cursor.flush.eq_def]
  split
  next hplace => exact absurd (h.first hplace) hdone
  next => rfl

/-- Written records are scanned as they are, if none of them has a single field. -/
theorem AtField.map_fields_scanFrom (h : AtField c []) {lines : List (List (List UInt8))}
    {bytes : List UInt8} (hwrites : WritesLines lines bytes)
    (hlines : ∀ fields ∈ lines, 2 ≤ fields.length) :
    (scanFrom c bytes).map RawRecord.fields = lines := by
  induction hwrites generalizing c with
  | none => simp [scanFrom, Cursor.flush, h.place]
  | unended hline =>
    obtain ⟨d, front, last, hd, houtside, hfields⟩ := h.silent_line hline
    rw [List.nil_append] at hfields
    have hfront := front_ne_nil hfields (hlines _ List.mem_cons_self)
    rw [scanFrom, hd.1, hd.2, houtside.flush hfront, List.nil_append, List.map_singleton,
      houtside.fields_record, hfields]
  | @ended fields lines bytes breaks rest hline hbreaks hne _ ih =>
    obtain ⟨d, front, last, hd, houtside, hfields⟩ := h.silent_line hline
    rw [List.nil_append] at hfields
    have hfront := front_ne_nil hfields (hlines _ List.mem_cons_self)
    obtain ⟨b, breaks, rfl⟩ := List.exists_cons_of_ne_nil hne
    have hstep := houtside.step_terminator hfront (hbreaks b List.mem_cons_self)
    obtain ⟨e, he, hat⟩ := (atField_startingAt (d.here.advance b)).silent_breaks
      fun x hx => hbreaks x (List.mem_cons_of_mem b hx)
    have hscan : scanFrom d (b :: (breaks ++ rest)) = d.record :: scanFrom e rest := by
      rw [← he.scanFrom_append rest, scanFrom, Cursor.emitted_cons, Cursor.run_cons, hstep]
      rfl
    rw [hd.scanFrom_append, List.cons_append, hscan, List.map_cons, houtside.fields_record,
      ← hfields, ih hat fun x hx => hlines x (List.mem_cons_of_mem fields hx)]

/-! ## Byte order marks -/

theorem untilEnd_singleton {piece : List UInt8} (h : piece ≠ []) : untilEnd [piece] = [piece] := by
  simp [untilEnd, h]

theorem scanPieces_of_marked {pieces rest : List (List UInt8)} {bytes : List UInt8}
    (h : untilEnd pieces = (Utf8.byteOrderMark ++ bytes) :: rest) (hne : bytes ≠ []) :
    scanPieces pieces =
      scanFrom (.startingAt ⟨Utf8.byteOrderMark.length, 1⟩) (bytes ++ rest.flatten) := by
  have honly : Utf8.byteOrderMark ++ bytes ≠ Utf8.byteOrderMark := by
    rwa [ne_eq, List.append_right_eq_self]
  have hprefix : Utf8.byteOrderMark.isPrefixOf (Utf8.byteOrderMark ++ bytes) = true := by
    rw [List.isPrefixOf_iff_prefix]
    exact List.prefix_append _ _
  rw [scanPieces, h]
  dsimp only
  rw [if_neg honly, if_pos hprefix, List.drop_left]

theorem scanPieces_of_unmarked {pieces rest : List (List UInt8)} {piece : List UInt8}
    (h : untilEnd pieces = piece :: rest) (hmark : ¬Utf8.byteOrderMark <+: piece) :
    scanPieces pieces = scanFrom (.startingAt .origin) (piece ++ rest.flatten) := by
  have honly : piece ≠ Utf8.byteOrderMark := by
    rintro rfl
    exact hmark List.prefix_rfl
  have hprefix : ¬Utf8.byteOrderMark.isPrefixOf piece = true := by
    rwa [List.isPrefixOf_iff_prefix]
  rw [scanPieces, h]
  dsimp only
  rw [if_neg honly, if_neg hprefix]

theorem scan_of_marked (bytes : List UInt8) :
    scan (Utf8.byteOrderMark ++ bytes) =
      scanFrom (.startingAt ⟨Utf8.byteOrderMark.length, 1⟩) bytes := by
  by_cases hne : bytes = []
  · subst hne
    rfl
  · have huntil := untilEnd_singleton (List.append_ne_nil_of_right_ne_nil Utf8.byteOrderMark hne)
    rw [scan, scanPieces_of_marked huntil hne, List.flatten_nil, List.append_nil]

theorem scan_of_unmarked {bytes : List UInt8} (h : ¬Utf8.byteOrderMark <+: bytes) :
    scan bytes = scanFrom (.startingAt .origin) bytes := by
  cases bytes with
  | nil => rfl
  | cons b bytes =>
    have huntil := untilEnd_singleton (List.cons_ne_nil b bytes)
    rw [scan, scanPieces_of_unmarked huntil h, List.flatten_nil, List.append_nil]

/-- It does not matter in which pieces an input arrives, but if it starts with a byte order mark,
the first of them has to hold that and more. -/
theorem scanPieces_eq_scan {pieces : List (List UInt8)}
    (hmark : Utf8.byteOrderMark <+: (untilEnd pieces).flatten →
      ∀ piece ∈ pieces.head?, Utf8.byteOrderMark.length < piece.length) :
    scanPieces pieces = scan (untilEnd pieces).flatten := by
  cases huntil : untilEnd pieces with
  | nil =>
    rw [scanPieces, huntil]
    rfl
  | cons piece rest =>
    have hhead : piece ∈ pieces.head? := by
      have hfirst : (untilEnd pieces).head? = some piece := by rw [huntil, List.head?_cons]
      rw [untilEnd, List.head?_takeWhile, Option.filter_eq_some_iff] at hfirst
      exact hfirst.1
    rw [huntil, List.flatten_cons] at hmark
    by_cases hfull : Utf8.byteOrderMark <+: piece ++ rest.flatten
    · have hlong := hmark hfull piece hhead
      obtain ⟨bytes, rfl⟩ :=
        List.prefix_of_prefix_length_le hfull (List.prefix_append piece _) hlong.le
      have hne : bytes ≠ [] := by
        rintro rfl
        simp at hlong
      rw [scanPieces_of_marked huntil hne, List.flatten_cons, List.append_assoc, scan_of_marked]
    · have hpiece : ¬Utf8.byteOrderMark <+: piece := fun hpiece =>
        hfull (hpiece.trans (List.prefix_append piece _))
      rw [scanPieces_of_unmarked huntil hpiece, List.flatten_cons, scan_of_unmarked hfull]

/-- A byte order mark does not reach beyond a field into what cannot be part of one. -/
theorem not_startsWith_mark {field rest : List UInt8} (hfield : ¬Utf8.byteOrderMark <+: field)
    (hrest : ∀ b ∈ rest.head?, b ∉ Utf8.byteOrderMark) :
    ¬Utf8.byteOrderMark <+: field ++ rest := by
  intro hmark
  rcases List.prefix_or_prefix_of_prefix hmark (List.prefix_append field rest) with h | h
  · exact hfield h
  · obtain ⟨tail, htail⟩ := h
    rw [← htail, List.prefix_append_right_inj] at hmark
    obtain _ | ⟨b, tail⟩ := tail
    · rw [List.append_nil] at htail
      exact hfield (by rw [htail])
    · obtain ⟨more, rfl⟩ := hmark
      refine hrest b rfl ?_
      rw [← htail]
      simp

theorem not_mem_mark_of_isTerminator {b : UInt8} (h : isTerminator b = true) :
    b ∉ Utf8.byteOrderMark := by
  intro hb
  simp only [Utf8.byteOrderMark, List.mem_cons, List.not_mem_nil, or_false] at hb
  rcases hb with rfl | rfl | rfl <;> exact absurd h (by decide)

theorem WritesField.not_startsWith_mark {field bytes rest : List UInt8}
    (h : WritesField field bytes) (hfield : ¬Utf8.byteOrderMark <+: field)
    (hrest : ∀ b ∈ rest.head?, b ∉ Utf8.byteOrderMark) :
    ¬Utf8.byteOrderMark <+: bytes ++ rest := by
  cases h with
  | bare _ => exact Delimited.not_startsWith_mark hfield hrest
  | quoted =>
    rintro ⟨more, hmore⟩
    cases hmore

theorem WritesLine.not_startsWith_mark {fields : List (List UInt8)} {bytes rest : List UInt8}
    (h : WritesLine fields bytes) (hfields : ∀ field ∈ fields.head?, ¬Utf8.byteOrderMark <+: field)
    (hrest : ∀ b ∈ rest.head?, b ∉ Utf8.byteOrderMark) :
    ¬Utf8.byteOrderMark <+: bytes ++ rest := by
  cases h with
  | last hfield => exact hfield.not_startsWith_mark (hfields _ rfl) hrest
  | more hfield _ =>
    rw [List.append_assoc, List.cons_append]
    refine hfield.not_startsWith_mark (hfields _ rfl) ?_
    rintro _ ⟨⟩
    decide

theorem WritesLines.not_startsWith_mark {lines : List (List (List UInt8))} {bytes : List UInt8}
    (h : WritesLines lines bytes)
    (hlines : ∀ fields ∈ lines.head?, ∀ field ∈ fields.head?, ¬Utf8.byteOrderMark <+: field) :
    ¬Utf8.byteOrderMark <+: bytes := by
  cases h with
  | none => decide
  | unended hline =>
    have hnil : ∀ b ∈ ([] : List UInt8).head?, b ∉ Utf8.byteOrderMark := by simp
    simpa using hline.not_startsWith_mark (hlines _ rfl) hnil
  | ended hline hbreaks hne _ =>
    refine hline.not_startsWith_mark (hlines _ rfl) ?_
    obtain ⟨b, breaks, rfl⟩ := List.exists_cons_of_ne_nil hne
    rintro _ ⟨⟩
    exact not_mem_mark_of_isTerminator (hbreaks b List.mem_cons_self)

/-- **Scanning undoes writing.**  Records with at least two fields each are scanned as they were
written, in whichever way that was, if the first field does not itself start with a byte order
mark. -/
theorem map_fields_scan {lines : List (List (List UInt8))} {bytes : List UInt8}
    (h : Writes lines bytes) (hlines : ∀ fields ∈ lines, 2 ≤ fields.length)
    (hmark : ∀ fields ∈ lines.head?, ∀ field ∈ fields.head?, ¬Utf8.byteOrderMark <+: field) :
    (scan bytes).map RawRecord.fields = lines := by
  have hbody : ∀ {breaks bytes : List UInt8} (p : Position), AreBreaks breaks →
      WritesLines lines bytes →
        (scanFrom (.startingAt p) (breaks ++ bytes)).map RawRecord.fields = lines := by
    intro breaks bytes p hbreaks hbytes
    obtain ⟨d, hd, hat⟩ := (atField_startingAt p).silent_breaks hbreaks
    rw [hd.scanFrom_append, hat.map_fields_scanFrom hbytes hlines]
  cases h with
  | marked hbreaks hbytes => rw [scan_of_marked, hbody _ hbreaks hbytes]
  | @plain breaks bytes hbreaks hbytes =>
    have hunmarked : ¬Utf8.byteOrderMark <+: breaks ++ bytes := by
      cases breaks with
      | nil => exact hbytes.not_startsWith_mark hmark
      | cons b breaks =>
        intro hprefix
        obtain ⟨rfl, -⟩ := List.cons_prefix_cons.1 hprefix
        exact absurd (hbreaks _ List.mem_cons_self) (by decide)
    rw [scan_of_unmarked hunmarked, hbody _ hbreaks hbytes]

end RehashReport.Delimited
