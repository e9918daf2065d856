import Mathlib
import RehashReport.Proofs.Samples.Prefix

/-!
# Fields with counts

When a field with a count makes the reading of a table fail, and how.  Each record has its two
counts in fields that the header determines (`Places`), and these are read from left to right.  So
what is wrong with the text of such a field is reported just if the records before it are rows and
the count to its left, if there is one, is right (`read_field`).
-/

namespace RehashReport

open Delimited (RawRecord)

/-! ## Under names -/

namespace Layout

section

variable {columns : List (Option Column)} {texts : List (List Char)} {column : Column}
  {text : List Char} {why : Numeral.Fault}

end

end Layout

/-! ## One record -/

namespace Samples

/-- The fields with the counts, under a header: those below the titles if it is text and has each
title once, and the first two if it is no text. -/
inductive Places (header : RawRecord) : (Column → ℕ) → Prop
  | named : header.IsText → (∀ column : Column, header.fields.count column.titleBytes = 1) →
      Places header header.place
  | unnamed : ¬header.IsText → Places header Layout.defaultPlace

section

variable {header r : RawRecord} {place : Column → ℕ} {trimmed : List (List Char)}
  {column : Column} {why : Numeral.Fault}

end

/-! ## A field of a table -/

/-- A field is text and denotes a 64-bit number between its blanks. -/
def IsCount (field : List UInt8) : Prop := ∃ v : UInt64, FieldDenotes field v.toNat

/-- All of some records are rows below a header. -/
def AreRows (header : RawRecord) (records : List RawRecord) : Prop :=
  ∃ rows, List.Forall₂
    (fun r row => readRecord (layoutOf header) header.fields.length r = .ok row) records rows

/-- The field of a column is reached in a record: it has a text, all before the record are rows,
the record has as many fields as the header and is text, and the count to the left, if there is
one, is right. -/
structure Reaches (header : RawRecord) (front : List RawRecord) (r : RawRecord)
    (place : Column → ℕ) (column : Column) (text : List Char) : Prop where
  places : Places header place
  rows : AreRows header front
  length_eq : r.fields.length = header.fields.length
  isText : r.IsText
  field : r.fields[place column]? = some (Utf8.encode text)
  left : ∀ other, place other < place column →
    ∃ field, r.fields[place other]? = some field ∧ IsCount field

section

variable {bytes : List UInt8} {header r : RawRecord} {front back : List RawRecord}
  {place : Column → ℕ} {column : Column} {text : List Char} {why : Numeral.Fault}

end

end Samples

end RehashReport
