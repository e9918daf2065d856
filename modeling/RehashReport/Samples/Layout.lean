import RehashReport.Samples.Basic
import RehashReport.Text.Numeral

/-!
# Column layouts

Which field of a line holds which count. A header that can be read names the columns, in any order
and among others; one that cannot leaves the first two fields of each line. `Layout.read` reads the
fields of one line under a layout and says what is wrong with them, the leftmost fault first.
-/

namespace RehashReport

/-- The two columns that a table of samples needs. -/
inductive Column
  | rehashCount
  | bucketCount
deriving DecidableEq, Repr

namespace Column

/-- The header of a column. The second one carries a leading space. -/
def title : Column → String
  | .rehashCount => "rehashes per bucket"
  | .bucketCount => " count"

/-- The column with a header, which has to agree to the letter. -/
def ofTitle? (text : List Char) : Option Column :=
  if text = rehashCount.title.toList then some .rehashCount
  else if text = bucketCount.title.toList then some .bucketCount
  else none

end Column

/-- What can be wrong with the fields of a line. -/
inductive RowFault
  /-- A field of a wanted column is no numeral; fields are counted from zero. -/
  | badNumber (field : Nat) (why : Numeral.Fault)
  /-- Two columns have the same header. -/
  | duplicateColumn (column : Column)
  /-- No column has the header. -/
  | missingColumn (column : Column)
  /-- Without column names, the line has fewer than two fields. -/
  | tooFewFields (found : Nat)
deriving DecidableEq, Repr

/-- How the fields of a line are assigned to columns. -/
inductive Layout
  /-- By the names of the columns, from left to right; `none` is a column of no interest. -/
  | named (columns : List (Option Column))
  /-- The first field is the rehash count and the second the bucket count. -/
  | positional
deriving DecidableEq, Repr

/-- The counts of a line that have been read so far. -/
structure PartialRecord where
  rehashCount : Option UInt64
  bucketCount : Option UInt64
deriving DecidableEq, Repr

namespace PartialRecord

/-- Nothing read yet. -/
def blank : PartialRecord := ⟨none, none⟩

/-- What was read for a column. -/
def get? (r : PartialRecord) : Column → Option UInt64
  | .rehashCount => r.rehashCount
  | .bucketCount => r.bucketCount

/-- Enters the number of a column. -/
def set (r : PartialRecord) (value : UInt64) : Column → PartialRecord
  | .rehashCount => { r with rehashCount := some value }
  | .bucketCount => { r with bucketCount := some value }

/-- The record, once both counts are there; the rehash count is asked for first. -/
def complete (r : PartialRecord) : Except RowFault Record :=
  match r.rehashCount, r.bucketCount with
  | some rehashes, some buckets => .ok ⟨rehashes, buckets⟩
  | some _, none => .error (.missingColumn .bucketCount)
  | none, _ => .error (.missingColumn .rehashCount)

end PartialRecord

namespace Layout

/-- The layout that a readable header gives. -/
def ofHeader (titles : List (List Char)) : Layout :=
  .named (titles.map Column.ofTitle?)

/-- Reads one field as a number. -/
def readNumber (index : Nat) (text : List Char) : Except RowFault UInt64 :=
  (Numeral.read text).mapError (.badNumber index)

/-- Reads named fields from the left, the first of them being number `index`. -/
def readNamed (index : Nat) (r : PartialRecord) :
    List (Option Column) → List (List Char) → Except RowFault PartialRecord
  | none :: columns, _ :: texts => readNamed (index + 1) r columns texts
  | some column :: columns, text :: texts =>
    match r.get? column with
    | some _ => .error (.duplicateColumn column)
    | none =>
      match readNumber index text with
      | .error fault => .error fault
      | .ok value => readNamed (index + 1) (r.set value column) columns texts
  | _, _ => .ok r

/-- Reads the first two fields. -/
def readPositional : List (List Char) → Except RowFault Record
  | [] => .error (.tooFewFields 0)
  | [rehashes] => do
    let _ ← readNumber 0 rehashes
    .error (.tooFewFields 1)
  | rehashes :: buckets :: _ => do
    return ⟨← readNumber 0 rehashes, ← readNumber 1 buckets⟩

/-- Reads the fields of a line. -/
def read : Layout → List (List Char) → Except RowFault Record
  | .named columns, texts => do (← readNamed 0 .blank columns texts).complete
  | .positional, texts => readPositional texts

end Layout

end RehashReport
