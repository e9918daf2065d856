import RehashReport.Delimited.Scanner
import RehashReport.Samples.Layout
import RehashReport.Storage.FileTree

/-!
# Reading samples

A table of samples is delimited text whose first record is its header. Every later record becomes a
row, or the first of them that cannot become one makes the reading fail, with its number, its
position and a cause. `Samples.read` reads bytes, and `Samples.load` whatever a path leads to.
-/

namespace RehashReport

open Delimited (RawRecord)
open Storage (Access Fault)

/-- Why a record is not a row. -/
inductive RecordFault
  /-- The record has another number of fields than the first one. -/
  | unequalLengths (found expected : Nat)
  /-- A field is not UTF-8 after so many bytes that are; fields are counted from zero. -/
  | invalidUtf8 (field validBytes : Nat)
  /-- Its fields are not those of a row. -/
  | row (fault : RowFault)
deriving DecidableEq, Repr

/-- The first record that is not a row: its number, the header being number zero, the position at
which it starts, and the cause. -/
structure SamplesError where
  record : Nat
  start : Delimited.Position
  fault : RecordFault
deriving DecidableEq, Repr

/-- The wording of a fault in the fields of a line. -/
def RowFault.message : RowFault → String
  | .badNumber field why => "field " ++ field.repr ++ ": " ++ why.message
  | .duplicateColumn column => "duplicate field \x60" ++ column.title ++ "\x60"
  | .missingColumn column => "missing field \x60" ++ column.title ++ "\x60"
  | .tooFewFields found =>
    "invalid length " ++ found.repr ++ ", expected struct RehashRecord with 2 elements"

/-- The wording of an error. -/
def SamplesError.message (e : SamplesError) : String :=
  let record := "record " ++ e.record.repr
  let line := e.start.line.repr
  let byte := e.start.byte.repr
  let position := record ++ " (line: " ++ line ++ ", byte: " ++ byte ++ "): "
  match e.fault with
  | .unequalLengths found expected =>
    "CSV error: " ++ position ++ "found record with " ++ found.repr ++
      " fields, but the previous record has " ++ expected.repr ++ " fields"
  | .invalidUtf8 field validBytes =>
    "CSV parse error: " ++ record ++ " (line " ++ line ++ ", field: " ++ field.repr ++ ", byte: " ++
      byte ++ "): invalid utf-8: invalid UTF-8 in field " ++ field.repr ++ " near byte index " ++
      validBytes.repr
  | .row fault => "CSV deserialize error: " ++ position ++ fault.message

namespace Samples

/-- Decodes fields from the left, the first of them being number `index`. -/
def decodeFields (index : Nat) : List (List UInt8) → Except RecordFault (List (List Char))
  | [] => .ok []
  | field :: fields =>
    match Utf8.decode field with
    | .error validBytes => .error (.invalidUtf8 index validBytes)
    | .ok text => (decodeFields (index + 1) fields).map (text :: ·)

/-- The layout under a header, which is taken as it stands; without readable names it is the
positional one. -/
def layoutOf (header : RawRecord) : Layout :=
  match decodeFields 0 header.fields with
  | .ok titles => .ofHeader titles
  | .error _ => .positional

/-- Reads one record under a layout. Blanks around a field do not count. -/
def readRecord (layout : Layout) (expected : Nat) (r : RawRecord) : Except RecordFault Record :=
  if r.fields.length ≠ expected then .error (.unequalLengths r.fields.length expected)
  else do
    let texts ← decodeFields 0 (r.fields.map Text.trimAscii)
    (layout.read (texts.map Text.trim)).mapError .row

/-- Reads records, the first of them being number `number`. -/
def readRows (layout : Layout) (expected : Nat) (number : Nat) :
    List RawRecord → Except SamplesError (List Record)
  | [] => .ok []
  | r :: rs =>
    match readRecord layout expected r with
    | .error fault => .error ⟨number, r.start, fault⟩
    | .ok row => (readRows layout expected (number + 1) rs).map (row :: ·)

/-- The rows of a table from its records, of which the first is the header. -/
def ofRecords : List RawRecord → Except SamplesError Samples
  | [] => .ok empty
  | header :: rs =>
    (readRows (layoutOf header) header.fields.length 1 rs).map ofList

/-- Reads a table from bytes that arrive in pieces. -/
def readPieces (pieces : List (List UInt8)) : Except SamplesError Samples :=
  ofRecords (Delimited.scanPieces pieces)

/-- Reads a table from bytes. -/
def read (bytes : List UInt8) : Except SamplesError Samples :=
  ofRecords (Delimited.scan bytes)

end Samples

/-! ## Loading -/

/-- Why samples are not loaded. -/
inductive LoadError
  /-- The file cannot be opened. -/
  | unreadable (fault : Fault)
  /-- Its content is no table of samples. -/
  | malformed (error : SamplesError)
deriving DecidableEq

/-- The wording of an error. -/
def LoadError.message : LoadError → String
  | .unreadable fault => "Failed to read input file: " ++ fault.message
  | .malformed error => "Failed to parse CSV: " ++ error.message

namespace Samples

/-- The header of an input, if it has one, and the records after it. If the input cannot be read,
there is the fault in place of the header. The read is not tried again then, and so no records come
after it. -/
def headerStep : Except Fault (List UInt8) → Except Fault (Option RawRecord) × List RawRecord
  | .error fault => (.error fault, [])
  | .ok bytes =>
    let records := Delimited.scan bytes
    (.ok records.head?, records.tail)

/-- The rows of the records after a header. Without one they are read by position, and the first of
them says how many fields they have. -/
def rowsAfter (header : Option RawRecord) (rs : List RawRecord) : Except SamplesError Samples :=
  let layout := header.elim .positional layoutOf
  let expected := (header.or rs.head?).elim 0 (·.fields.length)
  (readRows layout expected 1 rs).map ofList

/-- Reads a table from what the read of its bytes came to. The fault of a read that fails at the
header is dropped, as that of a header which is not UTF-8 is. -/
def ofReading (input : Except Fault (List UInt8)) : Except SamplesError Samples :=
  let (header, rs) := headerStep input
  rowsAfter header.toOption.join rs

/-- Loads samples from a path. -/
def load {m : Type → Type} [Monad m] [Access m] (path : String) :
    m (Except LoadError Samples) := do
  match ← Access.openFile path with
  | .error fault => return .error (.unreadable fault)
  | .ok node => return (ofReading node.read).mapError .malformed

end Samples

end RehashReport
