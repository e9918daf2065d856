import RehashReport.Text.Basic

/-!
# Scanning delimited text

An automaton over bytes that cuts comma separated text into records. A record ends at a line feed
or a carriage return, and records without a byte are skipped, so a line may end in either byte or
in both. A field is quoted if a quote is its very first byte; inside, a doubled quote is a quote
and nothing else is special.

`Cursor.step` takes one byte. `Cursor.run` is the cursor after some bytes and `Cursor.emitted` the
records that they complete; both are compatible with appending (`run_append`, `emitted_append`).
`scanFrom` adds the record that the end of the input completes, and `scan` starts at the front of
an input.
-/

namespace RehashReport.Delimited

/-!
## Raw records

What a scan of delimited text yields: records of byte fields, each with the position at which it
starts.
-/

/-- A position in the input: how many bytes stand before it, and its line, counted from one. -/
structure Position where
  byte : Nat
  line : Nat
deriving DecidableEq, Repr

/-- The position at which every input starts. -/
def Position.origin : Position := ⟨0, 1⟩

/-- Byte `0x0A`, which alone counts lines. -/
def lineFeed : UInt8 := 0x0A

/-- Byte `0x0D`, which ends a record but no line. -/
def carriageReturn : UInt8 := 0x0D

/-- The byte between two fields. -/
def comma : UInt8 := 0x2C

/-- The byte around a quoted field. -/
def quote : UInt8 := 0x22

/-- The position after one more byte. -/
def Position.advance (p : Position) (b : UInt8) : Position :=
  ⟨p.byte + 1, if b = lineFeed then p.line + 1 else p.line⟩

/-- A record as it stands in the input: where it starts, and its fields without their quotes. -/
structure RawRecord where
  start : Position
  fields : List (List UInt8)
deriving DecidableEq, Repr

/-! ## Scans -/

/-- Where in a record a cursor stands. -/
inductive Place
  /-- Before the first byte of a record. -/
  | recordStart
  /-- Before the first byte of a field of a record that has begun. -/
  | fieldStart
  /-- In a field, outside quotes. -/
  | bare
  /-- In a field, inside quotes. -/
  | quoted
  /-- After a quote inside quotes: it closes them, or is the first of a doubled quote. -/
  | quoteSeen
deriving DecidableEq, Repr

/-- The state of a scan. -/
structure Cursor where
  place : Place
  /-- Bytes of the open field, the last one first. -/
  field : List UInt8
  /-- Completed fields of the open record, the last one first. -/
  fields : List (List UInt8)
  /-- Where the open record starts: right after the byte that ended the record before it. -/
  opened : Position
  /-- The position of the next byte. -/
  here : Position
deriving DecidableEq, Repr

namespace Cursor

/-- A cursor at the start of a record. -/
def startingAt (p : Position) : Cursor := ⟨.recordStart, [], [], p, p⟩

/-- The open record, completed here. -/
def record (c : Cursor) : RawRecord :=
  ⟨c.opened, (c.field.reverse :: c.fields).reverse⟩

/-- Adds a byte to the open field and moves to a place. -/
def push (c : Cursor) (b : UInt8) (place : Place) : Cursor :=
  { c with place := place, field := b :: c.field, here := c.here.advance b }

/-- Passes a byte that belongs to no field, and moves to a place. -/
def pass (c : Cursor) (b : UInt8) (place : Place) : Cursor :=
  { c with place := place, here := c.here.advance b }

/-- Completes the open field at a comma. -/
def closeField (c : Cursor) (b : UInt8) : Cursor :=
  { c with place := .fieldStart, field := [], fields := c.field.reverse :: c.fields
           here := c.here.advance b }

/-- Completes the open record at the byte that ends it. -/
def closeRecord (c : Cursor) (b : UInt8) : Cursor :=
  startingAt (c.here.advance b)

/-- Whether a byte ends records. -/
def isTerminator (b : UInt8) : Bool :=
  b == lineFeed || b == carriageReturn

/-- A byte outside quotes that is not the first of its field. -/
def stepBare (c : Cursor) (b : UInt8) : Cursor × Option RawRecord :=
  if b = comma then (c.closeField b, none)
  else if isTerminator b then (c.closeRecord b, some c.record)
  else (c.push b .bare, none)

/-- The first byte of a field. -/
def stepFirst (c : Cursor) (b : UInt8) : Cursor × Option RawRecord :=
  if b = quote then (c.pass b .quoted, none) else c.stepBare b

/-- Takes one byte; the second component is the record that it completes. -/
def step (c : Cursor) (b : UInt8) : Cursor × Option RawRecord :=
  match c.place with
  | .recordStart => if isTerminator b then (c.pass b .recordStart, none) else c.stepFirst b
  | .fieldStart => c.stepFirst b
  | .bare => c.stepBare b
  | .quoted => if b = quote then (c.pass b .quoteSeen, none) else (c.push b .quoted, none)
  | .quoteSeen => if b = quote then (c.push b .quoted, none) else c.stepBare b

/-- The cursor after some bytes. -/
def run (c : Cursor) (bytes : List UInt8) : Cursor :=
  bytes.foldl (fun c b => (c.step b).1) c

/-- The records that some bytes complete. -/
def emitted (c : Cursor) : List UInt8 → List RawRecord
  | [] => []
  | b :: bs =>
    match c.step b with
    | (d, none) => d.emitted bs
    | (d, some r) => r :: d.emitted bs

/-- The record that the end of the input completes: any that has begun, even inside quotes. -/
def flush (c : Cursor) : List RawRecord :=
  match c.place with
  | .recordStart => []
  | _ => [c.record]

@[simp] theorem run_nil (c : Cursor) : c.run [] = c := rfl

@[simp] theorem run_cons (c : Cursor) (b : UInt8) (bs : List UInt8) :
    c.run (b :: bs) = (c.step b).1.run bs := rfl

theorem run_append (c : Cursor) (u v : List UInt8) : c.run (u ++ v) = (c.run u).run v := by
  simp [run, List.foldl_append]

@[simp] theorem emitted_nil (c : Cursor) : c.emitted [] = [] := rfl

theorem emitted_cons (c : Cursor) (b : UInt8) (bs : List UInt8) :
    c.emitted (b :: bs) = (c.step b).2.toList ++ (c.step b).1.emitted bs := by
  rw [emitted]
  split <;> simp_all

theorem emitted_append (c : Cursor) (u v : List UInt8) :
    c.emitted (u ++ v) = c.emitted u ++ (c.run u).emitted v := by
  induction u generalizing c with
  | nil => rfl
  | cons b bs ih => simp [emitted_cons, ih, List.append_assoc]

end Cursor

/-- All records of some bytes, read on from a cursor. -/
def scanFrom (c : Cursor) (bytes : List UInt8) : List RawRecord :=
  c.emitted bytes ++ (c.run bytes).flush

/-- The pieces of an input up to its end, which is a piece without bytes. -/
def untilEnd (pieces : List (List UInt8)) : List (List UInt8) := pieces.takeWhile (· ≠ [])

/-- All records of an input that arrives in pieces. A byte order mark is passed over, and its bytes
count, if the first piece starts with all of it; a first piece that is nothing else is taken for the
end of the input. Otherwise the pieces matter only joined. -/
def scanPieces (pieces : List (List UInt8)) : List RawRecord :=
  match untilEnd pieces with
  | [] => []
  | piece :: pieces =>
    if piece = Utf8.byteOrderMark then []
    else if Utf8.byteOrderMark.isPrefixOf piece then
      scanFrom (.startingAt ⟨Utf8.byteOrderMark.length, 1⟩)
        (piece.drop Utf8.byteOrderMark.length ++ pieces.flatten)
    else scanFrom (.startingAt .origin) (piece ++ pieces.flatten)

/-- All records of an input. -/
def scan (bytes : List UInt8) : List RawRecord :=
  scanPieces [bytes]

end RehashReport.Delimited
