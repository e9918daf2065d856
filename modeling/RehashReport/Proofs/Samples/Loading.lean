import Mathlib
import RehashReport.Proofs.Delimited.Writing
import RehashReport.Proofs.Storage.FileTree
import RehashReport.Samples.Reader

/-!
# Loading samples

How an input arrives.  Bytes that come in pieces are read as if they had come at once, unless the
first piece cuts off a byte order mark (`readPieces_eq_read`).  If the first read fails, so does the
step to the header; its fault is dropped, and no record is left to be at fault
(`ofReading_error`).

What loading a path comes to, in every tree of files.  A path names a file, a directory or nothing
at all, and which of them is said without following it (`Names`).  A file gives what its bytes
give, and for a path that names nothing the fault of the storage is reported.  A directory is no
fault: it opens, its first read fails, and so it is taken for an empty table (`load_ends`).
-/

namespace RehashReport.Samples

open Storage (Fault FileTree)

/-! ## How bytes arrive -/

/-- Pieces are read as what they are joined to, up to an empty one, which is the end of the input.
If the first of them starts a byte order mark, it has to be longer than that. -/
theorem readPieces_eq_read {pieces : List (List UInt8)}
    (hmark : Utf8.byteOrderMark <+: (Delimited.untilEnd pieces).flatten →
      ∀ piece ∈ pieces.head?, Utf8.byteOrderMark.length < piece.length) :
    readPieces pieces = read (Delimited.untilEnd pieces).flatten := by
  rw [readPieces, read, Delimited.scanPieces_eq_scan hmark]

/-- An input that can be read is a table if its bytes are. -/
theorem ofReading_ok (bytes : List UInt8) : ofReading (.ok bytes) = read bytes := by
  rw [ofReading, headerStep, read]
  cases Delimited.scan bytes <;> rfl

/-- After a first read that fails there are no records. -/
theorem ofReading_error (fault : Fault) : ofReading (.error fault) = .ok empty := rfl

/-! ## What is loaded -/

theorem run_load (t : FileTree) (path : String) :
    (load path : StateM FileTree _).run t =
      (match t.openFile path with
        | .error fault => .error (.unreadable fault)
        | .ok node => (ofReading node.read).mapError .malformed, t) := by
  rw [load, StateT.run_bind, FileTree.run_openFile]
  cases t.openFile path <;> rfl

/-- **What loading a path comes to.**  The tree stays as it is.  There are samples if the path
names a file whose bytes are a table, and then they are those of the table; and also if it names a
directory, and then there are none.  The content is at fault just if the path names a file and its
bytes are no table, and the path just if it names nothing. -/
theorem load_ends (t : FileTree) (path : String) :
    ∃ result, (load path : StateM FileTree _).run t = (result, t) ∧
      (∀ s, result = .ok s ↔
        (∃ content, t.Names path (.file content) ∧ read content = .ok s) ∨
          t.Names path .directory ∧ s = empty) ∧
      (∀ error, result = .error (.malformed error) ↔
        ∃ content, t.Names path (.file content) ∧ read content = .error error) ∧
      ((∃ fault, result = .error (.unreadable fault)) ↔ ∀ node, ¬t.Names path node) := by
  refine ⟨_, run_load t path, ?_⟩
  simp only [← FileTree.openFile_eq_ok_iff]
  cases hopen : t.openFile path with
  | error fault => simp
  | ok node =>
    cases node with
    | directory => simp [Storage.Node.read, ofReading_error, Except.mapError, eq_comm]
    | file content =>
      cases hread : read content <;> simp [Storage.Node.read, ofReading_ok, Except.mapError, hread]

/-- A directory is taken for an empty table, although it names no file and cannot be read. -/
theorem not_names_file_of_load :
    let t : FileTree := ⟨[([['d']], .directory)], []⟩
    (load "d" : StateM FileTree _).run t = (.ok empty, t) ∧
      ¬∃ content, t.Names "d" (.file content) := by
  intro t
  have hopen : t.openFile "d" = .ok .directory := by decide +kernel
  refine ⟨by rw [run_load, hopen]; rfl, ?_⟩
  rintro ⟨content, hnames⟩
  have hfile := FileTree.openFile_eq_ok_iff.2 hnames
  rw [hopen] at hfile
  cases hfile

end RehashReport.Samples
