import RehashReport.Storage.Path

/-!
# File trees

A tree of directories and files as a value, what following a path in it comes to, and the three
things that a report asks of storage, wherever it is kept.
-/

namespace RehashReport.Storage

/-!
## Storage faults

What can go wrong when a path is followed. A fault has a wording for readers and a longer one, with
its kind, for reports from deeper down.
-/

/-- Why a file cannot be opened or created. -/
inductive Fault
  /-- Nothing is there. -/
  | notFound
  /-- The path goes on below something that is no directory. -/
  | notDirectory
  /-- A file is wanted where a directory is. -/
  | isDirectory
  /-- The path or a name in it is longer than names may be. -/
  | nameTooLong
  /-- The path holds a zero character. -/
  | zeroCharacter
  /-- The system gives another reason. -/
  | other (code : Nat) (kind reason : String)
deriving DecidableEq, Repr

namespace Fault

/-- The number of a fault, its kind and the reason, for those that the system reports. -/
def details? : Fault → Option (Nat × String × String)
  | .notFound => some (2, "NotFound", "No such file or directory")
  | .notDirectory => some (20, "NotADirectory", "Not a directory")
  | .isDirectory => some (21, "IsADirectory", "Is a directory")
  | .nameTooLong => some (36, "InvalidFilename", "File name too long")
  | .zeroCharacter => none
  | .other code kind reason => some (code, kind, reason)

/-- What is said about a path with a zero character. -/
def zeroCharacterReason : String := "file name contained an unexpected NUL byte"

/-- The wording of a fault. -/
def message (f : Fault) : String :=
  match f.details? with
  | some (code, _, reason) => reason ++ " (os error " ++ code.repr ++ ")"
  | none => zeroCharacterReason

/-- The wording with all that is known. -/
def description (f : Fault) : String :=
  match f.details? with
  | some (code, kind, reason) =>
    "Os \x7b code: " ++ code.repr ++ ", kind: " ++ kind ++ ", message: \"" ++ reason ++ "\" \x7d"
  | none => "Error \x7b kind: InvalidInput, message: \"" ++ zeroCharacterReason ++ "\" \x7d"

end Fault

/-!
## File trees

A tree of directories and files as a value, and what following a path in it comes to. Each entry has
the names that lead to it from the root; the root itself is always there. Paths that do not start
at the root start at the working directory.
-/

/-- What is at a place of the tree. -/
inductive Node
  | file (content : List UInt8)
  | directory
deriving DecidableEq

/-- Reads what a path has led to. A directory opens like a file, but the read fails. -/
def Node.read : Node → Except Fault (List UInt8)
  | .file content => .ok content
  | .directory => .error .isDirectory

/-- The names on the way from the root to a place. -/
abbrev Location := List Name

/-- A tree of files. What is there can be read, and files can be written everywhere: permissions,
links, devices, and disks that are full or read-only are left out. -/
structure FileTree where
  entries : List (Location × Node)
  workingDirectory : Location
deriving DecidableEq

/-- The bytes of a name. -/
def Name.size (name : Name) : Nat := name.foldl (fun size c => size + c.utf8Size) 0

/-- The longest name. -/
def longestName : Nat := 255

/-- The shortest path that is too long. -/
def pathLimit : Nat := 4096

namespace FileTree

/-- What is at a location. -/
def node? (t : FileTree) (l : Location) : Option Node :=
  if l = [] then some .directory else t.entries.lookup l

/-- Puts something at a location, in place of what was there. -/
def insert (t : FileTree) (l : Location) (n : Node) : FileTree :=
  { t with entries := (l, n) :: t.entries.filter fun e => !decide (e.1 = l) }

/-- What was put at a location is there. -/
theorem node?_insert_self (t : FileTree) {l : Location} (h : l ≠ []) (n : Node) :
    (t.insert l n).node? l = some n := by
  simp [node?, insert, h]

private theorem lookup_filter_ne {l k : Location} (h : k ≠ l) (entries : List (Location × Node)) :
    (entries.filter fun e => !decide (e.1 = l)).lookup k = entries.lookup k := by
  induction entries with
  | nil => rfl
  | cons e es ih =>
    obtain ⟨a, n⟩ := e
    by_cases ha : a = l
    · have hk : (k == l) = false := by simp [h]
      simp [List.lookup_cons, ha, hk, ih]
    · simp [List.lookup_cons, ha, ih]

/-- Nothing else changes. -/
theorem node?_insert_of_ne (t : FileTree) {l k : Location} (h : k ≠ l) (n : Node) :
    (t.insert l n).node? k = t.node? k := by
  have : (k == l) = false := by simp [h]
  simp only [node?, insert, List.lookup_cons, this, lookup_filter_ne h]

/-- Follows names from a location that holds something. -/
def follow (t : FileTree) (l : Location) : List Name → Except Fault Location
  | [] => .ok l
  | name :: names =>
    if t.node? l ≠ some .directory then .error .notDirectory
    else if name = above then t.follow l.dropLast names
    else if longestName < Name.size name then .error .nameTooLong
    else if t.node? (l ++ [name]) = none then .error .notFound
    else t.follow (l ++ [name]) names

/-- What is wrong with a path before it is followed. -/
def pathFault? (path : List Char) : Option Fault :=
  if '\x00' ∈ path then some .zeroCharacter
  else if path = [] then some .notFound
  else if pathLimit ≤ Name.size path then some .nameTooLong
  else none

/-- Where a path starts. -/
def start (t : FileTree) (path : List Char) : Location :=
  if Path.isAbsolute path then [] else t.workingDirectory

/-- Whether a path has to lead to a directory by the way it ends. -/
def wantsDirectory (path : List Char) : Bool :=
  (Text.split '/' path).getLast?.any Path.isIdle

/-- What a path leads to. -/
def openFile (t : FileTree) (path : String) : Except Fault Node :=
  let path := path.toList
  match pathFault? path with
  | some fault => .error fault
  | none =>
    match t.follow (t.start path) (Path.names path) with
    | .error fault => .error fault
    | .ok l =>
      match t.node? l with
      | none => .error .notFound
      | some .directory => .ok .directory
      | some (.file content) =>
        if wantsDirectory path then .error .notDirectory else .ok (.file content)

/-- Whether a path leads to a directory. -/
def isDirectory (t : FileTree) (path : String) : Bool :=
  match t.openFile path with
  | .ok .directory => true
  | _ => false

/-- Where a file of a path would be: the directories on the way have to be there, and the last name
must not be the way into a directory. -/
def target (t : FileTree) (path : List Char) : Except Fault Location :=
  match pathFault? path with
  | some fault => .error fault
  | none =>
    let names := Path.names path
    match names.getLast? with
    | none => .error .isDirectory
    | some name =>
      if name = above || Path.endsInDot path then
        match t.openFile (String.ofList path) with
        | .error fault => .error fault
        | .ok _ => .error .isDirectory
      else
        match t.follow (t.start path) names.dropLast with
        | .error fault => .error fault
        | .ok l =>
          if t.node? l ≠ some .directory then .error .notDirectory
          else if Path.endsInSlash path then .error .isDirectory
          else if longestName < Name.size name then .error .nameTooLong
          else .ok (l ++ [name])

/-- Writes a file, in place of one that is there. -/
def create (t : FileTree) (path : String) (content : List UInt8) : Except Fault FileTree :=
  match t.target path.toList with
  | .error fault => .error fault
  | .ok l =>
    if t.node? l = some .directory then .error .isDirectory
    else .ok (t.insert l (.file content))

/-- Adds the directories on the way from a location along some names. -/
def addDirectoriesFrom (t : FileTree) (l : Location) : List Name → FileTree
  | [] => t
  | name :: names =>
    if name = above then t.addDirectoriesFrom l.dropLast names
    else
      let next := l ++ [name]
      match t.node? next with
      | some _ => t.addDirectoriesFrom next names
      | none => (t.insert next .directory).addDirectoriesFrom next names

/-- Adds a directory and those on the way to it. -/
def addDirectories (t : FileTree) (path : String) : FileTree :=
  t.addDirectoriesFrom (t.start path.toList) (Path.names path.toList)

end FileTree

/-!
## Access to storage

The three things that a report asks of storage, wherever it is kept. A `FileTree` answers them as a
state.
-/

/-- Access to files from within `m`. -/
class Access (m : Type → Type) where
  /-- What a path leads to, or why it leads nowhere. -/
  openFile : String → m (Except Fault Node)
  /-- Whether a path leads to a directory. -/
  isDirectory : String → m Bool
  /-- Writes a file, in place of one that is there. -/
  create : String → List UInt8 → m (Except Fault Unit)

instance : Access (StateM FileTree) where
  openFile path := fun t => (t.openFile path, t)
  isDirectory path := fun t => (t.isDirectory path, t)
  create path content := fun t =>
    match t.create path content with
    | .ok u => (.ok (), u)
    | .error fault => (.error fault, t)

end RehashReport.Storage
