import RehashReport.Session

/-!
# The program

Runs a session on the files of the system.
-/

namespace RehashReport

open Storage (Access Fault Node)

/-- The number of an error, which may come with its sign changed. -/
def errorNumber (code : UInt32) : Nat := code.toInt32.toInt.natAbs

/-- The fault that a failed call of the system stands for. -/
def faultOf : IO.Error → Fault
  | .noFileOrDirectory _ _ _ => .notFound
  | .inappropriateType _ code reason =>
    if errorNumber code = 20 then .notDirectory
    else if errorNumber code = 21 then .isDirectory
    else .other (errorNumber code) "Other" reason
  | .invalidArgument _ code reason =>
    if errorNumber code = 36 then .nameTooLong
    else .other (errorNumber code) "InvalidInput" reason
  | .permissionDenied _ _ _ => .other 13 "PermissionDenied" "Permission denied"
  | e => .other 5 "Other" (toString e)

/-- What a path leads to in the system. -/
def openSystemFile (path : String) : IO (Except Fault Node) := do
  if '\x00' ∈ path.toList then return .error .zeroCharacter
  try return .ok (.file (← IO.FS.readBinFile path).toList)
  catch e =>
    match faultOf e with
    | .isDirectory => return .ok .directory
    | fault => return .error fault

/-- Whether a path leads to a directory of the system. -/
def isSystemDirectory (path : String) : IO Bool := do
  try (← IO.FS.realPath path).isDir catch _ => return false

/-- Writes a file of the system. -/
def createSystemFile (path : String) (content : List UInt8) : IO (Except Fault Unit) := do
  if '\x00' ∈ path.toList then return .error .zeroCharacter
  try
    IO.FS.writeBinFile path ⟨content.toArray⟩
    return .ok ()
  catch e => return .error (faultOf e)

instance : Access IO where
  openFile := openSystemFile
  isDirectory := isSystemDirectory
  create := createSystemFile

end RehashReport

/-- Runs a session with the arguments and the `LOG_LEVEL` of the environment. -/
def main (arguments : List String) : IO UInt32 := do
  let session ← RehashReport.Session.run arguments (← IO.getEnv "LOG_LEVEL")
  IO.eprint session.errors
  IO.print session.output
  return session.exitCode.toUInt32
