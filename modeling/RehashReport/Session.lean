import RehashReport.Journal.Filter
import RehashReport.Report

/-!
# Sessions

The program as it is called: arguments and a setting for the journal go in, and an exit code and
two streams of text come out.
-/

namespace RehashReport

/-- What a call of the program comes to. -/
structure Session where
  exitCode : UInt8
  output : String
  /-- The text of the error stream. -/
  errors : String
deriving DecidableEq

namespace Session

/-- The answer to arguments that ask for no run: help goes to the output, and anything else to the
errors, with a hint. -/
def ofFault : OptionsFault → Session
  | .help => ⟨0, OptionsFault.help.message ++ "\n", ""⟩
  | fault => ⟨1, "", fault.message ++ "\nRun rehash-stats --help for more information.\n"⟩

/-- The answer to a run. -/
def ofReport (filter : Journal.Filter) (r : Report) : Session :=
  ⟨if r.failure.isSome then 1 else 0, r.output, filter.render r.journal⟩

/-- Calls the program. -/
def run {m : Type → Type} [Monad m] [Storage.Access m] (arguments : List String)
    (setting : Option String) : m Session := do
  match Options.parse arguments with
  | .error fault => return ofFault fault
  | .ok options => return ofReport (.ofSetting setting) (← Report.run options)

end Session

end RehashReport
