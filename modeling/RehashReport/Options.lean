/-!
# Command line options

Where the samples are read from, where the chart goes, and whether the table is printed. Both paths
have defaults and may be given once each; whatever follows their options is taken as the path, even
if it looks like an option itself. `Options.parse` reads a list of arguments from the left and stops
at the first that is wrong.
-/

namespace RehashReport

/-- What a run is asked to do. -/
structure Options where
  input : String
  output : String
  noDisplay : Bool
deriving DecidableEq, Repr

/-- Why arguments are not options for a run. -/
inductive OptionsFault
  /-- They ask for help. -/
  | help
  /-- Something that is no option, or a value without one. -/
  | unrecognized (argument : String)
  /-- An option stands last that needs a value. -/
  | missingValue (option : String)
  /-- An option is given a second value. -/
  | duplicate (option value : String)
  /-- An option follows the request for help. -/
  | afterHelp
deriving DecidableEq, Repr

namespace Options

/-- Where the samples are if no option says otherwise. -/
def defaultInput : String := "../csv/main_rehash.csv"

/-- Where the chart goes if no option says otherwise. -/
def defaultOutput : String := "../figures/main_rehash.png"

/-- The help text. -/
def helpText : String := "Usage: rehash-stats [-i <input>] [-o <output>] [-q]

Frequency and cumulative distribution of hash table bucket rehash counts

Options:
  -i, --input       rehash CSV produced by the instrumentation run (default:
                    ../csv/main_rehash.csv)
  -o, --output      where to save the chart (default:
                    ../figures/main_rehash.png)
  -q, --no-display  do not print the distribution table
  --help, help      display usage information
"

end Options

/-- The text that is shown instead of a run. -/
def OptionsFault.message : OptionsFault → String
  | .help => Options.helpText
  | .unrecognized argument => "Unrecognized argument: " ++ argument ++ "\n"
  | .missingValue option => "No value provided for option '" ++ option ++ "'.\n"
  | .duplicate option value =>
    "Error parsing option '" ++ option ++ "' with value '" ++ value ++
      "': duplicate values provided\n"
  | .afterHelp => "Trailing arguments are not allowed after \x60help\x60."

namespace Options

/-- The options that arguments have given so far. -/
structure Given where
  input : Option String
  output : Option String
  noDisplay : Bool
  /-- Help was asked for. -/
  help : Bool
  /-- Two dashes have ended the options. -/
  ended : Bool
deriving DecidableEq, Repr

/-- Nothing given. -/
def Given.none : Given := ⟨.none, .none, false, false, false⟩

/-- The options with defaults for what was not given. -/
def Given.options (g : Given) : Options :=
  ⟨g.input.getD defaultInput, g.output.getD defaultOutput, g.noDisplay⟩

/-- What an argument is, where an option may stand. -/
inductive Kind
  | help
  | endOfOptions
  | noDisplay
  | input
  | output
  /-- It starts with a dash but names no option. -/
  | unknown
  /-- It does not start with a dash. -/
  | plain
deriving DecidableEq, Repr

/-- The kind of an argument. -/
def kind (argument : String) : Kind :=
  if argument = "--help" ∨ argument = "help" then .help
  else if argument = "--" then .endOfOptions
  else if argument = "-q" ∨ argument = "--no-display" then .noDisplay
  else if argument = "-i" ∨ argument = "--input" then .input
  else if argument = "-o" ∨ argument = "--output" then .output
  else if argument.toList.head? = some '-' then .unknown
  else .plain

/-- Enters the value of an option that may have one value. -/
def once (old : Option String) (option value : String) : Except OptionsFault (Option String) :=
  match old with
  | none => .ok (some value)
  | some _ => .error (.duplicate option value)

/-- Reads arguments on top of those given. After a request for help, only another one and two dashes
may follow. -/
def readFrom (g : Given) : List String → Except OptionsFault Given
  | [] => .ok g
  | argument :: rest =>
    if g.ended then .error (.unrecognized argument)
    else
      match kind argument with
      | .help => readFrom { g with help := true } rest
      | .endOfOptions => readFrom { g with ended := true } rest
      | .plain => .error (.unrecognized argument)
      | .unknown => .error (if g.help then .afterHelp else .unrecognized argument)
      | .noDisplay =>
        if g.help then .error .afterHelp else readFrom { g with noDisplay := true } rest
      | .input =>
        if g.help then .error .afterHelp
        else
          match rest with
          | [] => .error (.missingValue argument)
          | value :: rest =>
            match once g.input argument value with
            | .error fault => .error fault
            | .ok input => readFrom { g with input := input } rest
      | .output =>
        if g.help then .error .afterHelp
        else
          match rest with
          | [] => .error (.missingValue argument)
          | value :: rest =>
            match once g.output argument value with
            | .error fault => .error fault
            | .ok output => readFrom { g with output := output } rest

/-- Reads all arguments. -/
def parse (arguments : List String) : Except OptionsFault Options :=
  match readFrom .none arguments with
  | .error fault => .error fault
  | .ok g => if g.help then .error .help else .ok g.options

end Options

end RehashReport
