import RehashReport.Number.Decimal

/-!
# Journal events

What a run reports about itself while it goes on, and how an event is written: its level, the name
of the program, a message if it has one, and its fields. Control characters in a message are written
as escapes, except those that blanks and lines are made of.
-/

namespace RehashReport.Journal

/-- How important an event is, the most important first. -/
inductive Level
  | error
  | warn
  | info
  | debug
  | trace
deriving DecidableEq, Repr

namespace Level

/-- The levels counted from one; zero is left for a filter that lets nothing through. -/
def rank : Level → Nat
  | .error => 1
  | .warn => 2
  | .info => 3
  | .debug => 4
  | .trace => 5

/-- The name of a level. -/
def name : Level → String
  | .error => "ERROR"
  | .warn => "WARN"
  | .info => "INFO"
  | .debug => "DEBUG"
  | .trace => "TRACE"

end Level

/-- What happened. -/
inductive Event
  /-- Samples are about to be read. -/
  | loading (input : String)
  | loadedRehashCounts (counts : List UInt64)
  | loadedBucketCounts (counts : List UInt64)
  | totalBuckets (total : UInt64)
  | frequencies (shares : List Binary64)
  | tailSums (sums : List UInt64)
  | cumulative (shares : List Binary64)
  /-- The chart is written. -/
  | saved (output : String) (rows : Nat) (buckets : UInt64)
  /-- The run ends with an error. -/
  | failed (message : String)
deriving DecidableEq

/-- The name that filters know the program by. -/
def source : String := "rehash_stats"

namespace Event

/-- The level of an event. -/
def level : Event → Level
  | .loading _ => .info
  | .saved _ _ _ => .info
  | .failed _ => .error
  | _ => .debug

/-- The message of an event, if it has one. -/
def message? : Event → Option String
  | .loading _ => some "Loading rehash statistics"
  | .loadedRehashCounts _ => some "Loaded rehash counts"
  | .loadedBucketCounts _ => some "Loaded occurrence counts"
  | .totalBuckets _ => some "Total buckets"
  | .frequencies _ => none
  | .tailSums _ => none
  | .cumulative _ => none
  | .saved _ _ _ => some "Saved rehash distribution chart"
  | .failed message => some message

/-- A list between brackets. -/
def listed {α : Type} (write : α → String) (xs : List α) : String :=
  "[" ++ ", ".intercalate (xs.map write) ++ "]"

/-- The names and values of an event's fields. -/
def fields : Event → List (String × String)
  | .loading input => [("input", input)]
  | .loadedRehashCounts counts => [("rehash_counts", listed (·.toNat.repr) counts)]
  | .loadedBucketCounts counts => [("counts", listed (·.toNat.repr) counts)]
  | .totalBuckets total => [("total", total.toNat.repr)]
  | .frequencies shares => [("percent_count", listed Binary64.listed shares)]
  | .tailSums sums => [("cumulative", listed (·.toNat.repr) sums)]
  | .cumulative shares => [("percent_cumulative", listed Binary64.listed shares)]
  | .saved output rows buckets =>
    [("output", output), ("rows", rows.repr), ("buckets", buckets.toNat.repr)]
  | .failed _ => []

/-- The names of all that an event says, its message among them. -/
def fieldNames (e : Event) : List String :=
  (if e.message?.isSome then ["message"] else []) ++ e.fields.map Prod.fst

/-- A character of a message. Those that could steer a terminal are written by their number. -/
def safeChar (c : Char) : List Char :=
  let n := c.toNat
  let digits := Nat.toDigits 16 n
  if n = 0x07 || n = 0x08 || n = 0x0C || n = 0x1B || n = 0x7F then
    ['\\', 'x'] ++ List.replicate (2 - digits.length) '0' ++ digits
  else if 0x80 ≤ n && n ≤ 0x9F then ['\\', 'u', '\x7b'] ++ digits ++ ['\x7d']
  else [c]

/-- A message with nothing in it that could steer a terminal. -/
def safeText (message : String) : String := String.ofList (message.toList.flatMap safeChar)

/-- An event as text. -/
def render (e : Event) : String :=
  let parts := (e.message?.map safeText).toList ++
    e.fields.map fun (name, value) => name ++ "=" ++ value
  e.level.name ++ " " ++ source ++ ": " ++ " ".intercalate parts

end Event

end RehashReport.Journal
