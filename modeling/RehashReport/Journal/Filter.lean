import RehashReport.Journal.Event
import RehashReport.Pattern.Basic
import RehashReport.Pattern.Reader
import RehashReport.Text.Basic
import RehashReport.Text.Characters
import RehashReport.Text.Numeral

/-!
# Journal filters

Which events are written. A filter is a list of directives, and each of them says which events it is
about and how important they have to be.
-/

namespace RehashReport.Journal

/-!
## Directives

A directive names the least important level that passes, and which events it is about: those of
sources whose name starts with a target, those within a span, and those with a certain field. It is
written as a level alone, as a target alone, or as both around an equals sign; the span and the
field stand between brackets, the field in braces. `Directive.ofText?` reads a directive,
`Directive.applies` says which events it is about, and `Directive.givesWay` which of two decides.
-/

/-- A field that is asked for, with or without a value. -/
structure FieldTest where
  name : List Char
  value : Option (List Char)
deriving DecidableEq, Repr

/-- A level for some events; what it does not say holds for any event. -/
structure Directive where
  target : Option (List Char)
  span : Option (List Char)
  field : Option FieldTest
  /-- The greatest rank that passes; zero stops everything. -/
  rank : Nat
deriving DecidableEq, Repr

namespace Directive

/-! ### Reading -/

/-- A text in lower-case ASCII letters. -/
def lower (text : List Char) : List Char := text.map Char.toLower

/-- The rank that a text names, by number or by name. -/
def rankOf? (text : List Char) : Option Nat :=
  match Numeral.readSigned 10 text with
  | .ok n => if n ≤ 5 then some n else none
  | .error _ =>
    if lower text = "off".toList then some 0
    else
      ([Level.error, .warn, .info, .debug, .trace].find? fun level =>
        lower level.name.toList = lower text).map Level.rank

/-- The rank after an equals sign; if nothing follows, everything passes. -/
def rankAfter? (text : List Char) : Option Nat :=
  if text = [] then some Level.trace.rank else rankOf? text

/-- Whether a target may start with a character. -/
def mayStart (c : Char) : Bool :=
  Text.isAlphanumeric c || c = '-' || c = ':' || c = '_'

/-- The part of a text between two places. -/
def part (text : List Char) (start stop : Nat) : List Char :=
  ((Utf8.placed 0 text).filter fun (place, _) => start ≤ place && place < stop).map Prod.snd

/-- The first place from a start on at which one of some characters stands. -/
def place? (signs : List Char) (text : List Char) (start : Nat) : Option Nat :=
  ((Utf8.placed 0 text).find? fun (place, c) => start ≤ place && c ∈ signs).map Prod.fst

/-- The character at a place. -/
def charAt? (text : List Char) (place : Nat) : Option Char := (Utf8.placed 0 text).lookup place

/-- Whether a field can have a value: any number, or whatever a usable pattern asks for. -/
def isValue (text : List Char) : Bool :=
  Numeral.isReal text || (Pattern.ofText? text).any Pattern.isUsable

/-- Reads a field: a name, or a name and its value around an equals sign. -/
def fieldTest? (text : List Char) : Option FieldTest :=
  let name := text.takeWhile (· ≠ '=')
  match text.dropWhile (· ≠ '=') with
  | [] => if name = [] then none else some ⟨name, none⟩
  | _ :: rest =>
    let value := rest.takeWhile (· ≠ '=')
    if isValue value then some ⟨name, some value⟩ else none

/-! Places are counted in bytes. Those of the signs are places in the text without the blanks around
it, and the parts between them are cut out of the text as it stands. So a blank in front shifts the
parts, and what follows an equals sign is no level then. -/

/-- Reads the end of a directive from a place on: nothing, or a level. -/
def endRank? (text trimmed : List Char) (place : Nat) : Option Nat :=
  match charAt? trimmed place with
  | none => some Level.trace.rank
  | some c => if c = '=' then rankAfter? (part text (place + 1) (Utf8.size text)) else none

/-- Reads a directive from the place after its opening bracket. -/
def scoped? (text trimmed : List Char) (target : Option (List Char)) (start : Nat) :
    Option Directive := do
  let stop ← place? [']', '\x7b'] trimmed start
  let span := part text start stop
  if charAt? trimmed stop = some ']' then
    return ⟨target, some span, none, ← endRank? text trimmed (stop + 1)⟩
  let close ← place? ['\x7d'] trimmed (stop + 1)
  let field ← fieldTest? (part text (stop + 1) close)
  guard (charAt? trimmed (close + 1) = some ']')
  let rank ← endRank? text trimmed (close + 2)
  return ⟨target, if span = [] then none else some span, some field, rank⟩

/-- Reads a directive without any sign: a level, or else a target for which everything passes. -/
def bare (text : List Char) : Directive :=
  match rankOf? text with
  | some rank => ⟨none, none, none, rank⟩
  | none => ⟨some text, none, none, Level.trace.rank⟩

/-- Reads a directive. -/
def ofText? (text : List Char) : Option Directive :=
  let trimmed := Text.trim text
  match trimmed with
  | [] => none
  | c :: _ =>
    if c = '[' then scoped? text trimmed none 1
    else if !mayStart c then none
    else
      match place? ['=', '['] trimmed 0 with
      | none => some (bare text)
      | some stop =>
        let target := part text 0 stop
        if charAt? trimmed stop = some '[' then scoped? text trimmed (some target) (stop + 1)
        else (endRank? text trimmed stop).map fun rank => ⟨some target, none, none, rank⟩

/-! ### Deciding -/

/-- Whether a directive is about an event. No event lies within a span, and the value of a field is
not looked at for an event alone. -/
def applies (d : Directive) (e : Event) : Bool :=
  d.span.isNone && d.target.all (·.isPrefixOf source.toList) &&
    d.field.all fun f => f.value.isNone && e.fieldNames.any fun name => name.toList = f.name

/-- How much of a source's name a directive fixes. -/
def reach (d : Directive) : Nat := d.target.elim 0 List.length

/-- Whether a name comes no later than another in the order of code points. -/
def nameAtMost : List Char → List Char → Bool
  | [], _ => true
  | _ :: _, [] => false
  | c :: cs, d :: ds => c.toNat < d.toNat || (c = d && nameAtMost cs ds)

/-- Whether a test asks for no more than another; of two names the later one counts as more. -/
def fieldAtMost : Option FieldTest → Option FieldTest → Bool
  | none, _ => true
  | some _, none => false
  | some f, some g => nameAtMost f.name g.name

/-- Whether a directive gives way to another that stands after it: the longer target decides, then
the field, and of equal ones the last. -/
def givesWay (d e : Directive) : Bool :=
  d.reach < e.reach || (d.reach = e.reach && fieldAtMost d.field e.field)

end Directive

/-!
## Journal filters

Which events are written. A filter is a list of directives between commas. Of those that are about
an event the most specific one decides whether the event passes; if there is none, it does not.
-/

/-- Which events are written. -/
structure Filter where
  directives : List Directive
deriving DecidableEq, Repr

namespace Filter

/-- What decides if nothing else is said: information, and whatever is more important. -/
def standard : Filter := ⟨[⟨none, none, none, Level.info.rank⟩]⟩

/-- Reads a filter; empty directives count for nothing. -/
def parse? (text : List Char) : Option Filter :=
  (((Text.split ',' text).filter fun piece => piece ≠ []).mapM Directive.ofText?).map Filter.mk

/-- The filter that a setting asks for: the standard one if there is none or it cannot be read. -/
def ofSetting (setting : Option String) : Filter :=
  match setting with
  | none => standard
  | some text => (parse? text.toList).getD standard

/-- The more specific of the best directive so far and the next one. -/
def prefer (best : Option Directive) (d : Directive) : Option Directive :=
  match best with
  | none => some d
  | some b => if b.givesWay d then some d else some b

/-- The directive that decides about an event. -/
def decisive? (f : Filter) (e : Event) : Option Directive :=
  (f.directives.filter (·.applies e)).foldl prefer none

/-- Whether an event passes. -/
def passes (f : Filter) (e : Event) : Bool :=
  (f.decisive? e).any fun d => e.level.rank ≤ d.rank

/-- The text of the events that pass, with a line end after each. -/
def render (f : Filter) (events : List Event) : String :=
  String.join ((events.filter f.passes).map fun e => e.render ++ "\n")

end Filter

end RehashReport.Journal
