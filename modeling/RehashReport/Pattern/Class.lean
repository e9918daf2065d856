import RehashReport.Pattern.Basic
import RehashReport.Text.Basic
import RehashReport.Text.Numeral

/-!
# Escapes and classes in patterns

The parts of a pattern that hold no other patterns: blanks and comments, escapes, and classes of
characters between brackets.
-/

namespace RehashReport.Pattern

/-!
## Blanks and escapes in patterns

What is passed over in a verbose pattern, and what a backslash and the characters after it stand
for. Characters that are named between braces are not read, nor are properties of characters.
-/

/-! ### Blanks and comments -/

/-- Drops blanks, and comments from a number sign to the end of the line. -/
def dropIdle : Bool → List Char → List Char
  | _, [] => []
  | true, c :: cs => dropIdle (c ≠ '\n') cs
  | false, c :: cs =>
    if Text.isBlank c then dropIdle false cs
    else if c = '#' then dropIdle true cs
    else c :: cs

/-- Drops what is passed over. -/
def skip (verbose : Bool) (text : List Char) : List Char :=
  if verbose then dropIdle false text else text

/-- The first character that is no blank; one number sign is passed over as well, but not the
comment after it. -/
def firstVisible? : Bool → List Char → Option Char
  | _, [] => none
  | signSeen, c :: cs =>
    if Text.isBlank c then firstVisible? signSeen cs
    else if c = '#' && !signSeen then firstVisible? true cs
    else some c

/-- The character to look at before a hyphen is taken as the sign of a range. -/
def ahead? (verbose : Bool) (text : List Char) : Option Char :=
  if verbose then (firstVisible? false text).or text.head? else text.head?

/-! ### Escapes -/

/-- What a backslash and what follows it stand for. -/
inductive Escape
  | literal (l : Literal)
  | anchor
  | wordBoundary
  | short (negated : Bool)
deriving DecidableEq, Repr

/-- The letters that stand for controls. -/
def controls : List (Char × Char) :=
  [('a', '\x07'), ('f', '\x0C'), ('n', '\n'), ('r', '\r'), ('t', '\t'), ('v', '\x0B')]

/-- How many hexadecimal digits follow a letter, if they give a character. -/
def hexadecimalWidths : List (Char × Nat) := [('x', 2), ('u', 4), ('U', 8)]

/-- Reads a number of hexadecimal digits onto the value read so far. -/
def readHexadecimal (verbose : Bool) : Nat → Nat → List Char → Option (Nat × List Char)
  | 0, value, text => some (value, text)
  | digits + 1, value, text =>
    match skip verbose text with
    | [] => none
    | c :: cs =>
      match Numeral.digitValue 16 c with
      | none => none
      | some d => readHexadecimal verbose digits (value * 16 + d) cs

/-- The character with a code point. -/
def charOf? (n : Nat) : Option Char := if n.isValidChar then some (Char.ofNat n) else none

/-- Whether a backslash makes a character stand for itself: the signs of ASCII but for those of the
sides of words. -/
def isSign (c : Char) : Bool := c.toNat < 0x80 && !c.isAlphanum && c ≠ '<' && c ≠ '>'

/-- Reads what follows a backslash. -/
def readEscape (verbose : Bool) : List Char → Option (Escape × List Char)
  | [] => none
  | c :: cs =>
    match hexadecimalWidths.lookup c with
    | some width => do
      let (n, rest) ← readHexadecimal verbose width 0 cs
      let char ← charOf? n
      return (.literal ⟨char, width = 2⟩, rest)
    | none =>
      match controls.lookup c with
      | some control => some (.literal ⟨control, false⟩, cs)
      | none =>
        if c ∈ ['d', 's', 'w'] then some (.short false, cs)
        else if c ∈ ['D', 'S', 'W'] then some (.short true, cs)
        else if c ∈ ['A', 'z'] then some (.anchor, cs)
        else if c ∈ ['b', 'B', '<', '>'] then some (.wordBoundary, cs)
        else if isSign c then some (.literal ⟨c, false⟩, cs)
        else none

/-!
## Classes of characters in patterns

From the text between brackets to a set. Classes stand within classes, and the signs of operations
join what is before them with what is after them, from left to right.
-/

/-- An escape as part of a class. -/
def Escape.set? : Escape → Option ClassSet
  | .literal l => some (.literal l)
  | .short negated => some (.short negated)
  | .anchor => none
  | .wordBoundary => none

/-- Reads an end of a range, or what is no range. -/
def readMember (verbose : Bool) : List Char → Option (Escape × List Char)
  | [] => none
  | c :: cs => if c = '\\' then readEscape verbose cs else some (.literal ⟨c, false⟩, cs)

/-- Reads the second end of a range after its hyphen. -/
def readRangeEnd (verbose : Bool) (first : Escape) (text : List Char) :
    Option (ClassSet × List Char) :=
  match first, readMember verbose (skip verbose text) with
  | .literal a, some (.literal b, rest) =>
    if a.char.toNat ≤ b.char.toNat then some (.range a b, rest) else none
  | _, _ => none

/-- Reads a range, or what is no range. A hyphen before a closing bracket or another hyphen makes no
range. -/
def readRange (verbose : Bool) (text : List Char) : Option (ClassSet × List Char) := do
  let (first, rest) ← readMember verbose text
  match skip verbose rest with
  | [] => none
  | c :: cs =>
    if c = '-' && ahead? verbose cs ≠ some ']' && ahead? verbose cs ≠ some '-' then
      readRangeEnd verbose first cs
    else return (← first.set?, c :: cs)

/-- The names of the classes of ASCII. -/
def classNames : List String :=
  ["alnum", "alpha", "ascii", "blank", "cntrl", "digit", "graph", "lower", "print", "punct",
    "space", "upper", "word", "xdigit"]

/-- Reads a named class after its opening bracket: a name between colons, after a circumflex if the
class is negated. -/
def readNamed : List Char → Option (Bool × List Char)
  | ':' :: cs =>
    let negated := decide (cs.head? = some '^')
    let cs := if negated then cs.drop 1 else cs
    match cs.dropWhile (· ≠ ':') with
    | ':' :: ']' :: rest =>
      if String.ofList (cs.takeWhile (· ≠ ':')) ∈ classNames then some (negated, rest) else none
    | _ => none
  | _ => none

/-- Reads the circumflex of a negated class after its opening bracket. -/
def readNegation (verbose : Bool) (text : List Char) : Bool × List Char :=
  match skip verbose text with
  | '^' :: rest => (true, rest)
  | rest => (false, rest)

/-- The set of some sets, the last of them first. -/
def ClassSet.ofReversed : List ClassSet → ClassSet
  | [] => .empty
  | [set] => set
  | sets => .union sets.reverse

/-- Some sets, the last of them first, combined with what stands before the sign of an operation. -/
def ClassSet.join (left : Option ClassSet) (sets : List ClassSet) : ClassSet :=
  match left with
  | none => .ofReversed sets
  | some left => .operation left (.ofReversed sets)

/-- Reads a class up to its closing bracket, after what stands before the last sign of an operation
and the sets since then. At the start hyphens stand for themselves, and so does a closing bracket
that comes first of all. -/
def readSet : Nat → Bool → Bool → Option ClassSet → List ClassSet → List Char →
    Option (ClassSet × List Char)
  | 0, _, _, _, _, _ => none
  | fuel + 1, verbose, atStart, left, sets, text =>
    match skip verbose text with
    | [] => none
    | c :: cs =>
      if atStart && c = '-' then
        readSet fuel verbose true left (.literal ⟨c, false⟩ :: sets) cs
      else if atStart && c = ']' && sets.isEmpty then
        readSet fuel verbose false left [.literal ⟨c, false⟩] cs
      else if c = ']' then some (.join left sets, cs)
      else if c = '[' then
        match readNamed cs with
        | some (negated, rest) => readSet fuel verbose false left (.named negated :: sets) rest
        | none =>
          let (negated, inner) := readNegation verbose cs
          match readSet fuel verbose true none [] inner with
          | none => none
          | some (set, rest) =>
            readSet fuel verbose false left (.bracketed negated set :: sets) rest
      else if (c = '&' || c = '-' || c = '~') && cs.head? = some c then
        readSet fuel verbose false (some (.join left sets)) [] (cs.drop 1)
      else
        match readRange verbose (c :: cs) with
        | none => none
        | some (set, rest) => readSet fuel verbose false left (set :: sets) rest

/-- Reads a class after its opening bracket. -/
def readClass (verbose : Bool) (text : List Char) : Option (Pattern × List Char) :=
  let (negated, inner) := readNegation verbose text
  (readSet (inner.length + 1) verbose true none [] inner).map fun (set, rest) =>
    (.oneOf negated set, rest)

end RehashReport.Pattern
