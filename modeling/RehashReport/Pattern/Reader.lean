import RehashReport.Pattern.Class
import RehashReport.Text.Basic
import RehashReport.Text.Characters

/-!
# Reading patterns

From a text to a pattern. A brace outside of classes is refused, as counted repetitions are not
read. Every step takes at least one character, so the length of the text bounds the number of steps.
-/

namespace RehashReport.Pattern

/-!
## The start of a group

What follows the opening bracket of a group: nothing, a name, or a change of flags. A change of
flags may also stand alone, without a group.
-/

/-- The flag of a letter. -/
def Flag.ofChar? (c : Char) : Option Flag :=
  [('i', Flag.ignoreCase), ('m', .multiLine), ('s', .dotAll), ('U', .swapGreed), ('u', .unicode),
    ('R', .lineEnds), ('x', .verbose)].lookup c

/-- Whether no flag is there twice. -/
def distinct : List Flag → Bool
  | [] => true
  | f :: fs => !decide (f ∈ fs) && distinct fs

/-- The change that letters and letters after a hyphen ask for, if no flag is there twice. -/
def FlagChange.ofLetters? (on off : List Char) : Option FlagChange := do
  let on ← on.mapM Flag.ofChar?
  let off ← off.mapM Flag.ofChar?
  if distinct (on ++ off) then some ⟨on, off⟩ else none

/-- Reads a change of flags: flags that are turned on, and after a hyphen those that are turned
off. -/
def FlagChange.ofText? (text : List Char) : Option FlagChange :=
  match Text.split '-' text with
  | [on] => ofLetters? on []
  | [on, off] => if off = [] then none else ofLetters? on off
  | _ => none

/-- Whether a text can be the name of a group. -/
def isGroupName : List Char → Bool
  | [] => false
  | c :: cs =>
    (c = '_' || Text.isAlphabetic c) &&
      cs.all fun c => c ∈ ['_', '.', '[', ']'] || Text.isAlphanumeric c

/-- How a group starts. -/
inductive GroupStart
  /-- There is no group but only a change of flags. -/
  | flags (change : FlagChange)
  | body (change : FlagChange) (name : Option (List Char))
deriving DecidableEq, Repr

/-- Reads the name of a group up to the closing angle bracket. -/
def readGroupName (text : List Char) : Option (GroupStart × List Char) :=
  let name := text.takeWhile (· ≠ '>')
  match text.dropWhile (· ≠ '>') with
  | [] => none
  | _ :: rest => if isGroupName name then some (.body .unchanged (some name), rest) else none

/-- Reads a change of flags up to the colon before a group, or up to the end of the bracket. -/
def readFlags (text : List Char) : Option (GroupStart × List Char) :=
  let written := text.takeWhile fun c => c ≠ ':' && c ≠ ')'
  match text.dropWhile (fun c => c ≠ ':' && c ≠ ')'), FlagChange.ofText? written with
  | c :: rest, some change =>
    if c = ':' then some (.body change none, rest)
    else if written = [] then none
    else some (.flags change, rest)
  | _, _ => none

/-- Reads the start of a group after its opening bracket. -/
def readGroupStart (verbose : Bool) (text : List Char) : Option (GroupStart × List Char) :=
  match skip verbose text with
  | '?' :: 'P' :: '<' :: rest => readGroupName rest
  | '?' :: '<' :: rest => readGroupName rest
  | '?' :: rest => readFlags rest
  | rest => some (.body .unchanged none, rest)

/-! ## Patterns -/

/-- How far a pattern is read: the rest of the text, whether blanks are passed over, and the names
of groups. -/
structure Reading where
  rest : List Char
  verbose : Bool
  names : List (List Char)
deriving DecidableEq, Repr

/-- The pattern of some patterns, the last of them first, one after the other. -/
def ofReversed : List Pattern → Pattern
  | [] => .empty
  | [p] => p
  | ps => .concat ps.reverse

/-- The pattern of some branches and of the parts of one more, the last of them first. -/
def ofBranches (branches parts : List Pattern) : Pattern :=
  match branches with
  | [] => ofReversed parts
  | branches => .alternation (ofReversed parts :: branches).reverse

/-- Whether a part can be repeated. -/
def isRepeatable : Pattern → Bool
  | .flags _ => false
  | _ => true

/-- An escape as a pattern. -/
def Escape.pattern : Escape → Pattern
  | .literal l => .literal l
  | .anchor => .anchor
  | .wordBoundary => .wordBoundary
  | .short negated => .short negated

/-- Reads a part that starts with no sign of a group, class or repetition. -/
def readSingle (verbose : Bool) (c : Char) (cs : List Char) : Option (Pattern × List Char) :=
  if c = '\\' then (readEscape verbose cs).map fun (escape, rest) => (escape.pattern, rest)
  else if c = '.' then some (.dot, cs)
  else if c = '^' || c = '$' then some (.anchor, cs)
  else if c = '\x7b' then none
  else some (.literal ⟨c, false⟩, cs)

/-- Drops the question mark that makes a repetition lazy. -/
def dropLazy : List Char → List Char
  | '?' :: cs => cs
  | cs => cs

/-- Reads up to the closing bracket of a group or to the end, after some branches and some parts of
one more. -/
def readBranches : Nat → Reading → List Pattern → List Pattern → Option (Pattern × Reading)
  | 0, _, _, _ => none
  | fuel + 1, r, branches, parts =>
    match skip r.verbose r.rest with
    | [] => some (ofBranches branches parts, { r with rest := [] })
    | c :: cs =>
      if c = ')' then some (ofBranches branches parts, { r with rest := c :: cs })
      else if c = '|' then
        readBranches fuel { r with rest := cs } (ofReversed parts :: branches) []
      else if c = '(' then
        match readGroupStart r.verbose cs with
        | none => none
        | some (.flags change, rest) =>
          readBranches fuel ⟨rest, change.apply .verbose r.verbose, r.names⟩ branches
            (.flags change :: parts)
        | some (.body change name, rest) =>
          if name.any (· ∈ r.names) then none
          else
            let inner : Reading := ⟨rest, change.apply .verbose r.verbose, name.toList ++ r.names⟩
            match readBranches fuel inner [] [] with
            | some (p, ⟨')' :: rest, _, names⟩) =>
              readBranches fuel ⟨rest, r.verbose, names⟩ branches (.group change p :: parts)
            | _ => none
      else if c = '[' then
        match readClass r.verbose cs with
        | none => none
        | some (p, rest) => readBranches fuel { r with rest := rest } branches (p :: parts)
      else if c = '*' || c = '+' || c = '?' then
        match parts with
        | [] => none
        | p :: before =>
          if isRepeatable p then
            readBranches fuel { r with rest := dropLazy cs } branches (.repetition p :: before)
          else none
      else
        match readSingle r.verbose c cs with
        | none => none
        | some (p, rest) => readBranches fuel { r with rest := rest } branches (p :: parts)

/-- Reads a pattern. -/
def ofText? (text : List Char) : Option Pattern :=
  match readBranches (text.length + 1) ⟨text, false, []⟩ [] [] with
  | some (p, ⟨[], _, _⟩) => some p
  | _ => none

end RehashReport.Pattern
