/-!
# Patterns

Regular expressions, as far as it matters whether one can be used: what is repeated, grouped and put
side by side, which classes of characters are asked for, and where flags change. How often something
is repeated, and how classes are combined, is left out, because nothing is matched here.
`Pattern.depth` says how deep the parts of a pattern lie within each other, and `Pattern.isUsable`
whether it can be used.
-/

namespace RehashReport

namespace Pattern

/-- What can be turned on and off for a part of a pattern. -/
inductive Flag
  | ignoreCase
  | multiLine
  | dotAll
  | swapGreed
  | unicode
  | lineEnds
  /-- Blanks and comments are passed over. -/
  | verbose
deriving DecidableEq, Repr

/-- Flags that are turned on, and flags that are turned off. -/
structure FlagChange where
  on : List Flag
  off : List Flag
deriving DecidableEq, Repr

/-- No flag changes. -/
def FlagChange.unchanged : FlagChange := ⟨[], []⟩

/-- The value of a flag after a change. -/
def FlagChange.apply (c : FlagChange) (f : Flag) (value : Bool) : Bool :=
  if f ∈ c.on then true else if f ∈ c.off then false else value

/-- A character that stands for itself. -/
structure Literal where
  char : Char
  /-- It is written by two hexadecimal digits, and so could be a byte. -/
  isByte : Bool
deriving DecidableEq, Repr

/-- What a class holds. -/
inductive ClassSet
  | empty
  | literal (l : Literal)
  | range (first last : Literal)
  /-- A class of ASCII by its name. -/
  | named (negated : Bool)
  /-- Digits, blanks, or characters of words. -/
  | short (negated : Bool)
  | bracketed (negated : Bool) (set : ClassSet)
  | union (sets : List ClassSet)
  /-- What two sets have in common, what one has and the other has not, and what only one has. -/
  | operation (left right : ClassSet)

end Pattern

/-- A regular expression. -/
inductive Pattern
  | empty
  /-- A change of flags for what follows in the same group. -/
  | flags (change : Pattern.FlagChange)
  | literal (l : Pattern.Literal)
  | dot
  /-- The start or end of a line or of the text. -/
  | anchor
  /-- The start, end or side of a word. -/
  | wordBoundary
  /-- Digits, blanks, or characters of words. -/
  | short (negated : Bool)
  | oneOf (negated : Bool) (set : Pattern.ClassSet)
  | repetition (p : Pattern)
  | group (change : Pattern.FlagChange) (p : Pattern)
  | concat (ps : List Pattern)
  | alternation (ps : List Pattern)

namespace Pattern

/-! ### Depth -/

mutual
/-- How many brackets, unions and operations lie within each other. -/
def ClassSet.depth : ClassSet → Nat
  | .bracketed _ set => set.depth + 1
  | .union sets => ClassSet.maxDepth sets + 1
  | .operation left right => max left.depth right.depth + 1
  | _ => 0

/-- The greatest depth of some sets. -/
def ClassSet.maxDepth : List ClassSet → Nat
  | [] => 0
  | set :: sets => max set.depth (ClassSet.maxDepth sets)
end

mutual
/-- How many parts of a pattern that have parts of their own lie within each other. -/
def depth : Pattern → Nat
  | .oneOf _ set => set.depth + 1
  | .repetition p => p.depth + 1
  | .group _ p => p.depth + 1
  | .concat ps => maxDepth ps + 1
  | .alternation ps => maxDepth ps + 1
  | _ => 0

/-- The greatest depth of some patterns. -/
def maxDepth : List Pattern → Nat
  | [] => 0
  | p :: ps => max p.depth (maxDepth ps)
end

end Pattern

end RehashReport

namespace RehashReport.Pattern

/-!
## Usable patterns

Which patterns can be used to look for text. Parts may not lie too deep within each other. Unicode
properties are not at hand, so while Unicode is on there are no boundaries of words, no short
classes, and no case to be ignored; while it is off, nothing may stand for a byte that is no
character by itself.
-/

/-- The flags that decide what can be used. -/
structure Mode where
  unicode : Bool
  ignoreCase : Bool
deriving DecidableEq, Repr

/-- How a pattern starts. -/
def Mode.initial : Mode := ⟨true, false⟩

/-- The mode after a change of flags. -/
def Mode.change (m : Mode) (c : FlagChange) : Mode :=
  ⟨c.apply .unicode m.unicode, c.apply .ignoreCase m.ignoreCase⟩

/-- Whether a character is one byte. -/
def Literal.isAscii (l : Literal) : Bool := l.char.toNat < 0x80

/-- Whether a character can be used outside of classes. -/
def Literal.isUsable (m : Mode) (l : Literal) : Bool :=
  if m.unicode then !m.ignoreCase else l.isAscii || !l.isByte

/-- Whether a character can be used in a class. -/
def Literal.isMember (m : Mode) (l : Literal) : Bool :=
  if m.unicode then !m.ignoreCase else l.isAscii

/-- Whether digits, blanks and characters of words can be used. -/
def shortUsable (m : Mode) (negated : Bool) : Bool := !m.unicode && !negated

/-- Whether a class may be negated or not. -/
def signUsable (m : Mode) (negated : Bool) : Bool := m.unicode || !negated

mutual
/-- Whether a set can be used. -/
def ClassSet.isUsable (m : Mode) : ClassSet → Bool
  | .empty => true
  | .literal l => l.isMember m
  | .range first last => first.isMember m && last.isMember m
  | .named negated => signUsable m negated && !(m.unicode && m.ignoreCase)
  | .short negated => shortUsable m negated
  | .bracketed negated set => signUsable m negated && set.isUsable m
  | .union sets => ClassSet.allUsable m sets
  | .operation left right => left.isUsable m && right.isUsable m

/-- Whether some sets can all be used. -/
def ClassSet.allUsable (m : Mode) : List ClassSet → Bool
  | [] => true
  | set :: sets => set.isUsable m && ClassSet.allUsable m sets
end

/-- The mode that goes on after a part that is usable. -/
def goOn (m : Mode) (usable : Bool) : Option Mode := if usable then some m else none

mutual
/-- The mode after a pattern that can be used. -/
def modeAfter? (m : Mode) : Pattern → Option Mode
  | .empty => some m
  | .flags change => some (m.change change)
  | .literal l => goOn m (l.isUsable m)
  | .dot => goOn m m.unicode
  | .anchor => some m
  | .wordBoundary => goOn m !m.unicode
  | .short negated => goOn m (shortUsable m negated)
  | .oneOf negated set => goOn m (signUsable m negated && set.isUsable m)
  | .repetition p => modeAfter? m p
  | .group change p => (modeAfter? (m.change change) p).map fun _ => m
  | .concat ps => modeAfterAll? m ps
  | .alternation ps => modeAfterAll? m ps

/-- The mode after some patterns that can be used one after the other. -/
def modeAfterAll? (m : Mode) : List Pattern → Option Mode
  | [] => some m
  | p :: ps => (modeAfter? m p).bind fun next => modeAfterAll? next ps
end

/-- The greatest depth. -/
def depthLimit : Nat := 250

/-- Whether a pattern can be used. -/
def isUsable (p : Pattern) : Bool := p.depth ≤ depthLimit && (modeAfter? .initial p).isSome

end RehashReport.Pattern
