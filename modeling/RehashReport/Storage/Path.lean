import RehashReport.Text.Basic

/-!
# Paths

Paths as they are written. Names stand between slashes; doubled slashes and single dots count for
nothing, except a dot at the very front. `Path.parent?` and `Path.extension?` read a path without
looking at what it leads to, and so two dots are a name like any other.
-/

namespace RehashReport.Storage

/-- A name between slashes. -/
abbrev Name := List Char

/-- Two dots: the directory above. -/
def above : Name := ['.', '.']

/-- A single dot: the directory itself. -/
def here : Name := ['.']

namespace Path

/-- Whether a piece between slashes counts for nothing. -/
def isIdle (piece : Name) : Bool := piece = [] || piece = here

/-- Whether a path starts at the root. -/
def isAbsolute (path : List Char) : Bool := path.head? = some '/'

/-- The names on the way from the start of a path to its end, two dots among them. -/
def names (path : List Char) : List Name :=
  (Text.split '/' path).filter fun piece => !isIdle piece

/-- Whether a path ends in a slash, and so can only be a directory. -/
def endsInSlash (path : List Char) : Bool := path.getLast? = some '/'

/-- Whether the last thing between slashes is a dot. It leads nowhere, but what is before it has to
be a directory. -/
def endsInDot (path : List Char) : Bool :=
  ((Text.split '/' path).filter fun piece => piece ≠ []).getLast? = some here

/-- The number of pieces at the front that count although they hold no name: the empty one before
the slash of the root, or a dot. -/
def frontPieces (path : List Char) : Nat :=
  if isAbsolute path || (Text.split '/' path).head? = some here then 1 else 0

/-- Drops the pieces at the end that count for nothing. -/
def dropIdle (pieces : List Name) : List Name :=
  (pieces.reverse.dropWhile isIdle).reverse

/-- The last name of a path, if it has any. -/
def lastName? (path : List Char) : Option Name :=
  (dropIdle ((Text.split '/' path).drop (frontPieces path))).getLast?

/-- The path without its last name, as far as it is written out; none for a root or an empty path.
A single dot has the empty path above it. -/
def parent? (path : List Char) : Option (List Char) :=
  let pieces := Text.split '/' path
  let front := pieces.take (frontPieces path)
  let body := dropIdle (pieces.drop (frontPieces path))
  if body = [] then if front = [here] then some [] else none
  else
    let rest := dropIdle body.dropLast
    if front = [[]] && rest = [] then some ['/'] else some (Text.join '/' (front ++ rest))

/-- The part of a name after its last dot, unless that is the first character. -/
def extensionOf? (name : Name) : Option (List Char) :=
  let after := (name.reverse.takeWhile (· ≠ '.')).reverse
  let before := name.length - after.length
  if name = above || before ≤ 1 then none else some after

/-- The extension of the last name of a path. -/
def extension? (path : List Char) : Option (List Char) :=
  (lastName? path).bind extensionOf?

end Path

end RehashReport.Storage
