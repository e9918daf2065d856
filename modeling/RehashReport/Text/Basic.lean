/-!
# Texts and bytes

What all readers and writers of texts share: the bytes of characters, the blanks around a text, and
its pieces between separators.
-/

namespace RehashReport.Utf8

/-!
## UTF-8

Reading bytes as text. `Utf8.decode` reads all of its input or says how many bytes at the front
are well formed, which is what an error report needs; `Utf8.encode` is the way back.
-/

/-- The character whose encoding starts the bytes, if one does. No encoding is longer than four
bytes, so nothing after the fourth is looked at. -/
def next (bytes : List UInt8) : Option Char :=
  (bytes.take 4).toByteArray.utf8DecodeChar? 0

/-- The text that the bytes encode, or the length of the longest front part that is text. -/
def decode : List UInt8 → Except Nat (List Char)
  | [] => .ok []
  | b :: bs =>
    match next (b :: bs) with
    | none => .error 0
    | some c =>
      match decode ((b :: bs).drop c.utf8Size) with
      | .ok cs => .ok (c :: cs)
      | .error n => .error (c.utf8Size + n)
termination_by bytes => bytes.length
decreasing_by
  have := c.utf8Size_pos
  simp only [List.length_drop, List.length_cons]
  omega

/-- The bytes of a text. -/
def encode (text : List Char) : List UInt8 :=
  text.flatMap String.utf8EncodeChar

/-- The number of bytes of a text. -/
def size (text : List Char) : Nat := (encode text).length

/-- The characters of a text with the places at which their bytes start, counted from a place on. -/
def placed (place : Nat) : List Char → List (Nat × Char)
  | [] => []
  | c :: cs => (place, c) :: placed (place + c.utf8Size) cs

/-- The three bytes that may stand before a text to say that it is UTF-8. -/
def byteOrderMark : List UInt8 := [0xEF, 0xBB, 0xBF]

end RehashReport.Utf8

namespace RehashReport.Text

/-!
## White space

Two classes of blanks and the trimming of each. `isBlank` is Unicode's `White_Space` property on
characters; `isAsciiBlank` is a class of single bytes, all of which are blanks of the first class,
so trimming bytes and then text comes to the same as trimming text alone.
-/

/-- The characters with the Unicode property `White_Space`. -/
def isBlank (c : Char) : Bool :=
  let n := c.toNat
  (0x09 ≤ n && n ≤ 0x0D) || n == 0x20 || n == 0x85 || n == 0xA0 || n == 0x1680 ||
    (0x2000 ≤ n && n ≤ 0x200A) || n == 0x2028 || n == 0x2029 || n == 0x202F || n == 0x205F ||
    n == 0x3000

/-- Space, tab, line feed, form feed and carriage return, but not the vertical tab. -/
def isAsciiBlank (b : UInt8) : Bool :=
  b == 0x20 || b == 0x09 || b == 0x0A || b == 0x0C || b == 0x0D

/-- Drops what satisfies `p` from both ends. -/
def stripBy {α : Type} (p : α → Bool) (xs : List α) : List α :=
  ((xs.dropWhile p).reverse.dropWhile p).reverse

/-- Drops the blanks at both ends of a text. -/
def trim (text : List Char) : List Char :=
  stripBy isBlank text

/-- Drops the ASCII blanks at both ends of a byte string. -/
def trimAscii (bytes : List UInt8) : List UInt8 :=
  stripBy isAsciiBlank bytes

/-!
## Splitting and joining

Cutting a text at every occurrence of a character, and putting the pieces together again.
-/

/-- The pieces of a text between the occurrences of a character; there is always at least one. -/
def split (separator : Char) (text : List Char) : List (List Char) := text.splitOn separator

/-- Pieces with a character between each two of them. -/
def join (separator : Char) (pieces : List (List Char)) : List Char :=
  [separator].intercalate pieces

end RehashReport.Text
