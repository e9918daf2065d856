import RehashReport.Image.Jpeg.Transform

/-!
# Codes of the JPEG format

The coefficients of a block as bits: the codes that they are written with, the tables that the
standard recommends for them, and the blocks themselves.
-/

namespace RehashReport.Image

/-!
## Prefix codes

Words of bits for symbols, none of which starts with another. A code is given by how many words it
has of each length and by its symbols in the order of their words; the words of one length follow
each other as numbers, and those of the next length go on from there.
-/

/-- The lowest bits of a number, the highest of them first. -/
def bits : Nat → Nat → List Bool
  | 0, _ => []
  | n + 1, value => value.testBit n :: bits n value

/-- The byte with some bits, the highest of them first. -/
def packByte (digits : List Bool) : UInt8 :=
  digits.foldl (fun n digit => n * 2 + if digit then 1 else 0) 0

/-- The bytes of some bits after the bytes before them, which are given from the last one on. -/
def packAfter (before : List UInt8) : List Bool → List UInt8
  | [] => before.reverse
  | a :: b :: c :: d :: e :: f :: g :: h :: rest =>
    packAfter (packByte [a, b, c, d, e, f, g, h] :: before) rest
  | rest => (packByte (rest ++ List.replicate (8 - rest.length) true) :: before).reverse

/-- The bytes of some bits, the last one filled up with ones. -/
def packBits (digits : List Bool) : List UInt8 := packAfter [] digits

/-- The word of each symbol; those without one have none. -/
structure PrefixCode where
  words : Array (List Bool)

namespace PrefixCode

/-- The symbols with their words, given how many words there are of this length and of the longer
ones, and the first of this length as a number. -/
def assign (length first : Nat) : List Nat → List Nat → List (Nat × List Bool)
  | [], _ => []
  | count :: counts, symbols =>
    (symbols.take count).mapIdx (fun i symbol => (symbol, bits length (first + i))) ++
      assign (length + 1) ((first + count) * 2) counts (symbols.drop count)

/-- The code with so many words of each length, from one bit on, for these symbols. -/
def ofCounts (counts symbols : List Nat) : PrefixCode :=
  let table := assign 1 0 counts symbols
  ⟨((List.range 256).map fun symbol => (table.lookup symbol).getD []).toArray⟩

/-- The word of a symbol. -/
def word (code : PrefixCode) (symbol : Nat) : List Bool := code.words.getD symbol []

end PrefixCode

end RehashReport.Image

namespace RehashReport.Image.Jpeg

/-!
## Tables of the JPEG format

The tables that the standard recommends: codes for the coefficients of brightness and of the
differences, and steps for them, which are halved here for a better quality.
-/

/-- What the coefficients of one kind of component are written with: the step of each, and the codes
of the first one and of the others. The symbol of a first coefficient is how many bits its change
has, that of another one how many zeros come before it, times sixteen, and how many bits it has. -/
structure Tables where
  steps : List Nat
  firstCounts : List Nat
  firstSymbols : List Nat
  restCounts : List Nat
  restSymbols : List Nat

namespace Tables

/-- Half of each of the recommended steps, rounded up. -/
def halved (steps : List Nat) : List Nat := steps.map fun n => (n + 1) / 2

/-- The symbols of first coefficients: how many bits the change of one has. -/
def sizes : List Nat := List.range 12

/-- The symbols of some spans, whose ends belong to them. -/
def spans (ends : List (Nat × Nat)) : List Nat :=
  ends.flatMap fun (first, last) => List.range' first (last + 1 - first)

/-- The tables for brightness. -/
def brightness : Tables where
  steps := halved
    [16, 11, 10, 16, 24, 40, 51, 61, 12, 12, 14, 19, 26, 58, 60, 55,
      14, 13, 16, 24, 40, 57, 69, 56, 14, 17, 22, 29, 51, 87, 80, 62,
      18, 22, 37, 56, 68, 109, 103, 77, 24, 35, 55, 64, 81, 104, 113, 92,
      49, 64, 78, 87, 103, 121, 120, 101, 72, 92, 95, 98, 112, 100, 103, 99]
  firstCounts := [0, 1, 5, 1, 1, 1, 1, 1, 1, 0, 0, 0, 0, 0, 0, 0]
  firstSymbols := sizes
  restCounts := [0, 2, 1, 3, 3, 2, 4, 3, 5, 5, 4, 4, 0, 0, 1, 125]
  restSymbols :=
    [0x01, 0x02, 0x03, 0x00, 0x04, 0x11, 0x05, 0x12, 0x21, 0x31, 0x41, 0x06, 0x13, 0x51, 0x61,
      0x07, 0x22, 0x71, 0x14, 0x32, 0x81, 0x91, 0xA1, 0x08, 0x23, 0x42, 0xB1, 0xC1, 0x15, 0x52,
      0xD1, 0xF0, 0x24, 0x33, 0x62, 0x72, 0x82, 0x09, 0x0A] ++
    spans [(0x16, 0x1A), (0x25, 0x2A), (0x34, 0x3A), (0x43, 0x4A), (0x53, 0x5A), (0x63, 0x6A),
      (0x73, 0x7A), (0x83, 0x8A), (0x92, 0x9A), (0xA2, 0xAA), (0xB2, 0xBA), (0xC2, 0xCA),
      (0xD2, 0xDA), (0xE1, 0xEA), (0xF1, 0xFA)]

/-- The tables for the differences. -/
def difference : Tables where
  steps := halved
    ([17, 18, 24, 47, 99, 99, 99, 99, 18, 21, 26, 66, 99, 99, 99, 99,
      24, 26, 56, 99, 99, 99, 99, 99, 47, 66, 99, 99, 99, 99, 99, 99] ++ List.replicate 32 99)
  firstCounts := [0, 3, 1, 1, 1, 1, 1, 1, 1, 1, 1, 0, 0, 0, 0, 0]
  firstSymbols := sizes
  restCounts := [0, 2, 1, 2, 4, 4, 3, 4, 7, 5, 4, 4, 0, 1, 2, 119]
  restSymbols :=
    [0x00, 0x01, 0x02, 0x03, 0x11, 0x04, 0x05, 0x21, 0x31, 0x06, 0x12, 0x41, 0x51, 0x07, 0x61,
      0x71, 0x13, 0x22, 0x32, 0x81, 0x08, 0x14, 0x42, 0x91, 0xA1, 0xB1, 0xC1, 0x09, 0x23, 0x33,
      0x52, 0xF0, 0x15, 0x62, 0x72, 0xD1, 0x0A, 0x16, 0x24, 0x34, 0xE1, 0x25, 0xF1] ++
    spans [(0x17, 0x1A), (0x26, 0x2A), (0x35, 0x3A), (0x43, 0x4A), (0x53, 0x5A), (0x63, 0x6A),
      (0x73, 0x7A), (0x82, 0x8A), (0x92, 0x9A), (0xA2, 0xAA), (0xB2, 0xBA), (0xC2, 0xCA),
      (0xD2, 0xDA), (0xE2, 0xEA), (0xF2, 0xFA)]

end Tables

/-- The places of a block by rows, in the order in which they are written: along the diagonals, from
the slowest waves to the fastest. -/
def diagonals : List Nat :=
  [0, 1, 8, 16, 9, 2, 3, 10, 17, 24, 32, 25, 18, 11, 4, 5,
    12, 19, 26, 33, 40, 48, 41, 34, 27, 20, 13, 6, 7, 14, 21, 28,
    35, 42, 49, 56, 57, 50, 43, 36, 29, 22, 15, 23, 30, 37, 44, 51,
    58, 59, 52, 45, 38, 31, 39, 46, 53, 60, 61, 54, 47, 55, 62, 63]

/-!
## Blocks of the JPEG format

Eight times eight samples of a component, from their coefficients to bits. A coefficient is written
as the number of its bits in the code of its place and then the bits themselves; the first one is
written as its change from the block before, and zeros are only counted.
-/

/-- How the coefficients of a component are written: the step of each, and the codes of the first
one and of the others. -/
structure Coding where
  steps : List Nat
  first : PrefixCode
  rest : PrefixCode

/-- The coding with some tables. -/
def Tables.coding (t : Tables) : Coding :=
  ⟨t.steps, .ofCounts t.firstCounts t.firstSymbols, .ofCounts t.restCounts t.restSymbols⟩

/-- The coding of the brightness. -/
def brightness : Coding := Tables.brightness.coding

/-- The coding of the differences. -/
def difference : Coding := Tables.difference.coding

/-- An eighth of a number in steps, rounded to nearest; halves go away from zero. The eighth loses
its fraction first. -/
def quantize (step : Nat) (n : Int) : Int :=
  n.sign * ((n.natAbs / 8 * 2 + step) / (step * 2) : Nat)

/-- The coefficients of a block in the order in which they are written. -/
def coefficients (steps : List Nat) (block : List (List Int)) : List Int :=
  let rows := (Cosine.transform (block.map fun row => row.map (· - 128))).flatten
  let quantized := (List.zipWith quantize steps rows).toArray
  diagonals.map fun place => quantized.getD place 0

/-- How many bits a coefficient has. -/
def sizeOf (n : Int) : Nat := if n = 0 then 0 else n.natAbs.log2 + 1

/-- The bits of a coefficient; a negative one is counted up from the least of its size. -/
def bitsOf (n : Int) : List Bool :=
  let size := sizeOf n
  bits size (if 0 ≤ n then n.natAbs else (1 <<< size) - 1 - n.natAbs)

/-- The bits of the coefficients after the first, given how many zeros came just before them.
Sixteen zeros have a word of their own, and the zeros at the end have one together. -/
def restBits (code : PrefixCode) (zeros : Nat) : List Int → List Bool
  | [] => if zeros = 0 then [] else code.word 0x00
  | n :: ns =>
    if n = 0 then restBits code (zeros + 1) ns
    else
      (List.replicate (zeros / 16) (code.word 0xF0)).flatten ++
        (code.word (zeros % 16 * 16 + sizeOf n) ++ (bitsOf n ++ restBits code 0 ns))

/-- The bits of a block, given the first coefficient of the block before it. -/
def blockBits (coding : Coding) (before : Int) : List Int → List Bool
  | [] => []
  | n :: ns =>
    coding.first.word (sizeOf (n - before)) ++ (bitsOf (n - before) ++ restBits coding.rest 0 ns)

end RehashReport.Image.Jpeg
