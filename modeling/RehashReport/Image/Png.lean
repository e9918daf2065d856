import RehashReport.Image.Raster

/-!
# PNG files

Writing a raster as a PNG file, and reading the size of a picture from the front of a file. The
image data is stored without compression.
-/

namespace RehashReport.Image

/-!
## Checksums

The two checksums that a PNG file carries: a cyclic redundancy check over each chunk, and a sum over
the image data.
-/

/-- The remainder after one more bit. -/
def crcBit (c : UInt32) : UInt32 :=
  if c &&& 1 = 1 then (c >>> 1) ^^^ 0xEDB88320 else c >>> 1

/-- The remainder after one more byte. -/
def crcByte (c : UInt32) (b : UInt8) : UInt32 :=
  let c := c ^^^ b.toUInt32
  crcBit (crcBit (crcBit (crcBit (crcBit (crcBit (crcBit (crcBit c)))))))

/-- The CRC-32 of some bytes. -/
def crc32 (bytes : List UInt8) : UInt32 :=
  bytes.foldl crcByte 0xFFFFFFFF ^^^ 0xFFFFFFFF

/-- The two sums of Adler-32 after one more byte. -/
def adlerByte (s : UInt32 × UInt32) (b : UInt8) : UInt32 × UInt32 :=
  let low := (s.1 + b.toUInt32) % 65521
  (low, (s.2 + low) % 65521)

/-- The Adler-32 of some bytes. -/
def adler32 (bytes : List UInt8) : UInt32 :=
  let (low, high) := bytes.foldl adlerByte (1, 0)
  high * 65536 + low

end RehashReport.Image

namespace RehashReport.Image.Png

/-! ## Files -/

/-- The bytes that every PNG file starts with. -/
def signature : List UInt8 := [0x89, 0x50, 0x4E, 0x47, 0x0D, 0x0A, 0x1A, 0x0A]

/-- The four bytes of a number, the greatest first. -/
def word (n : Nat) : List UInt8 :=
  [.ofNat (n / 0x1000000), .ofNat (n / 0x10000), .ofNat (n / 0x100), .ofNat n]

/-- The number with four bytes. -/
def ofWord (a b c d : UInt8) : Nat :=
  ((a.toNat * 256 + b.toNat) * 256 + c.toNat) * 256 + d.toNat

/-- A chunk: its length, its type, its data, and the check over the last two. -/
def chunk (type data : List UInt8) : List UInt8 :=
  word data.length ++ type ++ data ++ word (crc32 (type ++ data)).toNat

/-- The type of the header chunk. -/
def headerType : List UInt8 := [0x49, 0x48, 0x44, 0x52]

/-- The type of a chunk of image data. -/
def dataType : List UInt8 := [0x49, 0x44, 0x41, 0x54]

/-- The type of the last chunk. -/
def endType : List UInt8 := [0x49, 0x45, 0x4E, 0x44]

/-- Width, height, eight bits for each part of a colour, three parts, and the usual methods. -/
def header (r : Raster) : List UInt8 :=
  word r.width ++ word r.height ++ [8, 2, 0, 0, 0]

/-- The most bytes that a stored block holds. -/
def blockLimit : Nat := 65535

/-- Stored blocks: whether it is the last one, the length twice, once inverted, and the bytes. -/
def blocks : Nat → List UInt8 → List UInt8
  | 0, _ => []
  | fuel + 1, bytes =>
    let block := bytes.take blockLimit
    let rest := bytes.drop blockLimit
    let n := block.length
    let size : List UInt8 := [.ofNat n, .ofNat (n / 256)]
    let inverse : List UInt8 := size.map fun b => b ^^^ 0xFF
    (if rest.isEmpty then 1 else 0) :: size ++ inverse ++ block ++
      if rest.isEmpty then [] else blocks fuel rest

/-- A stream of stored blocks. -/
def stored (bytes : List UInt8) : List UInt8 :=
  [0x78, 0x01] ++ blocks (bytes.length / blockLimit + 1) bytes ++ word (adler32 bytes).toNat

/-- The rows of a picture, each after the number of its filter, which is none. -/
def scanlines (r : Raster) : List UInt8 :=
  (r.rows.map fun row => 0 :: row.flatMap fun c => [c.red, c.green, c.blue]).flatten

/-- The file of a picture. -/
def encode (r : Raster) : List UInt8 :=
  signature ++ (chunk headerType (header r) ++
    (chunk dataType (stored (scanlines r)) ++ chunk endType []))

/-- The width and height that the front of a file gives, which starts with the signature and goes on
after the two numbers. -/
def size? (bytes : List UInt8) : Option (Nat × Nat) :=
  if signature.isPrefixOf bytes then
    match bytes.drop 16 with
    | a :: b :: c :: d :: e :: f :: g :: h :: _ :: _ => some (ofWord a b c d, ofWord e f g h)
    | _ => none
  else none

end RehashReport.Image.Png
