import RehashReport.Image.Jpeg.Coding
import RehashReport.Image.Jpeg.Transform
import RehashReport.Image.Raster

/-!
# JPEG files

Writing a raster as a baseline JPEG file. The picture is cut into blocks of eight times eight
pixels, and each block is written three times, once for each component, with all its samples.
-/

namespace RehashReport.Image.Jpeg

/-! ## Scan -/

/-- The first coefficients of the three components of a block. -/
structure Firsts where
  brightness : Int
  blueness : Int
  redness : Int

/-- The samples of the block from a place on. A block that the picture does not fill repeats the
pixels at its edge. -/
def block (r : Raster) (x y : Nat) : List (List Components) :=
  (List.range' y 8).map fun row =>
    Components.ofColours ((List.range' x 8).map fun column => r.colourAt column row)

/-- The coefficients of one component of a block. -/
def plane (coding : Coding) (part : Components → UInt8) (samples : List (List Components)) :
    List Int :=
  coefficients coding.steps (samples.map fun row => row.map fun c => ((part c).toNat : Int))

/-- The places of the blocks of a picture, row by row. -/
def places (r : Raster) : List (Nat × Nat) :=
  (List.range ((r.height + 7) / 8)).flatMap fun row =>
    (List.range ((r.width + 7) / 8)).map fun column => (column * 8, row * 8)

/-- The bits of the blocks at some places, given the block before them. -/
def scanBits (r : Raster) (before : Firsts) : List (Nat × Nat) → List Bool
  | [] => []
  | (x, y) :: rest =>
    let samples := block r x y
    let light := plane brightness (·.brightness) samples
    let blue := plane difference (·.blueness) samples
    let red := plane difference (·.redness) samples
    blockBits brightness before.brightness light ++
      (blockBits difference before.blueness blue ++
        (blockBits difference before.redness red ++
          scanBits r ⟨light.headD 0, blue.headD 0, red.headD 0⟩ rest))

/-- The bytes of a scan. As a byte of ones announces a marker elsewhere, a zero follows it here. -/
def scan (r : Raster) : List UInt8 :=
  (packBits (scanBits r ⟨0, 0, 0⟩ (places r))).flatMap fun b => if b = 0xFF then [b, 0] else [b]

/-! ## Segments -/

/-- Numbers as bytes. -/
def bytes (ns : List Nat) : List UInt8 := ns.map UInt8.ofNat

/-- The two bytes of a number, the greater first. -/
def word (n : Nat) : List UInt8 := bytes [n / 0x100, n]

/-- A marker. -/
def marker (kind : UInt8) : List UInt8 := [0xFF, kind]

/-- A segment: its marker, its length, which counts itself, and its data. -/
def segment (kind : UInt8) (data : List UInt8) : List UInt8 :=
  marker kind ++ word (data.length + 2) ++ data

/-- The identification of the file format, its version, and pixels as wide as high. -/
def identification : List UInt8 :=
  segment 0xE0 [0x4A, 0x46, 0x49, 0x46, 0, 1, 2, 0, 0, 1, 0, 1, 0, 0]

/-- The frame: eight bits for each sample, the size, and for each of three components its number,
its share of the samples, and the number of its steps. -/
def frame (r : Raster) : List UInt8 :=
  segment 0xC0 ([8] ++ word r.height ++ word r.width ++ [3] ++
    [1, 0x11, 0, 2, 0x11, 1, 3, 0x11, 1])

/-- The steps with a number, in the order of the coefficients. -/
def stepsSegment (number : UInt8) (steps : List Nat) : List UInt8 :=
  segment 0xDB (number :: bytes (diagonals.map fun place => steps.getD place 0))

/-- A code with a number, by its counts and symbols. -/
def codeSegment (number : UInt8) (counts symbols : List Nat) : List UInt8 :=
  segment 0xC4 (number :: (bytes counts ++ bytes symbols))

/-- The codes with a number: that of first coefficients, and that of the others. -/
def codeSegments (number : UInt8) (t : Tables) : List UInt8 :=
  codeSegment number t.firstCounts t.firstSymbols ++
    codeSegment (number + 0x10) t.restCounts t.restSymbols

/-- The start of the scan: for each component its number and those of its codes, and the whole range
of coefficients at once. -/
def scanHeader : List UInt8 :=
  segment 0xDA [3, 1, 0x00, 2, 0x11, 3, 0x11, 0, 63, 0]

/-- The file of a picture. -/
def encode (r : Raster) : List UInt8 :=
  marker 0xD8 ++ (identification ++ (frame r ++
    (stepsSegment 0 brightness.steps ++ (stepsSegment 1 difference.steps ++
      (codeSegments 0 Tables.brightness ++ (codeSegments 1 Tables.difference ++
        (scanHeader ++ (scan r ++ marker 0xD9))))))))

end RehashReport.Image.Jpeg
