import RehashReport.Image.Raster
import RehashReport.Number.Binary64

/-!
# Components and their waves

What becomes of a picture before it is coded: its colours are taken apart into components, and the
samples of a component into cosine waves.
-/

namespace RehashReport.Image

/-!
## Components

A colour as its brightness and two differences from it, as photographs are stored. A component is a
weighted sum of red, green and blue. It is computed in numbers of 24 significant binary digits, with
a rounding after each product and each sum, and then loses its fraction.
-/

/-- A colour by its brightness and by how far blue and red stand out from it. -/
structure Components where
  brightness : UInt8
  blueness : UInt8
  redness : UInt8
deriving DecidableEq, Repr

namespace Components

/-- The number that stands for one: weights and sums are counted in this fraction of it. -/
def one : Nat := 0x8000000

/-- A number of 24 significant binary digits. -/
def rounded (n : Int) : Int := Rounding.significant 24 n

/-- The three parts of a colour by their weights, added up in turn. -/
def weighted (red green blue : Int) (c : Colour) : Int :=
  rounded (rounded (rounded (red * c.red.toNat) + rounded (green * c.green.toNat)) +
    rounded (blue * c.blue.toNat))

/-- A sum without its fraction, kept within the range of a byte. -/
def toByte (n : Int) : UInt8 := .ofNat (min 255 (n.toNat / one))

/-- A difference, which is none at 128. -/
def difference (n : Int) : UInt8 := toByte (rounded (n + 128 * one))

/-- The components of a colour. The weights are 0.299, 0.587 and 0.114 for the brightness, and those
that give half a blue or red at most for the differences. -/
def ofColour (c : Colour) : Components where
  brightness := toByte (weighted 40131104 78785808 15300821 c)
  blueness := difference (weighted (-22642532) (-44466332) 67108864 c)
  redness := difference (weighted 67108864 (-56196964) (-10911902) c)

/-- The components of the colours after one whose components are known. A colour like the one before
it is not computed again. -/
def follow (c : Colour) (known : Components) : List Colour → List Components
  | [] => []
  | d :: ds =>
    let next := if d = c then known else ofColour d
    next :: follow d next ds

/-- The components of some colours. -/
def ofColours : List Colour → List Components
  | [] => []
  | c :: cs =>
    let first := ofColour c
    first :: follow c first cs

end Components

end RehashReport.Image

namespace RehashReport.Image.Cosine

/-!
## The cosine transform

Eight samples as a sum of eight cosine waves, and a block of eight times eight samples as a sum of
their products, in integers. The factors of the waves are scaled by `2 ^ 13`. What a pass over the
rows yields is scaled back to four times its size, and what the pass over the columns yields after
it, to eight times the coefficients of the block.
-/

/-- The coefficients of eight samples. Those at places 0 and 4 are plain sums, all others are scaled
by `2 ^ 13`. -/
def waves : List Int → List Int
  | [a, b, c, d, e, f, g, h] =>
    let outer := (a + h) - (d + e)
    let inner := (b + g) - (c + f)
    let even := (outer + inner) * 4433
    let p := a - h
    let q := b - g
    let r := c - f
    let s := d - e
    let odd := (p + r + (q + s)) * 9633
    let first := odd - (p + r) * 3196
    let second := odd - (q + s) * 16069
    let third := (p + s) * 7373
    let fourth := (q + r) * 20995
    [(a + h) + (d + e) + ((b + g) + (c + f)),
      p * 12299 - third + first,
      even + outer * 6270,
      q * 25172 - fourth + second,
      (a + h) + (d + e) - ((b + g) + (c + f)),
      r * 16819 - fourth + first,
      even - inner * 15137,
      s * 2446 - third + second]
  | _ => []

/-- A quotient after adding an offset to the dividend, rounded down. -/
def scaled (offset divisor : Int) (n : Int) : Int := (n + offset) / divisor

/-- What the first pass makes of the coefficients of a row. -/
def rowScale : List (Int → Int) :=
  let whole := fun n => n * 4
  let part := scaled 1024 2048
  [whole, part, part, part, whole, part, part, part]

/-- What the second pass makes of the coefficients of a column. Those of the odd waves are rounded
with the offset of the first pass, which is a sixteenth of the half that the others have. -/
def columnScale : List (Int → Int) :=
  let whole := scaled 2 4
  let even := scaled 16384 32768
  let odd := scaled 1024 32768
  [whole, odd, even, odd, whole, odd, even, odd]

/-- Applies a list of functions to a list, place by place. -/
def applyEach (fs : List (Int → Int)) (xs : List Int) : List Int :=
  List.zipWith (fun f x => f x) fs xs

/-- The columns of some rows of eight numbers. -/
def columns (rows : List (List Int)) : List (List Int) :=
  rows.foldr (List.zipWith List.cons) (List.replicate 8 [])

/-- Eight times the coefficients of a block, in rows by the vertical wave. -/
def transform (block : List (List Int)) : List (List Int) :=
  let rows := block.map fun row => applyEach rowScale (waves row)
  columns ((columns rows).map fun column => applyEach columnScale (waves column))

end RehashReport.Image.Cosine
