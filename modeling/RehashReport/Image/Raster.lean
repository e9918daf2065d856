/-!
# Rasters

A picture as rows of colours. A rectangle of it starts at one column and row, and ends before
another column and row. Painting never leaves the picture: what lies outside is cut off.
-/

namespace RehashReport.Image

/-!
## Colours

A colour as red, green and blue, and what becomes of one that is covered by a translucent other.
Opacity is counted in parts of 256. A part of a covered colour is either *mixed* with the covering
one, which rounds the result down, or *moved* towards it, which rounds the way down.
-/

/-- A colour by its parts of red, green and blue. -/
structure Colour where
  red : UInt8
  green : UInt8
  blue : UInt8
deriving DecidableEq, Repr

namespace Colour

/-- All of each part. -/
def white : Colour := ⟨0xFF, 0xFF, 0xFF⟩

/-- Nothing of any part. -/
def black : Colour := ⟨0x00, 0x00, 0x00⟩

/-- A colour from two others, part by part. -/
def zipWith (f : UInt8 → UInt8 → UInt8) (c d : Colour) : Colour :=
  ⟨f c.red d.red, f c.green d.green, f c.blue d.blue⟩

/-- The two parts weighed by an opacity of at most 256, rounded down. -/
def mixPart (opacity : Nat) (below above : UInt8) : UInt8 :=
  .ofNat ((below.toNat * (256 - opacity) + above.toNat * opacity) / 256)

/-- The part below after its share, rounded down, of the way to the part above. -/
def movePart (opacity : Nat) (below above : UInt8) : UInt8 :=
  if below < above then below + .ofNat ((above - below).toNat * opacity / 256)
  else below - .ofNat ((below - above).toNat * opacity / 256)

/-- A colour that is covered by another one, mixed. -/
def mix (opacity : Nat) (below above : Colour) : Colour := zipWith (mixPart opacity) below above

/-- A colour that is covered by another one, moved. -/
def move (opacity : Nat) (below above : Colour) : Colour := zipWith (movePart opacity) below above

end Colour

/-! ## Pictures -/

/-- A picture, row by row from above. -/
structure Raster where
  width : Nat
  height : Nat
  pixels : Array Colour

namespace Raster

/-- A picture in one colour. -/
def filled (width height : Nat) (colour : Colour) : Raster :=
  ⟨width, height, Array.replicate (width * height) colour⟩

/-- Changes a run of pixels, each by a function of what is left of the run. -/
def changeRun (change : Nat → Colour → Colour) (pixels : Array Colour) (start : Nat) :
    Nat → Array Colour
  | 0 => pixels
  | n + 1 => changeRun change (pixels.modify start (change n)) (start + 1) n

/-- Changes a run of pixels in each of some rows, from row `top` on. -/
def changeRows (change : Nat → Colour → Colour) (width left across : Nat) (pixels : Array Colour)
    (top : Nat) : Nat → Array Colour
  | 0 => pixels
  | n + 1 =>
    let pixels := changeRun change pixels (top * width + left) across
    changeRows change width left across pixels (top + 1) n

/-- Changes the pixels of a rectangle, each by a function of how many follow it in its row of the
rectangle. -/
def changeWithin (r : Raster) (change : Nat → Nat → Colour → Colour)
    (left top right bottom : Int) : Raster :=
  let left := left.toNat
  let top := top.toNat
  let across := min right.toNat r.width - left
  let down := min bottom.toNat r.height - top
  { r with pixels := changeRows (change across) r.width left across r.pixels top down }

/-- Paints a rectangle. -/
def fill (r : Raster) (colour : Colour) (left top right bottom : Int) : Raster :=
  r.changeWithin (fun _ _ _ => colour) left top right bottom

/-- Covers a rectangle with a translucent colour. A row is covered in groups of eight pixels, which
are mixed; at its end one to eight pixels remain, which are moved. -/
def cover (r : Raster) (colour : Colour) (opacity : Nat) (left top right bottom : Int) : Raster :=
  r.changeWithin
    (fun across rest below =>
      if across - 1 - rest < (across - 1) / 8 * 8 then below.mix opacity colour
      else below.move opacity colour)
    left top right bottom

/-- The colour of the pixel that is nearest to a place. -/
def colourAt (r : Raster) (x y : Nat) : Colour :=
  r.pixels.getD (min y (r.height - 1) * r.width + min x (r.width - 1)) .white

/-- The rows of a picture. -/
def rows (r : Raster) : List (List Colour) :=
  (List.range r.height).map fun y => (r.pixels.extract (y * r.width) ((y + 1) * r.width)).toList

end Raster

end RehashReport.Image
