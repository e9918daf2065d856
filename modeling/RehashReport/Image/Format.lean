import RehashReport.Image.Jpeg
import RehashReport.Image.Png
import RehashReport.Image.Raster

/-!
# Image formats

Which format the extension of a file asks for. Three formats can be written; the others are known by
name only.
-/

namespace RehashReport.Image.Bmp

/-!
## BMP files

Writing a raster as a bitmap of three bytes for each pixel, without compression.
-/

/-- The four bytes of a number, the least first. -/
def word (n : Nat) : List UInt8 :=
  [.ofNat n, .ofNat (n / 0x100), .ofNat (n / 0x10000), .ofNat (n / 0x1000000)]

/-- A row of pixels, filled up to a multiple of four bytes. -/
def scanline (row : List Colour) : List UInt8 :=
  row.flatMap (fun c => [c.blue, c.green, c.red]) ++ List.replicate (row.length % 4) 0

/-- The file of a picture: two headers, and the rows from below. -/
def encode (r : Raster) : List UInt8 :=
  let pixels := (r.rows.reverse.map scanline).flatten
  [0x42, 0x4D] ++ word (54 + pixels.length) ++ word 0 ++ word 54 ++
    (word 40 ++ word r.width ++ word r.height ++ [1, 0, 24, 0] ++ word 0 ++ word pixels.length ++
      word 0 ++ word 0 ++ word 0 ++ word 0) ++ pixels

end RehashReport.Image.Bmp

namespace RehashReport.Image

/-! ## Formats by extension -/

/-- A format of image files. -/
inductive Format
  | png
  | bmp
  | jpeg
  /-- A format that cannot be written. -/
  | other (name : String)
deriving DecidableEq, Repr

namespace Format

/-- The extensions of the known formats, in lower case. -/
def extensions : List (String × Format) :=
  [("png", .png), ("bmp", .bmp), ("jpg", .jpeg), ("jpeg", .jpeg),
    ("gif", .other "Gif"), ("webp", .other "WebP"), ("tif", .other "Tiff"),
    ("tiff", .other "Tiff"), ("tga", .other "Tga"), ("dds", .other "Dds"), ("ico", .other "Ico"),
    ("hdr", .other "Hdr"), ("exr", .other "OpenExr"), ("pbm", .other "Pnm"), ("pam", .other "Pnm"),
    ("ppm", .other "Pnm"), ("pgm", .other "Pnm"), ("ff", .other "Farbfeld"),
    ("farbfeld", .other "Farbfeld"), ("avif", .other "Avif"), ("qoi", .other "Qoi")]

/-- The format with an extension, whose case does not matter. -/
def ofExtension? (extension : List Char) : Option Format :=
  extensions.lookup (String.ofList (extension.map Char.toLower))

/-- The file of a picture in a format, if that can be written. -/
def encode? (r : Raster) : Format → Option (List UInt8)
  | .png => some (Png.encode r)
  | .bmp => some (Bmp.encode r)
  | .jpeg => some (Jpeg.encode r)
  | .other _ => none

/-- The name of a format. -/
def name : Format → String
  | .png => "Png"
  | .bmp => "Bmp"
  | .jpeg => "Jpeg"
  | .other name => name

end Format

end RehashReport.Image
