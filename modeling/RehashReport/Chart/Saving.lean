import RehashReport.Chart.Painting
import RehashReport.Storage.FileTree
import RehashReport.Text.Characters

/-!
# Saving a chart

Checking some series, drawing them, and writing the image where a path leads. No directory is ever
made, and nothing but the file of that path is written.
-/

namespace RehashReport

open Storage (Access Fault)

/-- Why an image is not saved. -/
inductive ImageFault
  /-- The extension of the path is that of no image format. -/
  | unknownFormat (extension : Option (List Char))
  /-- Images of the format cannot be written. -/
  | unwritable (format : Image.Format)
  /-- The file cannot be created. -/
  | storage (fault : Fault)
deriving DecidableEq

/-- Why a chart is not saved. -/
inductive ChartError
  /-- The series cannot be drawn. -/
  | invalidData (fault : Chart.SeriesFault)
  /-- The directory of the path is none. -/
  | noDirectory (directory : String)
  /-- The drawing cannot be made an image file. -/
  | image (fault : ImageFault)
deriving DecidableEq

/-! ## Wording -/

/-- How a format is named by an extension. -/
def extensionHint : Option (List Char) → String
  | none => "Unknown"
  | some extension => "PathExtension(" ++ String.ofList (Text.quoted extension) ++ ")"

/-- How a format is named by itself. -/
def formatHint (format : Image.Format) : String :=
  "Name(" ++ String.ofList (Text.quoted format.name.toList) ++ ")"

/-- What is said about a format that is not supported, by two names. -/
def unsupported (format kind : String) : String :=
  "ImageError(Unsupported(UnsupportedError \x7b format: " ++ format ++ ", kind: Format(" ++ kind ++
    ") \x7d))"

/-- The wording of a fault. -/
def ImageFault.message : ImageFault → String
  | .unknownFormat extension => unsupported (extensionHint extension) (extensionHint extension)
  | .unwritable format => unsupported (extensionHint none) (formatHint format)
  | .storage fault => "ImageError(IoError(" ++ fault.description ++ "))"

/-- The wording of an error. -/
def ChartError.message : ChartError → String
  | .invalidData fault => "Invalid data: " ++ fault.message
  | .noDirectory directory =>
    "Failed to save plot to file: Output directory does not exist: " ++ directory
  | .image fault =>
    "Failed to draw chart elements: backend error: Drawing backend error: " ++ fault.message

/-! ## Saving -/

namespace Chart

/-- The directory that a path names and that has to be there; a path without one is in the working
directory. -/
def directoryOf? (path : String) : Option String :=
  ((Storage.Path.parent? path.toList).filter fun parent => parent ≠ []).map String.ofList

/-- Writes the image of a drawing in the format that the extension of the path asks for. The file is
there before the image is made, so a known format that cannot be written leaves it empty. -/
def Drawing.save {m : Type → Type} [Monad m] [Access m] (d : Drawing) (path : String) :
    m (Except ChartError Unit) := do
  let extension := Storage.Path.extension? path.toList
  match extension.bind Image.Format.ofExtension? with
  | none => return .error (.image (.unknownFormat extension))
  | some format =>
    let content := d.encode? format
    match ← Access.create path (content.getD []) with
    | .error fault => return .error (.image (.storage fault))
    | .ok () =>
      if content.isSome then return .ok () else return .error (.image (.unwritable format))

/-- Draws some series and saves the image, after making sure that they can be drawn and that there
is a directory to save in. -/
def Series.save {m : Type → Type} [Monad m] [Access m] (s : Series) (path : String) :
    m (Except ChartError Unit) := do
  match s.check with
  | .error fault => return .error (.invalidData fault)
  | .ok () =>
    match directoryOf? path with
    | none => s.draw.save path
    | some directory =>
      if ← Access.isDirectory directory then s.draw.save path
      else return .error (.noDirectory directory)

end Chart

end RehashReport
