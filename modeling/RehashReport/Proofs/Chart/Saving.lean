import Mathlib
import RehashReport.Chart.Saving
import RehashReport.Proofs.Image.Png
import RehashReport.Proofs.Storage.FileTree

/-!
# What saving a chart comes to

The ways in which saving a chart in a file tree can end, each under the condition that leads to it.
Whenever it fails the tree stays as it was.  When it does not, the image is at the end of the path
and nothing else has changed (`exists_save`, `exists_putsImage`).
-/

namespace RehashReport

open Storage (Fault FileTree Location)

namespace Chart

/-! ## The image -/

namespace Drawing

theorem paintGrid_hasSize {r : Image.Raster} {width height : ℕ} (h : r.HasSize width height)
    (opacity : ℕ) (columns rows : List ℤ) :
    (paintGrid opacity columns rows r).HasSize width height := by
  rw [paintGrid]
  refine .foldl (fun r y hr => hr.cover ..) rows ?_
  exact .foldl (fun r x hr => hr.cover ..) columns h

theorem paintLegend_hasSize {r : Image.Raster} {width height : ℕ} (h : r.HasSize width height)
    (entries : List LegendEntry) : (paintLegend entries r).HasSize width height := by
  rw [paintLegend]
  refine .foldl (fun r x hr => hr.fill ..) _ ?_
  refine .foldl (fun r s hr => hr.fill ..) _ ?_
  exact h.cover ..

/-- Every drawing is painted in the same size. -/
theorem paint_hasSize (d : Drawing) : d.paint.HasSize 640 480 := by
  rw [paint]
  refine paintLegend_hasSize (.foldl (fun r b hr => hr.fill ..) _ ?_) _
  refine .foldl (fun r s hr => hr.fill ..) _ ?_
  exact paintGrid_hasSize (paintGrid_hasSize (Image.Raster.filled_hasSize ..) ..) ..

end Drawing

/-- The bytes of a PNG file with a picture of a size: a raster was written so, the front of the file
gives the size, and the picture that a reader finds in the file has the rows of the raster. -/
def IsPng (content : List UInt8) (width height : ℕ) : Prop :=
  (∃ r : Image.Raster, r.HasSize width height ∧ content = Image.Png.encode r ∧
      Image.Png.decode? content = some ⟨width, height, r.rows⟩) ∧
    Image.Png.size? content = some (width, height)

theorem encode_paint_isPng (d : Drawing) : IsPng (Image.Png.encode d.paint) 640 480 := by
  have h := d.paint_hasSize
  have hread := Image.Png.decode?_encode h (by decide) (by decide) (by decide)
  refine ⟨⟨d.paint, h, rfl, hread⟩, ?_⟩
  rw [Image.Png.size?_encode (by rw [h.width_eq]; decide) (by rw [h.height_eq]; decide),
    h.width_eq, h.height_eq]

/-! ## Saving -/

/-- The format that a path asks for by its extension. -/
def formatOf? (path : String) : Option Image.Format :=
  (Storage.Path.extension? path.toList).bind Image.Format.ofExtension?

/-- The directory of a path is there, if it names one. -/
def HasDirectory (t : FileTree) (path : String) : Prop :=
  ∀ directory, directoryOf? path = some directory → t.isDirectory directory = true

theorem hasDirectory_of_none {t : FileTree} {path : String} (h : directoryOf? path = none) :
    HasDirectory t path := by
  intro directory hdirectory
  rw [h] at hdirectory
  cases hdirectory

theorem HasDirectory.toFileTree {t : FileTree} {path : String} (h : HasDirectory t path) :
    t.HasDirectory path.toList := by
  intro parent hparent hne
  refine h _ ?_
  rw [directoryOf?, hparent]
  simp [hne]

section

variable {t : FileTree} {s : Series} {path : String}

/-- Series that cannot be drawn are not saved. -/
theorem save_of_fault {fault : SeriesFault} (h : s.check = .error fault) :
    (s.save path : StateM FileTree _).run t = (.error (.invalidData fault), t) := by
  rw [Series.save, h]
  rfl

/-- Nothing is saved in a directory that is none. -/
theorem save_of_no_directory (hcheck : s.check = .ok ()) {directory : String}
    (hdirectory : directoryOf? path = some directory) (hnot : t.isDirectory directory = false) :
    (s.save path : StateM FileTree _).run t = (.error (.noDirectory directory), t) := by
  rw [Series.save, hcheck, hdirectory]
  dsimp only
  rw [StateT.run_bind, FileTree.run_isDirectory, hnot]
  rfl

/-- With the directory there, saving series is saving their drawing. -/
theorem save_of_hasDirectory (hcheck : s.check = .ok ()) (hdirectory : HasDirectory t path) :
    (s.save path : StateM FileTree _).run t = (s.draw.save path : StateM FileTree _).run t := by
  rw [Series.save, hcheck]
  dsimp only
  cases hpath : directoryOf? path with
  | none => rfl
  | some directory =>
    dsimp only
    rw [StateT.run_bind, FileTree.run_isDirectory, hdirectory directory hpath]
    rfl

/-- Without a known format nothing is saved. -/
theorem save_of_unknown_format (hcheck : s.check = .ok ()) (hdirectory : HasDirectory t path)
    (hformat : formatOf? path = none) :
    (s.save path : StateM FileTree _).run t =
      (.error (.image (.unknownFormat (Storage.Path.extension? path.toList))), t) := by
  rw [save_of_hasDirectory hcheck hdirectory, Drawing.save]
  dsimp only
  rw [← formatOf?, hformat]
  rfl

theorem exists_name_of_formatOf? {format : Image.Format} (h : formatOf? path = some format) :
    ∃ name, Storage.Path.lastName? path.toList = some name ∧ name ≠ Storage.above := by
  rw [formatOf?, Option.bind_eq_some_iff] at h
  obtain ⟨extension, hextension, -⟩ := h
  exact Storage.Path.exists_lastName?_of_extension? hextension

/-- Without a place for the file nothing is saved. -/
theorem save_of_target_error (hcheck : s.check = .ok ()) (hdirectory : HasDirectory t path)
    (hformat : formatOf? path = some .png) {fault : Fault}
    (htarget : t.target path.toList = .error fault) :
    (s.save path : StateM FileTree _).run t = (.error (.image (.storage fault)), t) := by
  rw [save_of_hasDirectory hcheck hdirectory, Drawing.save]
  dsimp only
  rw [← formatOf?, hformat]
  dsimp only
  rw [StateT.run_bind, FileTree.run_create_of_error (FileTree.create_of_target_error htarget _)]
  rfl

/-- **Saving a chart.**  With the directory there and a path that a file can have, the image is put
at one location, to which the path then leads, and nothing else is changed. -/
theorem exists_save (hcheck : s.check = .ok ()) (hdirectory : HasDirectory t path)
    (hformat : formatOf? path = some .png) (hpath : ¬t.Unnameable path.toList)
    (hnot : t.isDirectory path = false) :
    ∃ (m : Location) (content : List UInt8), IsPng content 640 480 ∧
      t.target path.toList = .ok m ∧ t.node? m ≠ some .directory ∧
      (s.save path : StateM FileTree _).run t = (.ok (), t.insert m (.file content)) ∧
      (t.insert m (.file content)).openFile path = .ok (.file content) := by
  obtain ⟨name, hname, habove⟩ := exists_name_of_formatOf? hformat
  obtain ⟨m, htarget, hm, hcreate⟩ :=
    FileTree.exists_create hname habove hdirectory.toFileTree hpath hnot
  refine ⟨m, Image.Png.encode s.draw.paint, encode_paint_isPng s.draw, htarget, hm, ?_,
    (hcreate _).2⟩
  rw [save_of_hasDirectory hcheck hdirectory, Drawing.save]
  dsimp only
  rw [← formatOf?, hformat]
  dsimp only
  rw [StateT.run_bind, FileTree.run_create_of_ok (hcreate _).1]
  rfl

/-- What saving a chart does to a tree: it puts a picture where the path leads, and changes nothing
else. -/
def PutsImage (path : String) (t u : FileTree) : Prop :=
  ∃ m content, IsPng content 640 480 ∧ t.target path.toList = .ok m ∧
    u.openFile path = .ok (.file content) ∧ u.node? m = some (.file content) ∧
    (∀ l, l ≠ m → u.node? l = t.node? l) ∧ u.workingDirectory = t.workingDirectory

/-- Saving a chart so puts its image in the tree. -/
theorem exists_putsImage (hcheck : s.check = .ok ()) (hdirectory : HasDirectory t path)
    (hformat : formatOf? path = some .png) (hpath : ¬t.Unnameable path.toList)
    (hnot : t.isDirectory path = false) :
    ∃ u, (s.save path : StateM FileTree _).run t = (.ok (), u) ∧ PutsImage path t u := by
  obtain ⟨m, content, hpng, htarget, hm, hsave, hopen⟩ :=
    exists_save hcheck hdirectory hformat hpath hnot
  refine ⟨_, hsave, m, content, hpng, htarget, hopen, ?_, ?_, rfl⟩
  · exact FileTree.node?_insert_self t (FileTree.ne_nil_of_node? hm) _
  · intro l hl
    exact FileTree.node?_insert_of_ne t hl _

end

end Chart

end RehashReport
