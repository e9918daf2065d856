import Mathlib
import RehashReport.Proofs.Chart.Bars
import RehashReport.Proofs.Chart.Saving

/-!
# How saving series ends

Saving arbitrary series in a file tree ends in one of five ways, and the series, the tree and the
path alone decide in which (`Ending`): the series are looked at first, then the directory of the
path, then its extension, then whether a file can have the path at all.  Whatever goes wrong, the
tree stays as it was; when nothing does, the picture is where the path leads and nothing else has
changed, and no share is drawn farther from its place than the tolerance allows (`save_spec`).
-/

namespace RehashReport.Chart.Series

open Storage (Fault FileTree)

/-- What saving some series in a tree comes to, and the tree after it. -/
def outcome (s : Series) (path : String) (t : FileTree) : Except ChartError Unit × FileTree :=
  (s.save path : StateM FileTree _).run t

/-! ## Endings -/

/-- How saving ends, and why it ends so. -/
inductive Ending (t : FileTree) (s : Series) (path : String) : Except ChartError Unit → Prop
  /-- The series cannot be drawn. -/
  | invalidData {fault : SeriesFault} :
      HasFault s fault → Ending t s path (.error (.invalidData fault))
  /-- The chart is to be in a directory that is none. -/
  | noDirectory {directory : String} :
      IsSound s → directoryOf? path = some directory → t.isDirectory directory = false →
        Ending t s path (.error (.noDirectory directory))
  /-- The extension is that of no image format. -/
  | unknownFormat :
      IsSound s → HasDirectory t path → formatOf? path = none →
        Ending t s path
          (.error (.image (.unknownFormat (Storage.Path.extension? path.toList))))
  /-- No file can have the path. -/
  | unnameable {fault : Fault} :
      IsSound s → HasDirectory t path → formatOf? path = some .png → t.Unnameable path.toList →
        t.target path.toList = .error fault → Ending t s path (.error (.image (.storage fault)))
  /-- The chart is saved. -/
  | saved :
      IsSound s → HasDirectory t path → formatOf? path = some .png → ¬t.Unnameable path.toList →
        Ending t s path (.ok ())

section

variable {t : FileTree} {s : Series} {path : String}

/-- Saving that ends with an error leaves the tree alone. -/
theorem outcome_of_ending_error {error : ChartError} (h : Ending t s path (.error error)) :
    s.outcome path t = (.error error, t) := by
  cases h with
  | invalidData hfault => exact save_of_fault (check_eq_error_iff.2 hfault)
  | noDirectory hsound hdirectory hnot =>
    exact save_of_no_directory (check_eq_ok_iff.2 hsound) hdirectory hnot
  | unknownFormat hsound hdirectory hformat =>
    exact save_of_unknown_format (check_eq_ok_iff.2 hsound) hdirectory hformat
  | unnameable hsound hdirectory hformat _ htarget =>
    exact save_of_target_error (check_eq_ok_iff.2 hsound) hdirectory hformat htarget

/-- Saving without an error puts the image in the tree. -/
theorem outcome_of_ending_ok (hnot : t.isDirectory path = false) (h : Ending t s path (.ok ())) :
    ∃ u, s.outcome path t = (.ok (), u) ∧ PutsImage path t u := by
  cases h with
  | saved hsound hdirectory hformat hpath =>
    exact exists_putsImage (check_eq_ok_iff.2 hsound) hdirectory hformat hpath hnot

/-- There is no other way to end. -/
theorem exists_ending (hformat : ∀ format, formatOf? path = some format → format = .png) :
    ∃ ending, Ending t s path ending := by
  by_cases hsound : IsSound s
  · by_cases hdirectory : HasDirectory t path
    · cases hpng : formatOf? path with
      | none => exact ⟨_, .unknownFormat hsound hdirectory hpng⟩
      | some format =>
        rw [hformat format hpng] at hpng
        by_cases hpath : t.Unnameable path.toList
        · obtain ⟨name, hname, -⟩ := exists_name_of_formatOf? hpng
          obtain ⟨fault, hfault⟩ := FileTree.exists_fault_of_unnameable hname hpath
          exact ⟨_, .unnameable hsound hdirectory hpng hpath hfault⟩
        · exact ⟨_, .saved hsound hdirectory hpng hpath⟩
    · rw [HasDirectory] at hdirectory
      push Not at hdirectory
      obtain ⟨directory, hparent, hnot⟩ := hdirectory
      exact ⟨_, .noDirectory hsound hparent (by simpa using hnot)⟩
  · obtain ⟨fault, hfault⟩ := exists_hasFault_iff.2 hsound
    exact ⟨_, .invalidData hfault⟩

/-- A share to blame is named in the message. -/
theorem message_outOfRange (share : Binary64) :
    (ChartError.invalidData (.outOfRange share)).message =
      "Invalid data: Percentage " ++ share.plain ++ " is outside valid range 0-100" := by
  have herror : ∀ fault, (ChartError.invalidData fault).message =
      "Invalid data: " ++ fault.message := fun _ => rfl
  have hfault : (SeriesFault.outOfRange share).message =
      "Percentage " ++ share.plain ++ " is outside valid range 0-100" := rfl
  have hstart : "Invalid data: Percentage " = "Invalid data: " ++ "Percentage " := by
    decide +kernel
  rw [herror, hfault, hstart]
  simp only [String.append_assoc]

/-! ## What is drawn -/

/-- A bar stands for its share after the cut to the range, which hardly moves a tolerable one. -/
theorem Shows.top_of_isSound {i : ℕ} {x : Binary64} {b : Rectangle} (hsound : IsSound s)
    (h : Shows s i x b) :
    b.top = s.shareScale.pixel (clampShare x) ∧ (clampShare x).isFinite = true ∧
      0 ≤ (clampShare x).toRat ∧ (clampShare x).toRat ≤ 100 ∧
      |(clampShare x).toRat - x.toRat| ≤ 1001 / 10 ^ 12 := by
  have hcheck := check_eq_ok_iff.2 hsound
  obtain ⟨hx, count, colour, -, rfl⟩ := h.exists_bar hcheck
  obtain ⟨y, hreaches⟩ := exists_reaches (isFinite_of_check hcheck)
  exact ⟨hreaches.top_bar hx, abs_clampShare_sub_le (hsound.tolerable x hx)⟩

/-! ## The result -/

/-- **How saving ends.**  Take any series, any tree, and a path that is no directory and whose
extension is that of PNG files or of no images at all.  Saving ends as `Ending` says, and for the
series if and only if they cannot be drawn; a share that is to blame is named in the message.  An
error leaves the tree as it was.  Without one, the picture is where the path leads and the tree is
otherwise unchanged.  Shares are drawn cut to their range, not more than a thousand millionth and a
thousandth of it from where they are. -/
theorem save_spec (hnot : t.isDirectory path = false)
    (hformat : ∀ format, formatOf? path = some format → format = .png) :
    (∀ ending, (s.outcome path t).1 = ending ↔ Ending t s path ending) ∧
      ((∃ fault, (s.outcome path t).1 = .error (.invalidData fault)) ↔ ¬IsSound s) ∧
      (∀ share, (ChartError.invalidData (.outOfRange share)).message =
        "Invalid data: Percentage " ++ share.plain ++ " is outside valid range 0-100") ∧
      (∀ error, (s.outcome path t).1 = .error error → (s.outcome path t).2 = t) ∧
      ((s.outcome path t).1 = .ok () → PutsImage path t (s.outcome path t).2) ∧
      (IsSound s → ∀ i x b, Shows s i x b →
        b.top = s.shareScale.pixel (clampShare x) ∧ (clampShare x).isFinite = true ∧
          0 ≤ (clampShare x).toRat ∧ (clampShare x).toRat ≤ 100 ∧
          |(clampShare x).toRat - x.toRat| ≤ 1001 / 10 ^ 12) := by
  have hresult : ∀ {ending}, Ending t s path ending → (s.outcome path t).1 = ending := by
    intro ending hending
    cases ending with
    | error error => rw [outcome_of_ending_error hending]
    | ok _ =>
      obtain ⟨u, hu, -⟩ := outcome_of_ending_ok hnot hending
      rw [hu]
  obtain ⟨ending, hending⟩ := exists_ending (t := t) (s := s) hformat
  have hiff : ∀ other, (s.outcome path t).1 = other ↔ Ending t s path other := by
    intro other
    constructor
    · rintro rfl
      rwa [hresult hending]
    · exact hresult
  refine ⟨hiff, ?_, message_outOfRange, ?_, ?_, fun hsound i x b h => h.top_of_isSound hsound⟩
  · rw [← exists_hasFault_iff]
    constructor
    · rintro ⟨fault, hfault⟩
      obtain hfault := (hiff _).1 hfault
      cases hfault with
      | invalidData hfault => exact ⟨fault, hfault⟩
    · rintro ⟨fault, hfault⟩
      exact ⟨fault, hresult (.invalidData hfault)⟩
  · intro error herror
    rw [outcome_of_ending_error ((hiff _).1 herror)]
  · intro hok
    obtain ⟨u, hu, himage⟩ := outcome_of_ending_ok hnot ((hiff _).1 hok)
    rw [hu]
    exact himage

end

/-! ## A tree with a chart -/

/-- The working directory of this tree is its root, and holds an old chart. -/
def chartTree : FileTree where
  entries := [(["chart.PNG".toList], .file [])]
  workingDirectory := []

/-- The old chart is replaced, although two shares are a little outside of their range; but of
shares that are no numbers the first cumulative one is blamed, and the old chart is left. -/
theorem save_spec_chartTree :
    let s : Series := ⟨[7, 2], [-.zero, .ofRat (100 + 1 / 2000000000)],
      [.ofNat 60, .ofRat (-1 / 2000000000)]⟩
    let bad : Series := ⟨[7, 2], [.ofNat 100, .infinite false], [.nan, .ofNat 1]⟩
    chartTree.isDirectory "chart.PNG" = false ∧ formatOf? "chart.PNG" = some .png ∧
      (s.outcome "chart.PNG" chartTree).1 = .ok () ∧
      PutsImage "chart.PNG" chartTree (s.outcome "chart.PNG" chartTree).2 ∧
      bad.outcome "chart.PNG" chartTree =
        (.error (.invalidData (.outOfRange (.infinite false))), chartTree) := by
  intro s bad
  have hnot : chartTree.isDirectory "chart.PNG" = false := by decide +kernel
  have hformat : formatOf? "chart.PNG" = some .png := by decide +kernel
  have hpng : ∀ format, formatOf? "chart.PNG" = some format → format = .png := by
    intro format h
    rw [hformat] at h
    exact (Option.some.inj h).symm
  have hdirectory : HasDirectory chartTree "chart.PNG" :=
    hasDirectory_of_none (by decide +kernel)
  have htarget : chartTree.target "chart.PNG".toList = .ok ["chart.PNG".toList] := by
    decide +kernel
  have hsound : IsSound s := check_eq_ok_iff.1 (by decide +kernel)
  have hfault : HasFault bad (.outOfRange (.infinite false)) :=
    check_eq_error_iff.1 (by decide +kernel)
  obtain ⟨hending, -, -, -, himage, -⟩ := save_spec (s := s) hnot hpng
  obtain ⟨hbad, -, -, hunchanged, -⟩ := save_spec (s := bad) hnot hpng
  have hpath := FileTree.nameable_of_target rfl htarget
  have hok := (hending _).2 (.saved hsound hdirectory hformat hpath)
  have herror := (hbad _).2 (.invalidData hfault)
  exact ⟨hnot, hformat, hok, himage hok, Prod.ext herror (hunchanged _ herror)⟩

/-- Series can be left unsaved although they can be drawn, the directory of the path is there and
the extension is that of PNG files: here the path ends in a slash. -/
theorem not_saved_of_isSound :
    ¬∀ (t : FileTree) (s : Series) (path : String), t.isDirectory path = false →
      formatOf? path = some .png → IsSound s → HasDirectory t path →
        (s.outcome path t).1 = .ok () := by
  intro h
  have hformat : formatOf? "chart.png/" = some .png := by decide +kernel
  have hdirectory : HasDirectory chartTree "chart.png/" :=
    hasDirectory_of_none (by decide +kernel)
  have htarget : chartTree.target "chart.png/".toList = .error .isDirectory := by decide +kernel
  have hsound : IsSound ⟨[0, 1], [.zero, .ofNat 25], [.ofNat 75, .ofNat 25]⟩ :=
    check_eq_ok_iff.1 (by decide +kernel)
  have hsaved := h chartTree _ "chart.png/" (by decide +kernel) hformat hsound hdirectory
  have hfails := outcome_of_ending_error
    (.unnameable hsound hdirectory hformat (.endsInSlash (by decide)) htarget)
  rw [hfails] at hsaved
  cases hsaved

end RehashReport.Chart.Series
