import Mathlib
import RehashReport.Proofs.Chart.Outcome
import RehashReport.Proofs.Distribution.Plottable
import RehashReport.Proofs.Samples.Loading
import RehashReport.Proofs.Samples.Reader
import RehashReport.Report

/-!
# How a run ends

Every run in a file tree ends in one of nine ways, and the tree and the options alone decide in
which (`Ending`).  A run that fails changes nothing and prints nothing; one that does not has put
the image of the chart where the output leads (`run_spec`).
-/

namespace RehashReport.Report

open Storage (Fault FileTree Location)
open Chart (HasDirectory IsPng PutsImage directoryOf? formatOf?)

/-- The report of a run in a tree, and the tree after it. -/
def outcome (o : Options) (t : FileTree) : Report × FileTree :=
  (run o : StateM FileTree Report).run t

/-! ## Endings -/

/-- The input of a run is a file with a table of samples. -/
def Loads (t : FileTree) (o : Options) (s : Samples) : Prop :=
  ∃ content, t.openFile o.input = .ok (.file content) ∧ Samples.read content = .ok s

/-- There is something to draw, and the number of buckets fits in 64 bits. -/
structure Drawable (s : Samples) : Prop where
  size_ne : s.size ≠ 0
  pos : 0 < s.bucketTotal
  lt : s.bucketTotal < 2 ^ 64

/-- A run has something to draw and a directory for it. -/
def Draws (t : FileTree) (o : Options) : Prop :=
  (∃ s, Loads t o s ∧ Drawable s) ∧ HasDirectory t o.output

/-- How a run ends, and why it ends so. -/
inductive Ending (t : FileTree) (o : Options) : Option ReportError → Prop
  /-- The input cannot be opened. -/
  | unreadable {fault : Fault} :
      t.openFile o.input = .error fault → Ending t o (some (.loading (.unreadable fault)))
  /-- The input is no table of samples. -/
  | malformed {content : List UInt8} {error : SamplesError} :
      t.openFile o.input = .ok (.file content) → Samples.read content = .error error →
        Ending t o (some (.loading (.malformed error)))
  /-- There are too many buckets to count. -/
  | overflow {s : Samples} :
      Loads t o s → 2 ^ 64 ≤ s.bucketTotal → Ending t o (some (.distribution .overflow))
  /-- There are rows but no buckets. -/
  | zeroTotal {s : Samples} :
      Loads t o s → s.size ≠ 0 → s.bucketTotal = 0 →
        Ending t o (some (.distribution (.zeroTotal s.size)))
  /-- There are no rows. -/
  | noRows {s : Samples} :
      Loads t o s → s.size = 0 → Ending t o (some (.chart (.invalidData .empty)))
  /-- The output is to be in a directory that is none. -/
  | noDirectory {s : Samples} {directory : String} :
      Loads t o s → Drawable s → directoryOf? o.output = some directory →
        t.isDirectory directory = false → Ending t o (some (.chart (.noDirectory directory)))
  /-- The extension of the output is that of no image format. -/
  | unknownFormat :
      Draws t o → formatOf? o.output = none →
        Ending t o
          (some (.chart (.image (.unknownFormat (Storage.Path.extension? o.output.toList)))))
  /-- No file can have the path of the output. -/
  | unnameable {fault : Fault} :
      Draws t o → formatOf? o.output = some .png → t.Unnameable o.output.toList →
        t.target o.output.toList = .error fault →
          Ending t o (some (.chart (.image (.storage fault))))
  /-- The chart is saved. -/
  | saved :
      Draws t o → formatOf? o.output = some .png → ¬t.Unnameable o.output.toList → Ending t o none

/-! ## Stages -/

section

variable {t u : FileTree} {o : Options} {s : Samples} {d : Distribution}

theorem run_load_of_loads (h : Loads t o s) :
    (Samples.load o.input : StateM FileTree _).run t = pure (.ok s, t) := by
  obtain ⟨content, hopen, hread⟩ := h
  rw [Samples.run_load, hopen]
  dsimp only
  rw [Storage.Node.read, Samples.ofReading_ok, hread]
  rfl

/-- What is left of a run that fails: its error, and nothing else. -/
def Fails (o : Options) (t : FileTree) (error : ReportError) : Prop :=
  (outcome o t).1.failure = some error ∧ (outcome o t).1.output = "" ∧ (outcome o t).2 = t

theorem fails_of_outcome {journal : List Journal.Event} {error : ReportError}
    (h : outcome o t = (fail journal error, t)) : Fails o t error := by
  rw [Fails, h]
  exact ⟨rfl, rfl, rfl⟩

theorem fails_of_load_error {error : LoadError}
    (h : (Samples.load o.input : StateM FileTree _).run t = pure (.error error, t)) :
    Fails o t (.loading error) := by
  apply fails_of_outcome
  simp only [outcome, run, StateT.run_bind, h, pure_bind]
  rfl

theorem fails_of_distribution_fault {fault : DistributionFault} (hs : Loads t o s)
    (h : Distribution.ofSamples s = .error fault) : Fails o t (.distribution fault) := by
  apply fails_of_outcome
  simp only [outcome, run, StateT.run_bind, run_load_of_loads hs, pure_bind, h]
  rfl

theorem fails_of_save_error {error : ChartError} (hs : Loads t o s)
    (hd : Distribution.ofSamples s = .ok d)
    (h : ((Chart.Series.ofDistribution d).save o.output : StateM FileTree _).run t =
      pure (.error error, t)) : Fails o t (.chart error) := by
  apply fails_of_outcome
  simp only [outcome, run, StateT.run_bind, run_load_of_loads hs, pure_bind, hd, h]
  rfl

/-- A run whose chart is saved prints the table and leaves the tree of the saving. -/
theorem outcome_of_save (hs : Loads t o s) (hd : Distribution.ofSamples s = .ok d)
    (h : ((Chart.Series.ofDistribution d).save o.output : StateM FileTree _).run t =
      pure (.ok (), u)) :
    (outcome o t).1.failure = none ∧ (outcome o t).1.output = display o d s ∧
      (outcome o t).2 = u := by
  simp only [outcome, run, StateT.run_bind, run_load_of_loads hs, pure_bind, hd, h]
  exact ⟨rfl, rfl, rfl⟩

theorem ofSamples_of_drawable (h : Drawable s) :
    Distribution.ofSamples s = .ok (.ofTotal s (.ofNat s.bucketTotal)) :=
  Distribution.ofSamples_of_total h.lt (.inr h.pos.ne')

theorem isSound_of_drawable (h : Drawable s) :
    (Chart.Series.ofDistribution (.ofTotal s (.ofNat s.bucketTotal))).IsSound :=
  Chart.Series.check_eq_ok_iff.1 (Distribution.check_ofTotal h.size_ne h.pos h.lt)

/-! ## Endings and what is left -/

/-- A run that ends with an error ends with nothing else. -/
theorem fails_of_ending {error : ReportError} (h : Ending t o (some error)) :
    Fails o t error := by
  cases h with
  | unreadable hopen =>
    apply fails_of_load_error
    rw [Samples.run_load, hopen]
    rfl
  | malformed hopen hread =>
    apply fails_of_load_error
    rw [Samples.run_load, hopen]
    dsimp only
    rw [Storage.Node.read, Samples.ofReading_ok, hread]
    rfl
  | overflow hs htotal =>
    exact fails_of_distribution_fault hs (Distribution.ofSamples_of_overflow htotal)
  | zeroTotal hs hsize htotal =>
    exact fails_of_distribution_fault hs (Distribution.ofSamples_of_zero hsize htotal)
  | @noRows s hs hsize =>
    have htotal := Samples.bucketTotal_of_isEmpty hsize
    have hd := Distribution.ofSamples_of_total (s := s) (by rw [htotal]; decide) (.inl hsize)
    have hcheck := Distribution.check_ofTotal_of_isEmpty hsize (.ofNat s.bucketTotal)
    exact fails_of_save_error hs hd (Chart.save_of_fault hcheck)
  | noDirectory hs hdrawable hdirectory hnot =>
    have hsound := isSound_of_drawable hdrawable
    exact fails_of_save_error hs (ofSamples_of_drawable hdrawable)
      (Chart.Series.outcome_of_ending_error (.noDirectory hsound hdirectory hnot))
  | unknownFormat hdraws hformat =>
    obtain ⟨⟨s, hs, hdrawable⟩, hdirectory⟩ := hdraws
    have hsound := isSound_of_drawable hdrawable
    exact fails_of_save_error hs (ofSamples_of_drawable hdrawable)
      (Chart.Series.outcome_of_ending_error (.unknownFormat hsound hdirectory hformat))
  | unnameable hdraws hformat hpath htarget =>
    obtain ⟨⟨s, hs, hdrawable⟩, hdirectory⟩ := hdraws
    have hsound := isSound_of_drawable hdrawable
    exact fails_of_save_error hs (ofSamples_of_drawable hdrawable)
      (Chart.Series.outcome_of_ending_error
        (.unnameable hsound hdirectory hformat hpath htarget))

/-- A run without an error has printed what it should and saved the chart. -/
theorem putsImage_of_ending (hnot : t.isDirectory o.output = false) (h : Ending t o none) :
    (outcome o t).1.failure = none ∧ PutsImage o.output t (outcome o t).2 ∧
      ∃ s d, Loads t o s ∧ Distribution.ofSamples s = .ok d ∧
        (outcome o t).1.output = display o d s := by
  cases h with
  | saved hdraws hformat hpath =>
    obtain ⟨⟨s, hs, hdrawable⟩, hdirectory⟩ := hdraws
    have hd := ofSamples_of_drawable hdrawable
    have hsound := isSound_of_drawable hdrawable
    obtain ⟨u, hsave, himage⟩ :=
      Chart.Series.outcome_of_ending_ok hnot (.saved hsound hdirectory hformat hpath)
    obtain ⟨hfailure, houtput, htree⟩ := outcome_of_save hs hd hsave
    rw [← htree] at himage
    exact ⟨hfailure, himage, s, _, hs, hd, houtput⟩

/-- There is no other way to end. -/
theorem exists_ending (hinput : t.isDirectory o.input = false)
    (hformat : ∀ format, formatOf? o.output = some format → format = .png) :
    ∃ ending, Ending t o ending := by
  cases hopen : t.openFile o.input with
  | error fault => exact ⟨_, .unreadable hopen⟩
  | ok node =>
    cases node with
    | directory =>
      rw [FileTree.isDirectory, hopen] at hinput
      cases hinput
    | file content =>
      cases hread : Samples.read content with
      | error error => exact ⟨_, .malformed hopen hread⟩
      | ok s =>
        have hs : Loads t o s := ⟨content, hopen, hread⟩
        by_cases hsize : s.size = 0
        · exact ⟨_, .noRows hs hsize⟩
        by_cases hzero : s.bucketTotal = 0
        · exact ⟨_, .zeroTotal hs hsize hzero⟩
        by_cases hlt : s.bucketTotal < 2 ^ 64
        · have hdrawable : Drawable s := ⟨hsize, Nat.pos_of_ne_zero hzero, hlt⟩
          have hsound := isSound_of_drawable hdrawable
          -- what is left is saving the series
          have hends : ∃ ending, Chart.Series.Ending t
              (.ofDistribution (.ofTotal s (.ofNat s.bucketTotal))) o.output ending :=
            Chart.Series.exists_ending hformat
          obtain ⟨ending, hending⟩ := hends
          cases hending with
          | invalidData hfault =>
            exact absurd hsound (Chart.Series.exists_hasFault_iff.1 ⟨_, hfault⟩)
          | noDirectory _ hdirectory hnot =>
            exact ⟨_, .noDirectory hs hdrawable hdirectory hnot⟩
          | unknownFormat _ hdirectory hpng =>
            exact ⟨_, .unknownFormat ⟨⟨s, hs, hdrawable⟩, hdirectory⟩ hpng⟩
          | unnameable _ hdirectory hpng hpath htarget =>
            exact ⟨_, .unnameable ⟨⟨s, hs, hdrawable⟩, hdirectory⟩ hpng hpath htarget⟩
          | saved _ hdirectory hpng hpath =>
            exact ⟨_, .saved ⟨⟨s, hs, hdrawable⟩, hdirectory⟩ hpng hpath⟩
        · exact ⟨_, .overflow hs (not_lt.1 hlt)⟩

/-- **How a run ends.**  If the input is no directory, the output is none either, and its extension
is that of PNG files or of no images at all, a run ends as `Ending` says.  If it fails, it has
printed nothing and changed nothing.  If it does not, it has printed the table that was asked for
and changed one thing, which is the picture that it has put where the output leads. -/
theorem run_spec (hinput : t.isDirectory o.input = false)
    (houtput : t.isDirectory o.output = false)
    (hformat : ∀ format, formatOf? o.output = some format → format = .png) :
    (∀ ending, (outcome o t).1.failure = ending ↔ Ending t o ending) ∧
      ((outcome o t).1.failure ≠ none → (outcome o t).1.output = "" ∧ (outcome o t).2 = t) ∧
      ((outcome o t).1.failure = none → PutsImage o.output t (outcome o t).2 ∧
        ∃ s d, Loads t o s ∧ Distribution.ofSamples s = .ok d ∧
          (outcome o t).1.output = display o d s) := by
  have hfailure : ∀ {ending}, Ending t o ending → (outcome o t).1.failure = ending := by
    intro ending hending
    cases ending with
    | none => exact (putsImage_of_ending houtput hending).1
    | some error => exact (fails_of_ending hending).1
  obtain ⟨ending, hending⟩ := exists_ending hinput hformat
  have hthis := hfailure hending
  refine ⟨?_, ?_, ?_⟩
  · intro other
    constructor
    · rintro rfl
      rwa [hthis]
    · exact hfailure
  · intro hne
    cases ending with
    | none => exact absurd hthis hne
    | some error => exact (fails_of_ending hending).2
  · intro hnone
    rw [hthis] at hnone
    rw [hnone] at hending
    exact (putsImage_of_ending houtput hending).2

end

/-! ## A tree with a table -/

/-- The working directory of this tree is its root, and holds a table and an old chart. -/
def sampleTree : FileTree where
  entries :=
    [(["in.csv".toList], .file (Utf8.encode "rehashes per bucket, count\n0,3\n1,1\n".toList)),
      (["chart.png".toList], .file [])]
  workingDirectory := []

theorem draws_sampleTree {output : String} (noDisplay : Bool) (h : directoryOf? output = none) :
    Draws sampleTree ⟨"in.csv", output, noDisplay⟩ := by
  have hread : Samples.read (Utf8.encode "rehashes per bucket, count\n0,3\n1,1\n".toList) =
      .ok (.ofList [⟨0, 3⟩, ⟨1, 1⟩]) := Samples.eq_ok_of_toOption (by decide +kernel)
  have hopen : sampleTree.openFile "in.csv" =
      .ok (.file (Utf8.encode "rehashes per bucket, count\n0,3\n1,1\n".toList)) := by decide +kernel
  exact ⟨⟨_, ⟨_, hopen, hread⟩, by decide, by decide, by decide⟩, Chart.hasDirectory_of_none h⟩

/-- The old chart is replaced. -/
theorem run_spec_sampleTree :
    let o : Options := ⟨"in.csv", "chart.png", true⟩
    sampleTree.isDirectory o.input = false ∧ sampleTree.isDirectory o.output = false ∧
      formatOf? o.output = some .png ∧ (outcome o sampleTree).1.failure = none ∧
      PutsImage o.output sampleTree (outcome o sampleTree).2 := by
  have hinput : sampleTree.isDirectory "in.csv" = false := by decide +kernel
  have houtput : sampleTree.isDirectory "chart.png" = false := by decide +kernel
  have hformat : formatOf? "chart.png" = some .png := by decide +kernel
  have htarget : sampleTree.target "chart.png".toList = .ok ["chart.png".toList] := by
    decide +kernel
  have hpath := FileTree.nameable_of_target rfl htarget
  have hpng : ∀ format, formatOf? "chart.png" = some format → format = .png := by
    intro format h
    rw [hformat] at h
    exact (Option.some.inj h).symm
  obtain ⟨hending, -, himage⟩ := run_spec (t := sampleTree) (o := ⟨"in.csv", "chart.png", true⟩)
    hinput houtput hpng
  have hdraws := draws_sampleTree true (show directoryOf? "chart.png" = none by decide +kernel)
  have hfailure := (hending none).2 (.saved hdraws hformat hpath)
  exact ⟨hinput, houtput, hformat, hfailure, (himage hfailure).1⟩

/-- A run can fail although there is something to draw, the directory of the output is there and the
extension is that of PNG files: here the output ends in a slash. -/
theorem not_saved_of_draws :
    ¬∀ (t : FileTree) (o : Options), t.isDirectory o.input = false →
      t.isDirectory o.output = false → formatOf? o.output = some .png → Draws t o →
        (outcome o t).1.failure = none := by
  intro h
  have hformat : formatOf? "chart.png/" = some .png := by decide +kernel
  have hdraws := draws_sampleTree true (show directoryOf? "chart.png/" = none by decide +kernel)
  have hsaved := h sampleTree ⟨"in.csv", "chart.png/", true⟩ (by decide +kernel)
    (by decide +kernel) hformat hdraws
  have htarget : sampleTree.target "chart.png/".toList = .error .isDirectory := by decide +kernel
  have hfails := fails_of_ending
    (.unnameable hdraws hformat (.endsInSlash (by decide)) htarget)
  rw [hfails.1] at hsaved
  cases hsaved

end RehashReport.Report
