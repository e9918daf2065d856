import RehashReport.Chart.Saving
import RehashReport.Journal.Event
import RehashReport.Options
import RehashReport.Samples.Reader
import RehashReport.Table

/-!
# Reports

From a file of samples to a chart and a table. `Report.run` goes through the stages in turn, which
are loading, deriving the distribution, saving the chart and writing the table, and ends at the
first that fails. The chart is the only thing that it writes to storage, and the last thing that
can fail, so a run that fails does not leave a chart behind.
-/

namespace RehashReport

open Storage (Access)

/-- Why a run fails. -/
inductive ReportError
  | loading (error : LoadError)
  | distribution (fault : DistributionFault)
  | chart (error : ChartError)
deriving DecidableEq

/-- The wording of an error. -/
def ReportError.message : ReportError → String
  | .loading error => "Parsing error: " ++ error.message
  | .distribution fault => "Distribution error: " ++ fault.message
  | .chart error => "Plot error: " ++ error.message

/-- What a run leaves behind besides the chart: its journal, what it prints, and its error if it
has one. -/
structure Report where
  journal : List Journal.Event
  output : String
  failure : Option ReportError
deriving DecidableEq

namespace Report

/-- The title of the table. -/
def title : String := "Rehash Distribution"

/-- What is told about samples. -/
def loaded (s : Samples) : List Journal.Event :=
  [.loadedRehashCounts s.rehashCounts.toList, .loadedBucketCounts s.bucketCounts.toList]

/-- What is told about a distribution. -/
def derived (d : Distribution) : List Journal.Event :=
  [.totalBuckets d.total, .frequencies d.frequencies, .tailSums d.tailSums,
    .cumulative d.cumulative]

/-- The end of a run that fails. -/
def fail (journal : List Journal.Event) (error : ReportError) : Report :=
  ⟨journal ++ [.failed error.message], "", some error⟩

/-- The table and the line end after it, unless it is not wanted. -/
def display (o : Options) (d : Distribution) (s : Samples) : String :=
  if o.noDisplay then "" else Table.render (some title) (d.rows s) ++ "\n"

/-- Makes the report that the options ask for. -/
def run {m : Type → Type} [Monad m] [Access m] (o : Options) : m Report := do
  let journal := [Journal.Event.loading o.input]
  match ← Samples.load o.input with
  | .error error => return fail journal (.loading error)
  | .ok s =>
    let journal := journal ++ loaded s
    match Distribution.ofSamples s with
    | .error fault => return fail journal (.distribution fault)
    | .ok d =>
      let journal := journal ++ derived d
      match ← (Chart.Series.ofDistribution d).save o.output with
      | .error error => return fail journal (.chart error)
      | .ok () =>
        return ⟨journal ++ [.saved o.output s.size d.total], display o d s, none⟩

end Report

end RehashReport
