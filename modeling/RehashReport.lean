import RehashReport.Main
import RehashReport.Proofs.Chart.Area
import RehashReport.Proofs.Chart.Axis
import RehashReport.Proofs.Chart.Bars
import RehashReport.Proofs.Chart.Check
import RehashReport.Proofs.Chart.CountAxis
import RehashReport.Proofs.Chart.Label
import RehashReport.Proofs.Chart.Layers
import RehashReport.Proofs.Chart.Order
import RehashReport.Proofs.Chart.Outcome
import RehashReport.Proofs.Chart.Places
import RehashReport.Proofs.Chart.Points
import RehashReport.Proofs.Chart.Saving
import RehashReport.Proofs.Chart.Scale
import RehashReport.Proofs.Chart.ShareAxis
import RehashReport.Proofs.Chart.Tallest
import RehashReport.Proofs.Delimited.Boundary
import RehashReport.Proofs.Delimited.Writing
import RehashReport.Proofs.Distribution.Derivation
import RehashReport.Proofs.Distribution.Plottable
import RehashReport.Proofs.Distribution.Rows
import RehashReport.Proofs.Distribution.Shares
import RehashReport.Proofs.Distribution.Shown
import RehashReport.Proofs.Distribution.Sums
import RehashReport.Proofs.Image.Png
import RehashReport.Proofs.Number.Arithmetic
import RehashReport.Proofs.Number.Decimal
import RehashReport.Proofs.Number.Error
import RehashReport.Proofs.Number.Exact
import RehashReport.Proofs.Number.Integer
import RehashReport.Proofs.Number.Magnitude
import RehashReport.Proofs.Number.Rounding
import RehashReport.Proofs.Number.Signed
import RehashReport.Proofs.Options
import RehashReport.Proofs.Report
import RehashReport.Proofs.Samples.Fields
import RehashReport.Proofs.Samples.Layout
import RehashReport.Proofs.Samples.Loading
import RehashReport.Proofs.Samples.Prefix
import RehashReport.Proofs.Samples.Reader
import RehashReport.Proofs.Samples.Records
import RehashReport.Proofs.Samples.RoundTrip
import RehashReport.Proofs.Storage.FileTree
import RehashReport.Proofs.Storage.Path
import RehashReport.Proofs.Table
import RehashReport.Proofs.Text.Blank
import RehashReport.Proofs.Text.Numeral
import RehashReport.Proofs.Text.Split
import RehashReport.Proofs.Text.Utf8
