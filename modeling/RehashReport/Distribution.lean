import RehashReport.Number.Arithmetic
import RehashReport.Samples.Basic

/-!
# Distributions

What share of all buckets was rehashed how often. `Distribution.ofSamples` derives two series in
percent: the share of each record, and the share of the records from it on. The second one starts
with a zero in place of the whole, so its value at position `i`, from one on, covers the records
`i, i + 1, …`.

Sums are taken in 64 bits. The total is checked at every addition; the sums of suffixes are not, and
need not be, as no suffix exceeds the total.
-/

namespace RehashReport

/-- The series derived from a table of samples. -/
structure Distribution where
  rehashCounts : List UInt64
  /-- The number of all buckets. -/
  total : UInt64
  /-- The share of each record, in percent. -/
  frequencies : List Binary64
  /-- The number of buckets in the records from the second, the third, … on. -/
  tailSums : List UInt64
  /-- Zero, and then the shares of those numbers, in percent. -/
  cumulative : List Binary64
deriving DecidableEq

/-- Why a table has no distribution. -/
inductive DistributionFault
  /-- There are records but no buckets, so there is nothing to take a share of. -/
  | zeroTotal (rows : Nat)
  /-- The buckets are too many to count in 64 bits. -/
  | overflow
deriving DecidableEq, Repr

/-- The wording of a fault. -/
def DistributionFault.message : DistributionFault → String
  | .zeroTotal rows =>
    "Total bucket count is zero across " ++ rows.repr ++ " rows, percentages are undefined"
  | .overflow => "Total bucket count overflows a 64-bit integer"

namespace Distribution

/-- A record with its shares, as a line of a report shows it. -/
structure Row where
  rehashCount : UInt64
  bucketCount : UInt64
  frequency : Binary64
  cumulative : Binary64
deriving DecidableEq

/-- The sum of two counts, unless it takes more than 64 bits. -/
def checkedAdd (a b : UInt64) : Option UInt64 :=
  if a.toNat + b.toNat < UInt64.size then some (a + b) else none

/-- The sum of counts, unless it takes more than 64 bits. -/
def checkedSum (counts : List UInt64) : Option UInt64 :=
  counts.foldlM checkedAdd 0

/-- The sums of all nonempty suffixes, the longest one first, each from the next shorter one. -/
def suffixSums : List UInt64 → List UInt64
  | [] => []
  | count :: counts =>
    let sums := suffixSums counts
    (count + sums.headD 0) :: sums

/-- A share of a total in percent: both counts are rounded to floating point, the first is taken a
hundred times, and the quotient is rounded again. -/
def percentage (total count : UInt64) : Binary64 :=
  .ofNat count.toNat * .ofNat 100 / .ofNat total.toNat

/-- Derives the series of a table. A table without records has no shares, and none are taken. -/
def ofSamples (s : Samples) : Except DistributionFault Distribution :=
  let counts := s.bucketCounts.toList
  match checkedSum counts with
  | none => .error .overflow
  | some total =>
    if counts ≠ [] ∧ total = 0 then .error (.zeroTotal counts.length)
    else
      let tailSums := suffixSums counts.tail
      .ok {
        rehashCounts := s.rehashCounts.toList
        total := total
        frequencies := counts.map (percentage total)
        tailSums := tailSums
        cumulative := .zero :: tailSums.map (percentage total) }

/-- The lines of a report: entries of equal position of the four series, as far as all of them
go. -/
def rows (d : Distribution) (s : Samples) : List Row :=
  ((d.rehashCounts.zip s.bucketCounts.toList).zip (d.frequencies.zip d.cumulative)).map
    fun ((rehashCount, bucketCount), (frequency, cumulative)) =>
      ⟨rehashCount, bucketCount, frequency, cumulative⟩

end Distribution

end RehashReport
