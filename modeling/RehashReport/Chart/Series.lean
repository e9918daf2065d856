import RehashReport.Distribution
import RehashReport.Number.Decimal

/-!
# Chart series

The data of a chart: for each rehash count a cumulative share and a share of its own, both in
percent. `Series.check` accepts what can be drawn. A share may lie outside of 0 to 100 by as much as
rounding can put it there, and is drawn at the nearer end.
-/

namespace RehashReport.Chart

/-- The data of a chart. -/
structure Series where
  rehashCounts : List UInt64
  cumulative : List Binary64
  frequency : List Binary64
deriving DecidableEq

/-- Why series cannot be drawn. -/
inductive SeriesFault
  /-- There is no rehash count. -/
  | empty
  /-- The three series are not of one length. -/
  | unequalLengths (rehashCounts cumulative frequency : Nat)
  /-- A share is not between the bounds. -/
  | outOfRange (share : Binary64)
deriving DecidableEq

/-- The wording of a fault. -/
def SeriesFault.message : SeriesFault → String
  | .empty => "Data cannot be empty"
  | .unequalLengths rehashCounts cumulative frequency =>
    "Series lengths differ: " ++ rehashCounts.repr ++ " rehash counts, " ++ cumulative.repr ++
      " cumulative, " ++ frequency.repr ++ " frequency values"
  | .outOfRange share => "Percentage " ++ share.plain ++ " is outside valid range 0-100"

/-- How far a share may lie outside of its range: a thousand millionth. -/
def tolerance : Binary64 := .ofRat (1 / 1000000000)

/-- The full share. -/
def hundred : Binary64 := .ofNat 100

/-- Whether a share can be drawn. A NaN cannot. -/
def inRange (share : Binary64) : Bool :=
  -tolerance ≤ share && share ≤ hundred + tolerance

/-- A share moved into its range. -/
def clampShare (share : Binary64) : Binary64 :=
  share.clamp .zero hundred

namespace Series

/-- The series of a distribution. -/
def ofDistribution (d : Distribution) : Series :=
  ⟨d.rehashCounts, d.cumulative, d.frequencies⟩

/-- All shares, the cumulative ones first. -/
def shares (s : Series) : List Binary64 := s.cumulative ++ s.frequency

/-- The first thing that keeps the series from being drawn. -/
def fault? (s : Series) : Option SeriesFault :=
  let n := s.rehashCounts.length
  if n = 0 then some .empty
  else if s.cumulative.length ≠ n ∨ s.frequency.length ≠ n then
    some (.unequalLengths n s.cumulative.length s.frequency.length)
  else (s.shares.find? fun share => !inRange share).map .outOfRange

/-- Whether the series can be drawn, and if not, why. -/
def check (s : Series) : Except SeriesFault Unit :=
  match s.fault? with
  | none => .ok ()
  | some fault => .error fault

end Series

end RehashReport.Chart
