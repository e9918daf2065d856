import RehashReport.Number.Arithmetic
import RehashReport.Number.Decimal

/-!
# Axes

Which values of a range get a grid line, where on the axis they are, and what is written beside
them.
-/

namespace RehashReport.Chart

/-!
## Points of an axis

Which values of a range get a grid line. The points are the multiples of a step that is a power of
ten, a half, a fifth or a tenth of one, chosen as fine as a limit on their number allows.

`Range.spacing` finds the step: it starts from a decade near the width of the range and refines it
until the next part would give too many points. `Range.emit` walks from the first multiple to the
last one. It carries the distance from a base instead of the point itself, so that it moves on even
where a step is lost in the rounding of the points.
-/

/-- The values of an axis, from the lowest to the highest. -/
structure Range where
  low : Binary64
  high : Binary64
deriving DecidableEq

/-- The distance of one from the next greater number: differences below it count as none. -/
def epsilon : Binary64 := .ofRat (1 / 0x10000000000000)

/-- Ten. -/
def ten : Binary64 := .ofNat 10

/-- What is left of `x` beyond the last multiple of `step`. A rest that is all but a whole step is
none. -/
def remainder (x step : Binary64) : Binary64 :=
  let rest := x - (x / step).floor * step
  if (rest - step).abs < epsilon then .zero else rest

/-- The step from point to point, and the grain that distances are rounded to. -/
structure Spacing where
  step : Binary64
  grain : Binary64
deriving DecidableEq

namespace Range

/-- From end to end. -/
def width (r : Range) : Binary64 := r.high - r.low

/-- The first multiple of a step in the range. -/
def first (r : Range) (step : Binary64) : Binary64 :=
  let left := r.low - remainder r.low step
  if left < r.low then left + step else left

/-- The last multiple of a step in the range. -/
def last (r : Range) (step : Binary64) : Binary64 :=
  r.high - remainder r.high step

/-- How many multiples of an `n`-th of a decade are in the range, by division and rounding. -/
def pointCount (r : Range) (decade : Binary64) (n : Nat) : Nat :=
  let step := decade / .ofNat n
  let span := (r.last step - r.first step) / decade * .ofNat n
  (Binary64.ofNat 1 + span).nearest.toNat64

/-- Takes the parts of a decade in turn for as long as they give at most `most` points. The answer
is the last step taken, and whether all parts were. -/
def refine (r : Range) (most : Nat) (decade : Binary64) : List Nat → Binary64 → Binary64 × Bool
  | [], step => (step, true)
  | n :: ns, step =>
    if most < r.pointCount decade n then (step, false)
    else r.refine most decade ns (decade / .ofNat n)

/-- Refines decade after decade, through at most `fuel` of them. -/
def search (r : Range) (most : Nat) : Nat → Spacing → Spacing
  | 0, s => s
  | fuel + 1, s =>
    match r.refine most s.step [2, 5, 10] s.step with
    | (step, false) => ⟨step, s.grain⟩
    | (_, true) => r.search most fuel ⟨s.step / ten, s.grain / ten⟩

/-- More decades than there are between the largest number and the smallest. -/
def decades : Nat := 700

/-- The spacing for at most `most` points, searched from the decade with the given exponent, or from
the next one if that has too many points already. -/
def spacing (r : Range) (most : Nat) (exponent : Int) : Spacing :=
  let decade := Binary64.ofRat ((10 : Rat) ^ exponent)
  let start : Spacing :=
    if most < 1 + (r.width / decade).floor.toNat64 then
      ⟨decade * ten, decade / ten * ten⟩
    else ⟨decade, decade / ten⟩
  r.search most decades start

/-- Walks from a base to the last point. `distance` is that of the next point from the base; one
that rounds to less than nothing is taken a grain farther. At most `fuel` points are made. -/
def emit (s : Spacing) (base last : Binary64) : Nat → Binary64 → List Binary64
  | 0, _ => []
  | fuel + 1, distance =>
    if -epsilon ≤ last - distance - base then
      let rounded := (distance / s.grain).nearest * s.grain
      let distance := if rounded < .zero then distance + s.grain else distance
      (distance + base) :: emit s base last fuel (distance + s.step)
    else []

/-- More steps than lead from the base past the last point, also if the rounding of the last point
holds back the distance. -/
def stepLimit (s : Spacing) (base last : Binary64) : Nat :=
  let way := last.toRat - base.toRat + last.abs.toRat / 0x10000000000000
  2 * (way / s.step.toRat).ceil.toNat + 4

/-- The points of a spacing. -/
def points (r : Range) (s : Spacing) : List Binary64 :=
  let first := r.first s.step
  let last := r.last s.step
  let base := (first / s.grain).floor * s.grain
  emit s base last (stepLimit s base last) (first - base)

/-- At most `most` points of a range, from a decade with the given exponent on. A range without
width has one. -/
def keyPointsFrom (r : Range) (most : Nat) (exponent : Int) : List Binary64 :=
  if (r.low - r.high).abs < epsilon then [r.low]
  else r.points (r.spacing most exponent)

/-- At most `most` points of a range. -/
def keyPoints (r : Range) (most : Nat) : List Binary64 :=
  r.keyPointsFrom most (Rounding.floorLog10 r.width.toRat)

end Range

/-!
## From values to pixels

A scale lays a range of values along a row or column of pixels.
-/

/-- A range of values, and the pixels of its two ends; the second may be the smaller one. -/
structure Scale where
  range : Range
  first : Int
  last : Int
deriving DecidableEq

/-- What keeps a pixel from being missed by a rounding error. -/
def pixelSlack : Binary64 := .ofRat (1 / 1000)

/-- A small integer as a floating-point number. -/
def ofInt (n : Int) : Binary64 := .ofRat n

namespace Scale

/-- The pixel of a value. The part of the range below the value is taken of the distance in pixels
and cut to a whole number, toward the first pixel. If the range is a single value, it is half of the
distance, counted from zero. -/
def pixel (s : Scale) (v : Binary64) : Int :=
  let distance := s.last - s.first
  if s.range.low ≤ s.range.high ∧ s.range.high ≤ s.range.low then distance.tdiv 2
  else
    let part := (v - s.range.low) / (s.range.high - s.range.low)
    match part with
    | .infinite negative => if negative then s.first else s.last
    | part =>
      if 0 < distance then
        s.first + (ofInt distance * part + pixelSlack).floor.toInt32
      else if distance < 0 then
        s.first + (ofInt distance * part - pixelSlack).ceil.toInt32
      else s.last

/-- Whether a pixel is one of those between the ends of the scale, both of them included. Rounding
in a narrow range of large values can lead beyond. -/
def spans (s : Scale) (pixel : Int) : Bool :=
  min s.first s.last ≤ pixel && pixel ≤ max s.first s.last

end Scale

/-!
## Axis labels

The texts beside the ticks of the two axes.
-/

/-- A share without places. -/
def shareLabel (v : Binary64) : String := v.fixed 0 ++ "%"

/-- How near to an integer a position has to be to count as a rehash count. -/
def labelTolerance : Binary64 := .ofRat (1 / 1000000000)

/-- The rehash count at a position of the horizontal axis; positions between rehash counts have no
label. -/
def rehashCountLabel (v : Binary64) : String :=
  let nearest := v.nearest
  if (v - nearest).abs < labelTolerance then nearest.toInt64.repr else ""

end RehashReport.Chart
