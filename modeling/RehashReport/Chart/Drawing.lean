import RehashReport.Chart.Axis
import RehashReport.Chart.Series
import RehashReport.Image.Raster

/-!
# The drawing of a chart

What a chart consists of, in pixels: a background, a grid, two axes with ticks and titles, two bars
for each rehash count, and a legend. The cumulative bars are drawn first, so the bars of the shares
themselves lie over them.
-/

namespace RehashReport.Chart

open Image (Colour)

/-- The cumulative bars. -/
def cumulativeColour : Colour := ⟨0xBF, 0xBF, 0x00⟩

/-- The bars of the shares themselves. -/
def frequencyColour : Colour := ⟨0x1F, 0x77, 0xB4⟩

/-- A filled rectangle between two columns and two rows of pixels. -/
structure Rectangle where
  colour : Colour
  left : Int
  top : Int
  right : Int
  bottom : Int
deriving DecidableEq, Repr

/-- The rectangle with two opposite corners. -/
def Rectangle.ofCorners (colour : Colour) (x y u v : Int) : Rectangle :=
  ⟨colour, min x u, min y v, max x u, max y v⟩

/-- A straight line between two pixels. -/
structure Segment where
  x : Int
  y : Int
  u : Int
  v : Int
deriving DecidableEq, Repr

/-- A mark on an axis: its pixel, and its label. -/
structure Tick where
  pixel : Int
  label : String
deriving DecidableEq, Repr

/-- A line of text: where it starts, by how many degrees it is turned, and its size. -/
structure Title where
  text : String
  x : Int
  y : Int
  degrees : Nat
  size : Nat
deriving DecidableEq, Repr

/-- An entry of the legend: a text, and the colour and size of the sample before it. -/
structure LegendEntry where
  label : String
  colour : Colour
  width : Nat
  height : Nat
deriving DecidableEq, Repr

/-- The lines of one direction: fine ones below, and stronger ones over them. The ticks stand at
those of the stronger lines that cross the axis. -/
structure Mesh where
  light : List Int
  bold : List Int
  ticks : List Tick
deriving DecidableEq, Repr

/-- A chart, ready to be painted from the background up. -/
structure Drawing where
  background : Rectangle
  vertical : Mesh
  horizontal : Mesh
  titles : List Title
  axes : List Segment
  bars : List Rectangle
  legend : List LegendEntry
deriving DecidableEq, Repr

/-! ## Measures -/

/-- The width of the image. -/
def imageWidth : Nat := 640

/-- The height of the image. -/
def imageHeight : Nat := 480

/-- The first column of the plotting area. -/
def areaLeft : Int := 80

/-- Its last column. -/
def areaRight : Int := 624

/-- The first row of the plotting area, from above. -/
def areaTop : Int := 15

/-- Its last row. -/
def areaBottom : Int := 419

/-- The length of the line that marks a tick. -/
def tickLength : Int := 5

/-- Half of one. -/
def half : Binary64 := .ofRat (1 / 2)

/-- From the middle of a bar to its side: a bar is four fifths as wide as there is room for it. -/
def barHalfWidth : Binary64 := .ofRat (4 / 5) / .ofNat 2

/-- What the tallest bar is multiplied by to leave some room above it. -/
def headroom : Binary64 := .ofRat (105 / 100)

/-! ## Scales -/

namespace Series

/-- The least rehash count. -/
def leastCount (s : Series) : UInt64 :=
  match s.rehashCounts with
  | [] => 0
  | n :: ns => ns.foldl min n

/-- The greatest rehash count. -/
def greatestCount (s : Series) : UInt64 :=
  match s.rehashCounts with
  | [] => 0
  | n :: ns => ns.foldl max n

/-- The values of the horizontal axis, with half a place on either side. -/
def countRange (s : Series) : Range :=
  ⟨.ofNat s.leastCount.toNat - half, .ofNat s.greatestCount.toNat + half⟩

/-- The height of the tallest bar. -/
def tallest (s : Series) : Binary64 :=
  (s.shares.map clampShare).foldl Binary64.maximum .zero

/-- The values of the vertical axis, up to one percent at least. -/
def shareRange (s : Series) : Range :=
  ⟨.zero, (s.tallest * headroom).maximum (.ofNat 1)⟩

/-- The horizontal scale. -/
def countScale (s : Series) : Scale := ⟨s.countRange, areaLeft, areaRight⟩

/-- The vertical scale, upward. -/
def shareScale (s : Series) : Scale := ⟨s.shareRange, areaBottom, areaTop⟩

/-- How many labels the horizontal axis may have. -/
def countLabels (s : Series) : Nat := s.rehashCounts.length + 1

end Series

/-- How many labels the vertical axis may have. -/
def shareLabels : Nat := 11

/-! ## Parts -/

/-- The lines of one direction: at most `labels` strong ones and ten times as many fine ones. -/
def mesh (scale : Scale) (labels : Nat) (label : Binary64 → String) : Mesh :=
  let points := scale.range.keyPoints labels
  { light := (scale.range.keyPoints (10 * labels)).map scale.pixel
    bold := points.map scale.pixel
    ticks := (points.map fun v => ⟨scale.pixel v, label v⟩).filter fun t => scale.spans t.pixel }

/-- The bar of one share. -/
def bar (counts shares : Scale) (colour : Colour) (count : UInt64) (share : Binary64) : Rectangle :=
  let x := Binary64.ofNat count.toNat
  .ofCorners colour (counts.pixel (x - barHalfWidth)) (shares.pixel .zero)
    (counts.pixel (x + barHalfWidth)) (shares.pixel (clampShare share))

/-- The bars of one series. -/
def bars (s : Series) (colour : Colour) (values : List Binary64) : List Rectangle :=
  List.zipWith (bar s.countScale s.shareScale colour) s.rehashCounts values

/-- The vertical axis with its ticks, and then the horizontal one. -/
def axes (vertical horizontal : Mesh) : List Segment :=
  [⟨areaLeft - 1, areaTop, areaLeft - 1, areaBottom⟩] ++
    (horizontal.ticks.map fun t => ⟨areaLeft - 1 - tickLength, t.pixel, areaLeft - 1, t.pixel⟩) ++
    [⟨areaLeft, areaBottom + 1, areaRight, areaBottom + 1⟩] ++
    vertical.ticks.map fun t => ⟨t.pixel, areaBottom + 1, t.pixel, areaBottom + 1 + tickLength⟩

/-- The titles of the two axes. -/
def axisTitles : List Title :=
  [⟨"Frequency out of Total Buckets", 15, 217, 270, 18⟩, ⟨"Rehash Count", 352, 465, 0, 18⟩]

/-- What the two colours mean. -/
def legend : List LegendEntry :=
  [⟨"Cumulative", cumulativeColour, 15, 10⟩, ⟨"Frequency", frequencyColour, 15, 10⟩]

/-- The drawing of some series. -/
def Series.draw (s : Series) : Drawing :=
  let vertical := mesh s.countScale s.countLabels rehashCountLabel
  let horizontal := mesh s.shareScale shareLabels shareLabel
  { background := ⟨.white, 0, 0, imageWidth, imageHeight⟩
    vertical := vertical
    horizontal := horizontal
    titles := axisTitles
    axes := axes vertical horizontal
    bars := bars s cumulativeColour s.cumulative ++ bars s frequencyColour s.frequency
    legend := legend }

end RehashReport.Chart
