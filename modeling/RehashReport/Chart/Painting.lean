import RehashReport.Chart.Drawing
import RehashReport.Image.Format

/-!
# Painting a chart

From a drawing to an image file. Lines and bars are painted in the order of the drawing, and the box
of the legend with its samples after them; texts are not, as the program brings no font. A bar ends
before its last column and before its last row.
-/

namespace RehashReport.Chart

open Image (Colour Raster Format)

/-- How much the fine lines of a grid hide, of 256 parts. -/
def lightOpacity : Nat := 25

/-- How much the stronger lines of a grid hide. -/
def boldOpacity : Nat := 51

/-- How much the background of the legend hides. -/
def legendOpacity : Nat := 204

/-- The first column of the legend. -/
def legendLeft : Int := 506

/-- Its last column. -/
def legendRight : Int := 620

/-- Its first row. -/
def legendTop : Int := 20

/-- Its last row. -/
def legendBottom : Int := 69

/-- The first column of the samples in the legend. -/
def sampleLeft : Int := 516

/-- The first rows of the samples. -/
def sampleTops : List Int := [30, 48]

namespace Drawing

/-- Paints a level or upright line, whose ends belong to it. -/
def paintLine (r : Raster) (s : Segment) : Raster :=
  r.fill .black (min s.x s.u) (min s.y s.v) (max s.x s.u + 1) (max s.y s.v + 1)

/-- Paints the lines of a grid, the upright ones first. These leave out the first and the last row
of the plotting area. -/
def paintGrid (opacity : Nat) (columns rows : List Int) (r : Raster) : Raster :=
  let r := columns.foldl
    (fun r x => r.cover .black opacity x (areaTop + 1) (x + 1) areaBottom) r
  rows.foldl (fun r y => r.cover .black opacity areaLeft y (areaRight + 1) (y + 1)) r

/-- Paints a bar. -/
def paintBar (r : Raster) (b : Rectangle) : Raster :=
  r.fill b.colour b.left b.top b.right b.bottom

/-- Paints the box of the legend, and its samples. -/
def paintLegend (entries : List LegendEntry) (r : Raster) : Raster :=
  let r := r.cover .white legendOpacity legendLeft legendTop legendRight legendBottom
  let sides : List Segment :=
    [⟨legendLeft, legendTop, legendLeft, legendBottom⟩,
      ⟨legendLeft, legendTop, legendRight, legendTop⟩,
      ⟨legendRight, legendBottom, legendLeft, legendBottom⟩,
      ⟨legendRight, legendBottom, legendRight, legendTop⟩]
  let r := sides.foldl paintLine r
  (entries.zip sampleTops).foldl
    (fun r (e, top) => r.fill e.colour sampleLeft top (sampleLeft + e.width) (top + e.height)) r

/-- Paints a drawing. -/
def paint (d : Drawing) : Raster :=
  let r := Raster.filled imageWidth imageHeight d.background.colour
  let r := paintGrid lightOpacity d.vertical.light d.horizontal.light r
  let r := paintGrid boldOpacity d.vertical.bold d.horizontal.bold r
  let r := d.axes.foldl paintLine r
  paintLegend d.legend (d.bars.foldl paintBar r)

/-- The image file of a drawing in a format, if that can be written. -/
def encode? (d : Drawing) (format : Format) : Option (List UInt8) := format.encode? d.paint

end Drawing

end RehashReport.Chart
