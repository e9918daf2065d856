import RehashReport.Distribution
import RehashReport.Number.Decimal
import RehashReport.Text.Basic

/-!
# Tables

A distribution as a table of text. Cells are left aligned between bars with one blank on either
side, a column is as wide as its widest cell, and a rule stands above, between and below the lines.
-/

namespace RehashReport.Table

/-- The cells of a line of the report. Shares have two places. -/
def cells (row : Distribution.Row) : List (List Char) :=
  [row.rehashCount.toNat.repr.toList, row.bucketCount.toNat.repr.toList,
    (row.frequency.fixed 2 ++ "%").toList, (row.cumulative.fixed 2 ++ "%").toList]

/-- The heads of the columns. -/
def header : List (List Char) :=
  ["Rehashes".toList, "Buckets".toList, "Frequency".toList, "Cumulative".toList]

/-- The widths of the columns after one more line. -/
def widen (widths : List Nat) (line : List (List Char)) : List Nat :=
  List.zipWith (fun width cell => max width cell.length) widths line

/-- The widths of the columns: that of the widest cell of each, heads included. -/
def widths (rows : List Distribution.Row) : List Nat :=
  (rows.map cells).foldl widen (header.map List.length)

/-- A cell with its blanks, filled up to a width. -/
def pad (width : Nat) (cell : List Char) : List Char :=
  ' ' :: cell ++ List.replicate (width - cell.length) ' ' ++ [' ']

/-- A line of cells. -/
def line (widths : List Nat) (cells : List (List Char)) : List Char :=
  '|' :: (List.zipWith pad widths cells).flatMap fun cell => cell ++ ['|']

/-- A rule. -/
def rule (widths : List Nat) : List Char :=
  '+' :: widths.flatMap fun width => List.replicate (width + 2) '-' ++ ['+']

/-- The lines of the table, from rule to rule. -/
def grid (rows : List Distribution.Row) : List (List Char) :=
  let widths := widths rows
  rule widths :: (header :: rows.map cells).flatMap fun texts => [line widths texts, rule widths]

/-- A title and a line of signs below it, as many as the title has bytes. -/
def heading (title : String) : List (List Char) :=
  [title.toList, List.replicate title.utf8ByteSize '=']

/-- The table of some lines of the report, below its title if it has one. -/
def render (title : Option String) (rows : List Distribution.Row) : String :=
  if rows.isEmpty then "No rehash data available"
  else
    let above := match title with
      | none => []
      | some title => heading title
    String.ofList (Text.join '\n' (above ++ grid rows))

end RehashReport.Table
