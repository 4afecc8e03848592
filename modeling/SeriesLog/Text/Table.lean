import SeriesLog.Text.Columns

/-! # Tables as text

A table in a frame with round corners. Titles stand in the middle of their columns, cells on
the left; a cell with line breaks takes several lines. -/
namespace SeriesLog

structure TextTable where
  titles : List String
  rows : List (List String)
  deriving DecidableEq, Repr

namespace TextTable

def cellLines (cell : String) : List String := cell.splitOn "\n"

def cellWidth (cell : String) : Nat := ((cellLines cell).map columns).foldl max 0

def widths (t : TextTable) : List Nat :=
  t.rows.foldl (fun widths row => List.zipWith max widths (row.map cellWidth))
    (t.titles.map cellWidth)

def spaces (count : Nat) : String := String.ofList (List.replicate count ' ')

def leftAligned (width : Nat) (line : String) : String := line ++ spaces (width - columns line)

def centred (width : Nat) (line : String) : String :=
  let free := width - columns line
  spaces (free / 2) ++ line ++ spaces (free - free / 2)

def rule (left middle right : String) (widths : List Nat) : String :=
  let dashes := widths.map fun width => String.ofList (List.replicate (width + 2) '─')
  left ++ String.intercalate middle dashes ++ right

def rowLines (align : Nat → String → String) (widths : List Nat) (row : List String) :
    List String :=
  let cells := row.map cellLines
  let height := (cells.map List.length).foldl max 0
  (List.range height).map fun i =>
    "│ " ++ String.intercalate " │ "
      (List.zipWith (fun width lines => align width (lines[i]?.getD "")) widths cells) ++ " │"

def lines (t : TextTable) : List String :=
  let widths := t.widths
  rule "╭" "┬" "╮" widths :: rowLines centred widths t.titles ++
    rule "├" "┼" "┤" widths :: t.rows.flatMap (rowLines leftAligned widths) ++
    [rule "╰" "┴" "╯" widths]

end TextTable

end SeriesLog
