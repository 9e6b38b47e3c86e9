import Ntfs.Text.Width

/-!
# Text tables

A grid is a list of rows of cells.  Every column is as wide as its widest line, a cell may hold
several lines, and a rule of dashes stands above, between and below the rows.
-/

namespace Ntfs.Grid

/-- The lines of a text: each ends at a line feed, with a carriage return right before it left
out, and nothing follows the last line feed. -/
def lines (cs : List Char) : List (List Char) := go [] cs
where
  /-- `line` holds the characters of the unfinished line, last first. -/
  go (line : List Char) : List Char → List (List Char)
  | [] => if line.isEmpty then [] else [line.reverse]
  | '\n' :: rest =>
    (match line with
      | '\r' :: line => line.reverse
      | line => line.reverse) :: go [] rest
  | c :: rest => go (c :: line) rest

/-- A cell is laid out as its lines. -/
abbrev Cell := List (List Char)

def cellWidth (cell : Cell) : Nat := (cell.map Width.ofChars).foldl max 0

/-- How many columns of cells a grid has: as many as its longest row. -/
def columns (rows : List (List Cell)) : Nat := (rows.map List.length).foldl max 0

def columnWidth (rows : List (List Cell)) (index : Nat) : Nat :=
  (rows.map fun row => cellWidth (row.getD index [])).foldl max 0

def rule (widths : List Nat) : String :=
  "+" ++ String.join (widths.map fun w => "".pushn '-' (w + 2) ++ "+") ++ "\n"

/-- One line of a cell, filled up to the width of its column. -/
def cellLine (width : Nat) (cell : Cell) (line : Nat) : String :=
  let cs := cell.getD line []
  " " ++ String.ofList cs ++ "".pushn ' ' (width - Width.ofChars cs) ++ " |"

/-- A row, as tall as its tallest cell and at least one line. -/
def row (widths : List Nat) (cells : List Cell) : String :=
  let height := max 1 ((cells.map List.length).foldl max 0)
  String.join <| (List.range height).map fun line =>
    "|" ++ String.join (widths.mapIdx fun index width => cellLine width (cells.getD index []) line)
      ++ "\n"

/-- The printed table.  Rows with fewer cells are filled with empty ones. -/
def render (rows : List (List String)) : String :=
  let rows := rows.map fun row => row.map fun cell => lines cell.toList
  let widths := (List.range (columns rows)).map (columnWidth rows)
  rule widths ++ String.join (rows.map fun cells => row widths cells ++ rule widths)

end Ntfs.Grid
