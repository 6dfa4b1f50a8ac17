import DiffSections.Summary

/-!
# DiffSections.Report.Histogram -- changed lines as bars

Each file has a line with its path, how many of its lines changed, and a bar of a plus for each line
it gains and a minus for each it loses. If the file that changes most has more than `longestBar` of
them all bars shrink in proportion, but neither side of a bar that has lines vanishes.
-/

namespace DiffSections.Histogram

set_option autoImplicit false

/-- The longest bar. -/
def longestBar : Nat := 40

/-- The length of one side of a bar, where `widest` lines make a whole one. -/
def shrink (widest lines : Nat) : Nat :=
  if lines = 0 then 0 else max (lines * longestBar / widest) 1

/-- The lengths of the two sides of a bar, where no file changes more than `widest` lines. -/
def barLengths (insertions deletions widest : Nat) : Nat × Nat :=
  if widest ≤ longestBar then (insertions, deletions)
  else (shrink widest insertions, shrink widest deletions)

def repeated (c : Char) (count : Nat) : String := String.ofList (List.replicate count c)

/-- A text with blanks after it, to a width. -/
def padRight (width : Nat) (text : String) : String :=
  text ++ repeated ' ' (width - text.length)

/-- A text with blanks before it, to a width. -/
def padLeft (width : Nat) (text : String) : String :=
  repeated ' ' (width - text.length) ++ text

/-- The most lines that a file changes. -/
def widest (rows : List FileRow) : Nat :=
  (rows.map FileRow.changed).foldl max 0

/-- The bar of a file, after a blank if there is one. -/
def bar (widest : Nat) (row : FileRow) : String :=
  let (plus, minus) := barLengths row.insertions row.deletions widest
  if plus + minus = 0 then "" else " " ++ repeated '+' plus ++ repeated '-' minus

/-- What stands beside a path. -/
def detail (widest : Nat) (row : FileRow) : String :=
  if row.binary then "Bin"
  else padLeft (toString widest).length (toString row.changed) ++ bar widest row

/-- The line of a file. -/
def line (nameWidth widest : Nat) (row : FileRow) : String :=
  " " ++ padRight nameWidth row.newPath ++ " | " ++ detail widest row ++ "\n"

/-- The lines of all files. Paths are padded to the longest. -/
def lines (rows : List FileRow) : List String :=
  let nameWidth := (rows.map fun row => row.newPath.length).foldl max 0
  rows.map (line nameWidth (widest rows))

end DiffSections.Histogram
