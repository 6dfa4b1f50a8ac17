import DiffSections.Hunk
import DiffSections.Text.Utf8

/-!
# DiffSections.Hunk.Header -- the line that opens a hunk

`@@ -START[,LENGTH] +START[,LENGTH] @@[ HEADING]`. An omitted length is one. A number that does not
fit a word makes the line no header. Anything may follow the closing `@@`; one space before the
heading is not part of it, and an empty heading is none.
-/

namespace DiffSections.Hunk

set_option autoImplicit false

open Bytes

/-- Whether a line announces a hunk, well-formed or not. -/
def announcedBy (line : Bytes) : Bool :=
  line.startsWith (ofAscii "@@")

/-- Read the digits a line starts with. -/
def number? (line : Bytes) : Option (Nat × Bytes) :=
  let digits := line.takeWhile isDigit
  if digits = [] ∨ wordLimit ≤ decimal digits then none
  else some (decimal digits, line.dropWhile isDigit)

/-- Read `START` or `START,LENGTH`. -/
def range? (line : Bytes) : Option (Nat × Nat × Bytes) := do
  let (start, line) ← number? line
  match after? [comma] line with
  | none => return (start, 1, line)
  | some line =>
      let (length, line) ← number? line
      return (start, length, line)

/-- The text after the closing `@@`. -/
def headingOf (line : Bytes) : Option String :=
  match (after? [space] line).getD line with
  | [] => none
  | heading => some (Text.lossy heading)

/-- The hunk a line's content opens. -/
def ofHeader? (line : Bytes) : Option Hunk := do
  let line ← after? (ofAscii "@@ -") line
  let (origStart, origLen, line) ← range? line
  let line ← after? (ofAscii " +") line
  let (newStart, newLen, line) ← range? line
  let line ← after? (ofAscii " @@") line
  return { origStart, origLen, newStart, newLen, heading := headingOf line }

end DiffSections.Hunk
