import DiffSections.File.Facts
import DiffSections.Header
import DiffSections.Line
import DiffSections.Path.Boundary
import DiffSections.Text.Blank

/-!
# DiffSections.Dialect.Lines -- what the lines of a dialect mean

A dialect decides where a file section starts, which header lines it has, what the path of a
`---`/`+++` line names and which lines announce binary content. Lines are given from the one in
question on, since a plain unified section starts at a `---` line only if a `+++` line follows it.
Only the contents of lines matter here, never their ends.
-/

namespace DiffSections

set_option autoImplicit false

open Bytes

/-- A line that announces binary content. -/
inductive BinaryNotice where
  /-- `Binary files X and Y differ`: nothing follows. -/
  | summary
  /-- `GIT binary patch`: a payload follows, up to the next boundary. -/
  | patch
  deriving DecidableEq, Repr

/-- The start of a file section. -/
structure Opening where
  /-- The paths and infos that the boundary gives. -/
  facts : FileFacts
  /-- Whether the boundary is itself the `---`/`+++` pair. -/
  pairSeen : Bool
  deriving DecidableEq, Repr

/-- How many lines the boundary spans. -/
def Opening.lineCount (opening : Opening) : Nat :=
  if opening.pairSeen then 2 else 1

namespace Dialect

def boundaryHead : Bytes := ofAscii "diff --git "
def origHead : Bytes := ofAscii "--- "
def newHead : Bytes := ofAscii "+++ "
def devNull : Bytes := ofAscii "/dev/null"

/-- Whether a file section starts at the first of these lines. -/
def startsSection : Dialect → List Bytes → Bool
  | .git, line :: _ => (Line.content line).startsWith boundaryHead
  | .unified, line :: next :: _ =>
      (Line.content line).startsWith origHead && (Line.content next).startsWith newHead
  | _, _ => false

/-! ## The `---`/`+++` pair -/

/-- The path on a line of the pair, given what follows the line's head: all up to the first tab. -/
def revisionName (rest : Bytes) : Bytes :=
  rest.takeWhile (· != tab)

/-- The revision info on a line of the pair: the trimmed text after the first tab. -/
def revisionInfo (rest : Bytes) : Option String :=
  let info := Text.trim (Text.lossy ((rest.dropWhile (· != tab)).drop 1))
  if info = "" then none else some info

/-- The record path that the path on a line of the pair stands for, if it stands for any. -/
def pairPath? : Dialect → Side → Bytes → Option String
  | .git, side, name =>
      if name = devNull then none else (Quoted.pathOf? name).map (Boundary.pathText side)
  | .unified, _, name => some (Text.lossy name)

/-- Add what one line of the pair says about its side. -/
def addRevision (dialect : Dialect) (side : Side) (rest : Bytes) (facts : FileFacts) : FileFacts :=
  let facts := match dialect.pairPath? side (revisionName rest) with
    | some path => facts.setPath path side
    | none => facts
  match revisionInfo rest with
  | some info => facts.setInfo info side
  | none => facts

/-! ## Boundaries -/

/-- The facts that a boundary starts with: the two paths. -/
def factsOfPaths (orig new : String) : FileFacts := { origPath := orig, newPath := new }

/-- Start a section at the first of these lines, if it is a boundary. -/
def open? : Dialect → List Bytes → Except Fault (Option Opening)
  | .git, line :: _ =>
      match after? boundaryHead (Line.content line) with
      | none => .ok none
      | some rest =>
          match Boundary.paths? rest with
          | some (orig, new) => .ok (some ⟨factsOfPaths orig new, false⟩)
          | none => .error (.boundaryPaths rest)
  | .unified, line :: next :: _ =>
      match after? origHead (Line.content line), after? newHead (Line.content next) with
      | some orig, some new =>
          let facts := factsOfPaths (Text.lossy (revisionName orig)) (Text.lossy (revisionName new))
          .ok (some ⟨addRevision .unified .new new (addRevision .unified .orig orig facts), true⟩)
      | _, _ => .ok none
  | _, _ => .ok none

/-! ## Other lines of a section -/

/-- Read a line's content as an extended header and add it to the facts of the file. -/
def readHeader : Dialect → Bytes → FileFacts → Except Fault (Option FileFacts)
  | .unified, _, _ => .ok none
  | .git, line, facts =>
      match Header.read line with
      | .error fault => .error fault
      | .ok none => .ok none
      | .ok (some header) =>
          match header.addTo facts with
          | .error fault => .error fault
          | .ok facts => .ok (some facts)

/-- `Binary files X and Y differ` -/
def isBinarySummary (line : Bytes) : Bool :=
  line.startsWith (ofAscii "Binary files ") && line.endsWith (ofAscii " differ")

def binaryNotice? : Dialect → Bytes → Option BinaryNotice
  | .git, line =>
      if line = ofAscii "GIT binary patch" then some .patch
      else if isBinarySummary line then some .summary
      else none
  | .unified, line => if isBinarySummary line then some .summary else none

/-! ## Boundaries are what sections start at -/

theorem open?_ne_none_iff (dialect : Dialect) (lines : List Bytes) :
    dialect.open? lines ≠ .ok none ↔ dialect.startsSection lines = true := by
  match dialect, lines with
  | .git, [] => simp [open?, startsSection]
  | .git, line :: _ =>
      simp only [open?, startsSection, startsWith]
      cases after? boundaryHead (Line.content line) with
      | none => simp
      | some rest => cases h : Boundary.paths? rest <;> simp [h]
  | .unified, [] => simp [open?, startsSection]
  | .unified, [_] => simp [open?, startsSection]
  | .unified, line :: next :: _ =>
      simp only [open?, startsSection, startsWith]
      cases after? origHead (Line.content line) <;>
        cases after? newHead (Line.content next) <;> simp

end Dialect

end DiffSections
