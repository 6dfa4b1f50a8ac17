import DiffSections.File.Record
import DiffSections.Proofs.Header
import DiffSections.Proofs.Hunk.Header
import DiffSections.Proofs.Path.Boundary

/-!
# DiffSections.Proofs.Writer -- diffs to be written, and the records they stand for

The parts of a diff from the body line up. Each part has the lines that write it (`lines`) and what
a reader should make of them (`HunkText.hunk`, `UnifiedSection.record`, `GitSection.record`), and
carries the proofs that it can be written: texts hold no octet that would end their line, numbers
fit a word, headers have values of their kind.

A hunk's lengths and counts are those of its body, and a marker after a body line says that the
sides this line stands on have no line end there.
-/

namespace DiffSections

set_option autoImplicit false

open Bytes

/-- What a body line of this kind starts with. -/
def BodyKind.head : BodyKind → UInt8
  | .context => space
  | .removed => minus
  | .added => plus

/-! ## Body lines -/

/-- A body line, and the marker line after it if there is one. -/
structure BodyText where
  kind : BodyKind
  text : Bytes
  /-- What stands after the backslash of the marker line. -/
  marker : Option Bytes := none
  text_unbroken : lf ∉ text
  marker_unbroken : ∀ note ∈ marker, lf ∉ note

namespace BodyText

def line (body : BodyText) : Bytes := body.kind.head :: body.text ++ [lf]

def markerLine (note : Bytes) : Bytes := backslash :: note ++ [lf]

def lines (body : BodyText) : List Bytes :=
  body.line :: (body.marker.map markerLine).toList

/-- How many lines of a body stand on a side. -/
def lengthOn (side : Side) (body : List BodyText) : Nat :=
  body.countP (·.kind.standsOn side)

/-- How many lines of a body are of a kind. -/
def countOf (kind : BodyKind) (body : List BodyText) : Nat :=
  body.countP (·.kind = kind)

/-- Whether a marker says of a side that it has no line end. -/
def unendedOn (side : Side) (body : List BodyText) : Bool :=
  body.any fun line => line.marker.isSome && line.kind.standsOn side

theorem ended_lines (body : BodyText) : ∀ line ∈ body.lines, Line.Ended line := by
  intro line member
  rcases List.mem_cons.1 member with rfl | marked
  · have head : body.kind.head ≠ lf := by cases body.kind <;> decide
    exact Line.ended_append (by simp [head.symm, body.text_unbroken])
  · simp only [Option.mem_toList, Option.map_eq_some_iff] at marked
    obtain ⟨note, isNote, rfl⟩ := marked
    have unbroken := body.marker_unbroken note isNote
    exact Line.ended_append (by simp [unbroken, backslash, lf])

end BodyText

/-! ## Hunks -/

/-- A hunk: where it starts on either side, its heading and its body. -/
structure HunkText where
  origStart : Nat
  newStart : Nat
  heading : Option String := none
  body : List BodyText
  origStart_lt : origStart < wordLimit
  newStart_lt : newStart < wordLimit
  origLen_lt : BodyText.lengthOn .orig body < wordLimit
  newLen_lt : BodyText.lengthOn .new body < wordLimit
  heading_writable : ∀ text ∈ heading, text ≠ "" ∧ Line.OneLine (ofString text)

namespace HunkText

/-- The hunk that a reader should find. -/
def hunk (text : HunkText) : Hunk where
  origStart := text.origStart
  origLen := BodyText.lengthOn .orig text.body
  newStart := text.newStart
  newLen := BodyText.lengthOn .new text.body
  heading := text.heading
  insertions := BodyText.countOf .added text.body
  deletions := BodyText.countOf .removed text.body
  origUnended := BodyText.unendedOn .orig text.body
  newUnended := BodyText.unendedOn .new text.body

def headerLine (text : HunkText) : Bytes := text.hunk.headerText ++ [lf]

def lines (text : HunkText) : List Bytes :=
  text.headerLine :: text.body.flatMap BodyText.lines

theorem writable_hunk (text : HunkText) : text.hunk.Writable where
  origStart := text.origStart_lt
  origLen := text.origLen_lt
  newStart := text.newStart_lt
  newLen := text.newLen_lt
  heading empty := (text.heading_writable "" empty).1 rfl

theorem oneLine_headerText (text : HunkText) : Line.OneLine text.hunk.headerText := by
  have heading : Line.OneLine (Hunk.headingText text.heading) := by
    cases shown : text.heading with
    | none => nofun
    | some heading =>
        have gap : Line.OneLine [space] := by decide
        exact gap.append (text.heading_writable heading shown).2
  exact Hunk.oneLine_headerText heading

theorem ended_lines (text : HunkText) : ∀ line ∈ text.lines, Line.Ended line := by
  intro line member
  rcases List.mem_cons.1 member with rfl | inBody
  · exact text.oneLine_headerText.ended
  · obtain ⟨body, -, isLine⟩ := List.mem_flatMap.1 inBody
    exact body.ended_lines line isLine

end HunkText

/-! ## Sections -/

/-- The path of a record as a `---`/`+++` line can write it: no tab, which would end it, and none of
the octets that end the line. -/
structure WritablePath (path : String) : Prop where
  oneLine : Line.OneLine (ofString path)
  untabbed : tab ∉ ofString path

/-- A record of these facts and hunks, with the given lines. -/
def recordOf (facts : FileFacts) (hunks : List HunkText) (lines : List Bytes) : FileRecord where
  toFileFacts := facts
  hunks := hunks.map HunkText.hunk
  insertions := (hunks.map (·.hunk.insertions)).sum
  deletions := (hunks.map (·.hunk.deletions)).sum
  preamble := []
  body := lines.flatten

/-- A section of a plain unified diff. -/
structure UnifiedSection where
  origPath : String
  newPath : String
  hunks : List HunkText
  origPath_writable : WritablePath origPath
  newPath_writable : WritablePath newPath

namespace UnifiedSection

def origLine (written : UnifiedSection) : Bytes :=
  Dialect.origHead ++ ofString written.origPath ++ [lf]

def newLine (written : UnifiedSection) : Bytes :=
  Dialect.newHead ++ ofString written.newPath ++ [lf]

def lines (written : UnifiedSection) : List Bytes :=
  [written.origLine, written.newLine] ++ written.hunks.flatMap HunkText.lines

/-- The record that a reader should find. -/
def record (written : UnifiedSection) : FileRecord :=
  recordOf (Dialect.factsOfPaths written.origPath written.newPath) written.hunks written.lines

theorem oneLine_orig (written : UnifiedSection) :
    Line.OneLine (Dialect.origHead ++ ofString written.origPath) := by
  have head : Line.OneLine Dialect.origHead := by decide
  exact head.append written.origPath_writable.oneLine

theorem oneLine_new (written : UnifiedSection) :
    Line.OneLine (Dialect.newHead ++ ofString written.newPath) := by
  have head : Line.OneLine Dialect.newHead := by decide
  exact head.append written.newPath_writable.oneLine

theorem ended_lines (written : UnifiedSection) : ∀ line ∈ written.lines, Line.Ended line := by
  intro line member
  rcases List.mem_append.1 member with pair | inHunks
  · simp only [List.mem_cons, List.not_mem_nil, or_false] at pair
    rcases pair with rfl | rfl
    · exact written.oneLine_orig.ended
    · exact written.oneLine_new.ended
  · obtain ⟨hunk, -, isLine⟩ := List.mem_flatMap.1 inHunks
    exact hunk.ended_lines line isLine

end UnifiedSection

/-- A section of a git diff: one path, extended headers that do not move the file, and hunks behind
a `---`/`+++` pair, if there are any. -/
structure GitSection where
  path : String
  headers : List Header
  hunks : List HunkText
  /-- What the headers say about the file. -/
  facts : FileFacts
  path_writable : WritablePath path
  path_unquoted : quote ∉ ofString path
  headers_valid : ∀ header ∈ headers, header.Valid ∧ header.relocates = false
  headers_accepted : Header.addAll headers (Dialect.factsOfPaths path path) = .ok facts

namespace GitSection

def boundaryLine (written : GitSection) : Bytes :=
  Dialect.boundaryHead ++ Boundary.sameText (ofString written.path) ++ [lf]

/-- The path as a boundary or a line of the pair names it. -/
def sideText (written : GitSection) (side : Side) : Bytes :=
  Boundary.sideHead side ++ ofString written.path

def origLine (written : GitSection) : Bytes :=
  Dialect.origHead ++ written.sideText .orig ++ [lf]

def newLine (written : GitSection) : Bytes :=
  Dialect.newHead ++ written.sideText .new ++ [lf]

def pairLines (written : GitSection) : List Bytes :=
  if written.hunks = [] then [] else [written.origLine, written.newLine]

def lines (written : GitSection) : List Bytes :=
  written.boundaryLine :: (written.headers.map Header.line ++
    (written.pairLines ++ written.hunks.flatMap HunkText.lines))

/-- The record that a reader should find. -/
def record (written : GitSection) : FileRecord :=
  recordOf written.facts written.hunks written.lines

theorem oneLine_sideText (written : GitSection) (side : Side) :
    Line.OneLine (written.sideText side) := by
  have head : Line.OneLine (Boundary.sideHead side) := by cases side <;> decide
  exact head.append written.path_writable.oneLine

theorem oneLine_boundary (written : GitSection) :
    Line.OneLine (Dialect.boundaryHead ++ Boundary.sameText (ofString written.path)) := by
  have head : Line.OneLine Dialect.boundaryHead := by decide
  have gap : Line.OneLine [space] := by decide
  exact head.append
    ((written.oneLine_sideText .orig).append (gap.append (written.oneLine_sideText .new)))

theorem oneLine_orig (written : GitSection) :
    Line.OneLine (Dialect.origHead ++ written.sideText .orig) := by
  have head : Line.OneLine Dialect.origHead := by decide
  exact head.append (written.oneLine_sideText .orig)

theorem oneLine_new (written : GitSection) :
    Line.OneLine (Dialect.newHead ++ written.sideText .new) := by
  have head : Line.OneLine Dialect.newHead := by decide
  exact head.append (written.oneLine_sideText .new)

theorem ended_lines (written : GitSection) : ∀ line ∈ written.lines, Line.Ended line := by
  intro line member
  simp only [lines, List.mem_cons, List.mem_append, List.mem_map, List.mem_flatMap] at member
  rcases member with rfl | ⟨header, isHeader, rfl⟩ | pair | ⟨hunk, -, inHunk⟩
  · exact written.oneLine_boundary.ended
  · obtain ⟨valid, stays⟩ := written.headers_valid header isHeader
    exact (Header.oneLine_text valid stays).ended
  · unfold pairLines at pair
    split at pair
    · cases pair
    · simp only [List.mem_cons, List.not_mem_nil, or_false] at pair
      rcases pair with rfl | rfl
      · exact written.oneLine_orig.ended
      · exact written.oneLine_new.ended
  · exact hunk.ended_lines line inHunk

end GitSection

end DiffSections
