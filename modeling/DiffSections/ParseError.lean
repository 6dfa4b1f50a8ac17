import DiffSections.Dialect
import DiffSections.Header.Kind
import DiffSections.Hunk
import DiffSections.Text.Utf8

/-!
# DiffSections.ParseError -- why a diff is refused, and where

A `Fault` is a cause, with what its message needs to show. A `ParseError` adds the number of the
line where reading stopped, counted from one; zero stands for the input as a whole. A `Diagnostic`
is the error as it is reported: one of four kinds, a line and a text.
-/

namespace DiffSections

set_option autoImplicit false

/-- The kinds of parse errors a report tells apart. -/
inductive ParseErrorKind where
  /-- There is no file section in the input, and it is not blank. -/
  | notRecognized
  /-- A header line, or one of a `---`/`+++` pair, has the wrong shape. -/
  | malformedHeader
  /-- A hunk's header or body has a line that does not belong there. -/
  | malformedHunk
  /-- The input or the section ends before a hunk is complete. -/
  | truncatedHunk
  deriving DecidableEq, Repr

def ParseErrorKind.name : ParseErrorKind → String
  | .notRecognized => "not_a_recognized_format"
  | .malformedHeader => "malformed_header"
  | .malformedHunk => "malformed_hunk"
  | .truncatedHunk => "truncated_hunk"

/-- Why a diff is refused. -/
inductive Fault where
  /-- No boundary of the dialect was found. -/
  | noSection (dialect : Dialect)
  /-- The two paths of a boundary line, given from the first path on, cannot be told apart. -/
  | boundaryPaths (rest : Bytes)
  /-- The line starts like a header of this kind but carries no value of it. -/
  | headerValue (kind : HeaderKind) (line : Bytes)
  | createdAndDeleted (path : String)
  | deletedAndMoved (path : String)
  | secondOrigLine
  | origLineAlone
  | newLineAlone
  | hunkBeforePair
  | hunkHeader (line : Bytes)
  | markerFirst
  | bodyLine (line : Bytes)
  | overrun (left : Remaining)
  | truncated (left : Remaining)
  deriving DecidableEq, Repr

namespace Fault

def kind : Fault → ParseErrorKind
  | .noSection _ => .notRecognized
  | .boundaryPaths _ | .headerValue _ _ | .createdAndDeleted _ | .deletedAndMoved _
  | .secondOrigLine | .origLineAlone | .newLineAlone | .hunkBeforePair => .malformedHeader
  | .hunkHeader _ | .markerFirst | .bodyLine _ | .overrun _ => .malformedHunk
  | .truncated _ => .truncatedHunk

/-- A text in single quotes. -/
def quoted (text : String) : String := "'" ++ text ++ "'"

def message : Fault → String
  | .noSection dialect => "This does not appear to be a " ++ dialect.name ++ " diff"
  | .boundaryPaths rest =>
      "unable to parse file paths from " ++ quoted ("diff --git " ++ Text.lossy rest)
  | .headerValue kind line => "invalid " ++ kind.keyword ++ " header " ++ quoted (Text.lossy line)
  | .createdAndDeleted path => quoted path ++ " cannot be both created and deleted"
  | .deletedAndMoved path => quoted path ++ " cannot be both deleted and renamed or copied"
  | .secondOrigLine => "unexpected second '---' line for this file"
  | .origLineAlone => "'---' line without a following '+++' line"
  | .newLineAlone => "'+++' line without a preceding '---' line"
  | .hunkBeforePair => "hunk header before the '---'/'+++' lines"
  | .hunkHeader line => "invalid hunk header " ++ quoted (Text.lossy line)
  | .markerFirst => "'\\' marker before any hunk line"
  | .bodyLine line => "unexpected line in hunk " ++ quoted (Text.lossy line)
  | .overrun left =>
      "line exceeds the declared hunk range (" ++ toString left.orig ++ " original and " ++
        toString left.new ++ " new line(s) left)"
  | .truncated left =>
      "hunk ended early: " ++ toString left.orig ++ " original and " ++ toString left.new ++
        " new line(s) missing"

end Fault

/-- A diff is refused because of `fault`, noticed at `line`. -/
structure ParseError where
  fault : Fault
  line : Nat
  deriving DecidableEq, Repr

/-- A parse error as reports show it. -/
structure Diagnostic where
  kind : ParseErrorKind
  line : Nat
  message : String
  deriving DecidableEq, Repr

namespace Diagnostic

/-- A diagnostic of the given kind; an input that is not recognized has no line. -/
def of (kind : ParseErrorKind) (message : String) (line : Nat) : Diagnostic :=
  { kind, line := if kind = .notRecognized then 0 else line, message }

def text (diagnostic : Diagnostic) : String :=
  "line " ++ toString diagnostic.line ++ ": " ++ diagnostic.message

end Diagnostic

def ParseError.diagnostic (error : ParseError) : Diagnostic :=
  .of error.fault.kind error.fault.message error.line

/-- Report the faults of a check at a line. -/
def atLine {α : Type} (line : Nat) : Except Fault α → Except ParseError α
  | .ok value => .ok value
  | .error fault => .error ⟨fault, line⟩

end DiffSections
