import DiffSections.File.Facts
import DiffSections.ParseError
import DiffSections.Path.Quoted

/-!
# DiffSections.Header -- the extended header lines of a git section

`Header.read` takes a line to a header, to a fault if it starts like one but carries no value of its
kind, or to nothing if it is no header line. `Header.addTo` adds a header to the facts of a file;
only a file said to be both deleted and something else is refused.
-/

namespace DiffSections

set_option autoImplicit false

open Bytes

/-- An extended header line. -/
inductive Header where
  | newFileMode (mode : String)
  | deletedFileMode (mode : String)
  | oldMode (mode : String)
  | newMode (mode : String)
  | similarityIndex (percent : Nat)
  | dissimilarityIndex (percent : Nat)
  | renameFrom (path : String)
  | renameTo (path : String)
  | copyFrom (path : String)
  | copyTo (path : String)
  | index (orig new : String) (mode : Option String)
  deriving DecidableEq, Repr

/-! ## Values -/

namespace HeaderValue

/-- A file mode: one to six octal digits. -/
def mode? (value : Bytes) : Option String :=
  if value ≠ [] ∧ value.length ≤ 6 ∧ value.all isOctalDigit then some (Text.lossy value) else none

/-- A percentage: digits of a number up to 100, and a percent sign. -/
def percent? (value : Bytes) : Option Nat :=
  let digits := value.dropLast
  if value.getLast? = some percent ∧ digits ≠ [] ∧ digits.all isDigit ∧ decimal digits ≤ 100 then
    some (decimal digits)
  else none

/-- A path without a side in front; it is quoted if the whole of it reads as a quoted string. -/
def path? (value : Bytes) : Option String :=
  if value = [] then none else some (Text.lossy ((Quoted.decode? value).getD value))

/-- An object id: hexadecimal digits. -/
def objectId? (value : Bytes) : Option String :=
  if value ≠ [] ∧ value.all isHexDigit then some (Text.lossy value) else none

/-- Two object ids with `..` between them, and a mode after a space if the mode did not change. -/
def index? (value : Bytes) : Option Header := do
  let orig ← objectId? (value.takeWhile isHexDigit)
  let rest ← after? (ofAscii "..") (value.dropWhile isHexDigit)
  let new ← objectId? (rest.takeWhile isHexDigit)
  match rest.dropWhile isHexDigit with
  | [] => return .index orig new none
  | b :: rest =>
      if b = space then return .index orig new (some (← mode? rest)) else none

end HeaderValue

/-- The header of this kind with the given value. -/
def HeaderKind.header? (kind : HeaderKind) (value : Bytes) : Option Header :=
  match kind with
  | .newFileMode => (HeaderValue.mode? value).map .newFileMode
  | .deletedFileMode => (HeaderValue.mode? value).map .deletedFileMode
  | .oldMode => (HeaderValue.mode? value).map .oldMode
  | .newMode => (HeaderValue.mode? value).map .newMode
  | .similarityIndex => (HeaderValue.percent? value).map .similarityIndex
  | .dissimilarityIndex => (HeaderValue.percent? value).map .dissimilarityIndex
  | .renameFrom => (HeaderValue.path? value).map .renameFrom
  | .renameTo => (HeaderValue.path? value).map .renameTo
  | .copyFrom => (HeaderValue.path? value).map .copyFrom
  | .copyTo => (HeaderValue.path? value).map .copyTo
  | .index => HeaderValue.index? value

/-- What a line of this kind starts with. -/
def HeaderKind.head (kind : HeaderKind) : Bytes :=
  ofAscii kind.keyword ++ [space]

namespace Header

/-- The kind a line starts like, and its value. No kind's head starts another's. -/
def kindOf? (line : Bytes) : Option (HeaderKind × Bytes) :=
  HeaderKind.all.findSome? fun kind => (after? kind.head line).map (kind, ·)

/-- Read a line's content as an extended header. -/
def read (line : Bytes) : Except Fault (Option Header) :=
  match kindOf? line with
  | none => .ok none
  | some (kind, value) =>
      match kind.header? value with
      | some header => .ok (some header)
      | none => .error (.headerValue kind line)

/-! ## What a header says about the file -/

/-- What a rename or copy line makes of the facts, unless the file is deleted. -/
def relocate (facts relocated : FileFacts) : Except Fault FileFacts :=
  if facts.deleted then .error (.deletedAndMoved facts.origPath) else .ok relocated

/-- Add a header to the facts of its file. The first ids are also the infos of their sides, where
nothing else is. -/
def addTo (header : Header) (facts : FileFacts) : Except Fault FileFacts :=
  match header with
  | .newFileMode mode =>
      if facts.deleted then .error (.createdAndDeleted facts.newPath)
      else
        let facts := { facts with created := true }
        .ok ((facts.setMode mode .new).setInfo FileFacts.createdInfo .orig)
  | .deletedFileMode mode =>
      if facts.created then .error (.createdAndDeleted facts.origPath)
      else if facts.movedOrCopied then .error (.deletedAndMoved facts.origPath)
      else .ok ({ facts with deleted := true }.setMode mode .orig)
  | .oldMode mode => .ok (facts.setMode mode .orig)
  | .newMode mode => .ok (facts.setMode mode .new)
  | .similarityIndex percent => .ok { facts with similarity := some percent }
  | .dissimilarityIndex percent => .ok { facts with dissimilarity := some percent }
  | .renameFrom path => relocate facts (facts.noteRename path .orig)
  | .renameTo path => relocate facts (facts.noteRename path .new)
  | .copyFrom path => relocate facts (facts.noteCopy path .orig)
  | .copyTo path => relocate facts (facts.noteCopy path .new)
  | .index orig new mode =>
      let facts := { facts with
        origInfo := facts.origInfo <|> some orig
        newInfo := facts.newInfo <|> some new
        origBlob := some orig
        newBlob := some new }
      match mode with
      | some mode => .ok (facts.offerMode mode)
      | none => .ok facts

end Header

end DiffSections
