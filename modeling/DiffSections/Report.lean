import DiffSections.Report.Histogram
import DiffSections.Selection

/-!
# DiffSections.Report -- what a run prints

Each verb has a text for people and one for programs, which is JSON and one document. The list of
files and the statistics show the same rows; the verdict counts them and their hunks.
-/

namespace DiffSections.Report

set_option autoImplicit false

/-- A JSON document, which ends in a line end. -/
def document (value : JsonValue) : String := value.pretty ++ "\n"

def rows (selection : Selection) : List FileRow :=
  selection.records.map FileRow.ofRecord

/-! ## The list of files -/

/-- The letter of a change. -/
def changeLetter : FileChange → String
  | .added => "A"
  | .deleted => "D"
  | .renamed => "R"
  | .copied => "C"
  | .modified => "M"

/-- The path of a file, or both if it moved or was copied. -/
def describePath (record : FileRecord) : String :=
  if record.moved || record.copied then
    record.origPath ++ " -> " ++ record.newPath ++
      match record.similarity with
      | none => ""
      | some percent => " (" ++ toString percent ++ "%)"
  else record.shownPath

/-- What changed inside a file. -/
def describeContent (record : FileRecord) : String :=
  if record.binary then "  binary"
  else if record.hunks.isEmpty then ""
  else "  +" ++ toString record.insertions ++ " -" ++ toString record.deletions

/-- The change of a mode. -/
def describeModes (record : FileRecord) : String :=
  match record.modes with
  | some { old := some old, new := some new } =>
      if old = new then "" else "  mode " ++ old ++ " -> " ++ new
  | _ => ""

/-- The line of a file. -/
def fileLine (record : FileRecord) : String :=
  changeLetter record.change ++ "  " ++ describePath record ++ describeContent record ++
    describeModes record ++ "\n"

/-- A line that says how many files are shown, unless all are. -/
def shownLine (selection : Selection) : String :=
  if selection.records.length = selection.total then ""
  else
    "(" ++ toString selection.records.length ++ " of " ++ toString selection.total ++
      " file(s) shown)\n"

def filesText (selection : Selection) : String :=
  String.join (selection.records.map fileLine) ++ shownLine selection

def filesJson (selection : Selection) : JsonValue :=
  .array ((rows selection).map .ofFileRow)

/-! ## Statistics -/

def statsText (selection : Selection) : String :=
  String.join (Histogram.lines (rows selection)) ++ " " ++
    (Totals.ofRecords selection.records).shortstat ++ "\n"

def statsJson (selection : Selection) : JsonValue :=
  .object
    [("format", .string selection.dialect.name), ("files", filesJson selection),
      ("summary", .ofTotals (Totals.ofRecords selection.records))]

/-! ## Verdicts -/

def hunkCount (selection : Selection) : Nat :=
  (selection.records.flatMap fun record => record.hunks).length

def checkText (selection : Selection) : String :=
  "OK: " ++ toString selection.records.length ++ " file(s), " ++ toString (hunkCount selection) ++
    " hunk(s) in " ++ selection.dialect.name ++ " diff\n"

def checkJson (selection : Selection) : JsonValue :=
  .object
    [("files", .number selection.records.length), ("format", .string selection.dialect.name),
      ("hunks", .number (hunkCount selection)), ("ok", .bool true)]

/-- The verdict on a diff that does not parse. -/
def refusalJson (diagnostic : Diagnostic) : JsonValue :=
  .object
    [("kind", .string diagnostic.kind.name), ("line", .number diagnostic.line),
      ("message", .string diagnostic.message), ("ok", .bool false)]

/-! ## All verbs -/

/-- What a verb prints about a selection. -/
def text (verb : Verb) (json : Bool) (selection : Selection) : String :=
  match verb, json with
  | .files, false => filesText selection
  | .files, true => document (filesJson selection)
  | .stats, false => statsText selection
  | .stats, true => document (statsJson selection)
  | .check, false => checkText selection
  | .check, true => document (checkJson selection)

/-- What a verb prints when a run fails: a verdict in JSON says why a diff does not parse. -/
def failureText (verb : Verb) (json : Bool) (failure : Failure) : String :=
  match verb, json, failure with
  | .check, true, .parse diagnostic => document (refusalJson diagnostic)
  | _, _, _ => ""

end DiffSections.Report
