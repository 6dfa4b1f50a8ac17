import DiffSections.CommandLine
import DiffSections.FileTree
import DiffSections.Reader
import DiffSections.Settings

/-!
# DiffSections.Selection -- the files of a diff that a run is about

What a run needs is found in five stages: the settings, the dialect, the patterns, the input and the
records of the input. The first stage that fails is the one that is reported. What is asked for on
the command line stands above what the settings say.
-/

namespace DiffSections

set_option autoImplicit false

/-- What a run can read. -/
structure Surroundings where
  find : String → Entry
  stdin : Bytes
  /-- Why the standard input cannot be read, if it cannot. -/
  stdinFault : Option ReadFault := none
  /-- The name of the working directory. -/
  directory : String

/-- The records of a diff that were asked for, of `total` ones. -/
structure Selection where
  dialect : Dialect
  records : List FileRecord
  total : Nat
  deriving DecidableEq, Repr

/-! ## Settings -/

namespace Settings

/-- The settings file that is read when none is named. -/
def fileName : String := ".diffparse.yaml"

/-- The settings in what a path leads to. -/
def ofEntry (path : String) : Entry → Except SettingsFault Settings
  | .fault reason | .locked reason | .broken reason =>
      .error (.unreadable path reason.message)
  | .directory => .error (.unreadable path ReadFault.isDirectory.message)
  | .file content =>
      match Text.strict? content with
      | none => .error (.unreadable path ReadFault.notText.message)
      | some text => ofYaml text

/-- The name of a file in the working directory. -/
def pathIn (directory name : String) : String :=
  if directory.endsWith "/" then directory ++ name else directory ++ "/" ++ name

/-- The settings in a named file, which has to be there, or in the file of the working directory. -/
def ofSurroundings (around : Surroundings) : Option String → Except SettingsFault Settings
  | some path => ofEntry path (around.find path)
  | none =>
      match around.find fileName with
      | .directory | .fault _ => .ok {}
      | file => ofEntry (pathIn around.directory fileName) file

end Settings

namespace Invocation

/-! ## What is asked for, given the settings -/

/-- Whether reports are JSON. -/
def printsJson (invocation : Invocation) (settings : Settings) : Bool :=
  invocation.json || settings.output = .json

/-- The failure of asking for a dialect that there is not. -/
def unknownDialect (name : String) : Failure :=
  .user ("unknown diff format '" ++ name ++ "' (expected git or unified)")

def dialect (invocation : Invocation) (settings : Settings) : Except Failure Dialect :=
  match invocation.format with
  | none => .ok settings.dialect
  | some name =>
      match Dialect.ofName? name with
      | some dialect => .ok dialect
      | none => .error (unknownDialect name)

/-- What restricts the files. Patterns that are asked for take the place of those of the settings,
and what is wrong with them is not the settings' fault. -/
def restriction (invocation : Invocation) (settings : Settings) :
    Except Failure (Option PathFilter) :=
  if invocation.patterns.isEmpty then settings.selection.mapError SettingsFault.failure
  else (PathFilter.ofPatterns invocation.patterns).mapError fun error => .user error.message

end Invocation

/-! ## Input -/

/-- An input that is open: its name, and what it holds or why it cannot be read. -/
structure Source where
  name : String
  content : Except ReadFault Bytes

namespace Source

/-- The failure of opening a file. -/
def unopened (path : String) (reason : ReadFault) : Failure :=
  .user ("failed to open '" ++ path ++ "': " ++ reason.message)

/-- The failure of reading a source. -/
def unreadable (source : Source) (reason : ReadFault) : Failure :=
  .user ("failed to read " ++ source.name ++ ": " ++ reason.message)

/-- The failure of reading a source that holds more than it may. -/
def tooLong (source : Source) (limit : Nat) : Failure :=
  .user (source.name ++ " exceeds max_input_bytes (" ++ toString limit ++ " bytes)")

/-- How many octets are asked for, if there may be so many: one more, by which a source that holds
too much shows. There is no word behind the last one. -/
def window (limit : Nat) : Nat := min (limit + 1) (wordLimit - 1)

/-- Read a source that may hold so many octets. -/
def read (source : Source) (limit : Nat) : Except Failure Bytes :=
  match source.content with
  | .error reason => .error (source.unreadable reason)
  | .ok content =>
      let data := content.take (window limit)
      if limit < data.length then .error (source.tooLong limit) else .ok data

end Source

namespace Invocation

/-- Open what the path leads to, or else the standard input. -/
def openInput (invocation : Invocation) (around : Surroundings) : Except Failure Source :=
  match invocation.input? with
  | none =>
      .ok { name := "stdin", content := around.stdinFault.elim (.ok around.stdin) .error }
  | some path =>
      match around.find path with
      | .file content => .ok { name := path, content := .ok content }
      | .directory => .ok { name := path, content := .error .isDirectory }
      | .broken reason => .ok { name := path, content := .error reason }
      | .locked reason | .fault reason => .error (Source.unopened path reason)

/-- Read what the path leads to, or else the standard input. -/
def readDiff (invocation : Invocation) (around : Surroundings) (limit : Nat) :
    Except Failure Bytes := do
  let source ← invocation.openInput around
  source.read limit

end Invocation

namespace Selection

/-! ## Selecting -/

/-- Whether one of a record's two paths is selected. -/
def selects (restriction : Option PathFilter) (record : FileRecord) : Bool :=
  restriction.all fun filter => filter.selects record.newPath || filter.selects record.origPath

def ofRecords (dialect : Dialect) (restriction : Option PathFilter) (records : List FileRecord) :
    Selection :=
  { dialect, records := records.filter (selects restriction), total := records.length }

/-- The records that are asked for, given the settings. -/
def ofInvocation (around : Surroundings) (settings : Settings) (invocation : Invocation) :
    Except Failure Selection := do
  let dialect ← invocation.dialect settings
  let restriction ← invocation.restriction settings
  let data ← invocation.readDiff around settings.maxInputBytes
  let records ← (dialect.parse data).mapError fun error => Failure.parse error.diagnostic
  return ofRecords dialect restriction records

end Selection

end DiffSections
