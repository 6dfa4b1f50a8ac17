import DiffSections.Failure
import DiffSections.Glob
import DiffSections.Yaml.Layout
import DiffSections.Yaml.Node.Grammar

/-!
# DiffSections.Settings -- the settings of a run, as a YAML file holds them

A settings file is a mapping. The fields it does not give have their standard values, and fields
that no setting has are passed over, so that later settings do not make a file unreadable. A field
that is given twice, or with a value of the wrong kind, makes it so.
-/

namespace DiffSections

set_option autoImplicit false

/-- How reports are printed. -/
inductive ReportFormat where
  | text
  | json
  deriving DecidableEq, Repr

namespace ReportFormat

def name : ReportFormat → String
  | .text => "text"
  | .json => "json"

def ofName? (name : String) : Option ReportFormat :=
  if name = "text" then some .text else if name = "json" then some .json else none

end ReportFormat

structure Settings where
  dialect : Dialect := .standard
  /-- Longer inputs are refused. -/
  maxInputBytes : Nat := 67108864
  /-- Patterns of which a file has to match one, if there are any. -/
  patterns : List String := []
  output : ReportFormat := .text
  deriving DecidableEq, Repr

/-- Why settings are refused. -/
inductive SettingsFault where
  | unreadable (path reason : String)
  | malformed
  | noInput
  | glob (error : GlobError)
  deriving DecidableEq, Repr

namespace SettingsFault

def message : SettingsFault → String
  | .unreadable path reason => "failed to read config file '" ++ path ++ "': " ++ reason
  | .malformed => "failed to parse config YAML"
  | .noInput => "config validation failed: max_input_bytes must be greater than 0"
  | .glob error => error.message

def failure (fault : SettingsFault) : Failure := .settings fault.message

end SettingsFault

namespace Settings

/-! ## Reading values -/

/-- The tag of whole numbers. -/
def numberTag : Bytes := Bytes.ofAscii "tag:yaml.org,2002:int"

/-- A whole number that fits a word: plain, or with its tag on several lines. -/
def readNumber? : Yaml.Node → Option Nat
  | .scalar _ text .plain => Yaml.unsigned? wordLimit text
  | .scalar marks text .literal =>
      if marks.tag = some numberTag then Yaml.unsigned? wordLimit text else none
  | _ => none

/-- The name that a tag of the file's own gives; a lone exclamation mark is the name of itself. -/
def nameOfTag? : Option Bytes → Option String
  | some (33 :: name) => Text.strict? (if name.isEmpty then [33] else name)
  | _ => none

/-- A name out of a list of names: a text, or a tag with nothing behind it. -/
def readName? : Yaml.Node → Option String
  | .scalar marks text style =>
      match nameOfTag? marks.tag with
      | none => some text
      | some name =>
          if style = .plain ∧ (text = "" ∨ Yaml.isNull text) then some name else none
  | _ => none

/-- The texts of a list, in which every item is one; nothing written is an empty list. -/
def readTexts? (root : Yaml.Node) : Yaml.Node → Option (List String)
  | .sequence _ items => items.mapM fun item => (root.resolve? item).bind Yaml.Node.text?
  | node => if node.isEmpty then some [] else none

/-! ## Reading the fields -/

/-- The fields of settings. -/
def fieldNames : List String := ["format", "max_input_bytes", "include", "output"]

/-- Read the value of a field, if there is one of this name. -/
def readField? (root : Yaml.Node) (settings : Settings) (name : String) (value : Yaml.Node) :
    Option Settings :=
  if name = "format" then
    ((readName? value).bind Dialect.ofName?).map fun dialect => { settings with dialect }
  else if name = "max_input_bytes" then
    (readNumber? value).map fun maxInputBytes => { settings with maxInputBytes }
  else if name = "include" then
    (readTexts? root value).map fun patterns => { settings with patterns }
  else if name = "output" then
    ((readName? value).bind ReportFormat.ofName?).map fun output => { settings with output }
  else some settings

/-- Read the fields of a mapping, given as keys and values in turn; the names of those seen before
are given. -/
def readFields? (root : Yaml.Node) : List String → List Yaml.Node → Settings → Option Settings
  | seen, key :: value :: rest, settings => do
      let name ← (root.resolve? key).bind Yaml.Node.text?
      let value ← root.resolve? value
      if seen.contains name then none
      else
        let settings ← readField? root settings name value
        readFields? root (if fieldNames.contains name then name :: seen else seen) rest settings
  | _, _, settings => some settings

/-- Read the fields that a tree gives; nothing written gives none. -/
def ofNode? (root : Yaml.Node) : Option Settings :=
  match root with
  | .mapping _ parts => readFields? root [] parts {}
  | node => if node.isEmpty then some {} else none

/-! ## Validity -/

/-- What restricts the files, if anything does. -/
def selection (settings : Settings) : Except SettingsFault (Option PathFilter) :=
  (PathFilter.ofPatterns settings.patterns).mapError .glob

/-- Some input is allowed, and the patterns are well-formed. -/
def check (settings : Settings) : Except SettingsFault Unit :=
  if settings.maxInputBytes = 0 then .error .noInput else settings.selection.map fun _ => ()

/-- The settings that a text holds. -/
def ofYaml (text : String) : Except SettingsFault Settings :=
  match (Yaml.Node.ofText? text).bind ofNode? with
  | none => .error .malformed
  | some settings => settings.check.map fun _ => settings

/-! ## Writing -/

/-- The text that holds settings. -/
def toYaml (settings : Settings) : String :=
  let items := settings.patterns.map fun pattern => "- " ++ Yaml.writeScalar pattern
  "format: " ++ settings.dialect.name ++ "\n" ++
    "max_input_bytes: " ++ toString settings.maxInputBytes ++ "\n" ++
    (if items.isEmpty then "include: []\n" else "include:\n" ++ String.join items) ++
    "output: " ++ settings.output.name ++ "\n"

end Settings

end DiffSections
