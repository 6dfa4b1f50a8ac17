/-!
# DiffSections.CommandLine -- what a run is asked for

The arguments name one of three verbs and its parameters. Two parameters, the settings file and the
verbosity, may stand before the verb as well as after it; what stands after it counts.

A level of arguments, before the verb or after it, is read from left to right. A parameter's value
may be joined to its name or be the next argument. A value is checked when the next parameter is
recognized or the level ends (`Level.settle`), so a fault that is noticed first may be one that
stands later. After `--` every argument is a plain one.
-/

namespace DiffSections

set_option autoImplicit false

/-- What a run does with a diff. -/
inductive Verb where
  | files
  | stats
  | check
  deriving DecidableEq, Repr

def Verb.ofName? (name : String) : Option Verb :=
  if name = "files" ∨ name = "ls" then some .files
  else if name = "stats" then some .stats
  else if name = "check" then some .check
  else none

/-- What a run is asked for. -/
structure Invocation where
  verb : Verb
  /-- The settings file. -/
  config : Option String := none
  verbosity : Nat := 0
  path : Option String := none
  format : Option String := none
  json : Bool := false
  patterns : List String := []
  deriving DecidableEq, Repr

/-- The file to read; none stands for the standard input, and so does a path that is `-`. -/
def Invocation.input? (invocation : Invocation) : Option String :=
  invocation.path.filter fun path =>
    match path.splitOn "/" with
    | "-" :: rest => !rest.all fun segment => segment = "" || segment = "."
    | _ => true

/-- Why arguments ask for no run. -/
inductive Usage where
  | help
  | version
  /-- There are no arguments at all. -/
  | nothingGiven
  | noVerb
  | unknownVerb
  | unknownArgument
  /-- A value is missing, or it is empty where it may not be. -/
  | badValue
  /-- A parameter that takes no value has one. -/
  | valueGiven
  /-- A parameter is given twice. -/
  | repeated
  deriving DecidableEq, Repr

/-- Help and the version are answers to a question; all else is a fault. -/
def Usage.exitCode : Usage → Nat
  | .help | .version => 0
  | _ => 2

namespace CommandLine

/-- Where arguments stand. -/
inductive Scope where
  | beforeVerb
  | afterVerb
  deriving DecidableEq

inductive Flag where
  | verbose
  | json
  | help
  | version
  deriving DecidableEq

/-- A parameter with a value. -/
inductive Setting where
  | config
  | format
  | pattern
  | path
  deriving DecidableEq

inductive Parameter where
  | flag (flag : Flag)
  | setting (setting : Setting)
  deriving DecidableEq

/-- The parameter of a name that follows two dashes. -/
def longParameter? (scope : Scope) (name : String) : Option Parameter :=
  match name, scope with
  | "config", _ => some (.setting .config)
  | "verbose", _ => some (.flag .verbose)
  | "help", _ => some (.flag .help)
  | "version", _ => some (.flag .version)
  | "format", .afterVerb => some (.setting .format)
  | "json", .afterVerb => some (.flag .json)
  | "include", .afterVerb => some (.setting .pattern)
  | _, _ => none

/-- The parameter of a letter that follows one dash. -/
def shortParameter? (scope : Scope) (name : Char) : Option Parameter :=
  match name, scope with
  | 'v', _ => some (.flag .verbose)
  | 'h', _ => some (.flag .help)
  | 'V', _ => some (.flag .version)
  | 'f', .afterVerb => some (.setting .format)
  | 'i', .afterVerb => some (.setting .pattern)
  | _, _ => none

/-- Whether an argument is a verb, or asks for help on one. -/
def namesVerb (name : String) : Bool :=
  name = "help" || (Verb.ofName? name).isSome

/-- What the arguments of a level have given so far. -/
structure Level where
  config : Option String := none
  verbosity : Option Nat := none
  path : Option String := none
  format : Option String := none
  json : Bool := false
  patterns : List String := []
  /-- The last setting, with its value if it has one yet; it is still to be checked. -/
  pending : Option (Setting × Option String) := none
  pathSeen : Bool := false

namespace Level

/-- Whether a setting waits for its value. -/
def isWaiting (level : Level) : Bool :=
  match level.pending with
  | some (_, none) => true
  | _ => false

/-- A path, which is not empty. -/
def checkPath (path : String) : Except Usage String :=
  if path = "" then .error .badValue else .ok path

/-- Give a setting its value. Patterns add up; nothing else may be given twice. -/
def set (level : Level) : Setting → String → Except Usage Level
  | .config, value => do
      if level.config.isSome then throw .repeated
      return { level with config := some (← checkPath value) }
  | .format, value =>
      if level.format.isSome then .error .repeated
      else .ok { level with format := some value }
  | .pattern, value => .ok { level with patterns := level.patterns ++ [value] }
  | .path, value => do
      return { level with path := some (← checkPath value) }

/-- Take note of the last setting. -/
def settle (level : Level) : Except Usage Level :=
  match level.pending with
  | none => .ok level
  | some (_, none) => .error .badValue
  | some (setting, some value) => { level with pending := none }.set setting value

/-- How often a level of verbosity can be raised. -/
def maxVerbosity : Nat := 255

/-- Take a flag. -/
def takeFlag (level : Level) (flag : Flag) : Except Usage Level := do
  let level ← level.settle
  match flag with
  | .verbose =>
      return { level with verbosity := some (min (level.verbosity.getD 0 + 1) maxVerbosity) }
  | .json => if level.json then throw .repeated else return { level with json := true }
  | .help => throw .help
  | .version => throw .version

/-- Take a setting with a value that is joined to it, or else wait for its value. -/
def takeSetting (level : Level) (setting : Setting) (joined : Option String) :
    Except Usage Level := do
  let level ← level.settle
  match joined with
  | some value => level.set setting value
  | none => return { level with pending := some (setting, none) }

/-- Take the argument that a setting waits for. -/
def takeValue (level : Level) (value : String) : Level :=
  { level with pending := level.pending.map fun (setting, _) => (setting, some value) }

/-- Take a parameter that follows two dashes, where an equals sign joins a value to its name. -/
def takeLong (level : Level) (scope : Scope) (text : List Char) : Except Usage Level :=
  let name := text.takeWhile (· ≠ '=')
  let joined := match text.dropWhile (· ≠ '=') with
    | [] => none
    | _ :: value => some (String.ofList value)
  match longParameter? scope (String.ofList name) with
  | none => .error .unknownArgument
  | some (.setting setting) => level.takeSetting setting joined
  | some (.flag flag) => if joined.isSome then .error .valueGiven else level.takeFlag flag

/-- Take the letters that follow one dash: flags, and a setting with the rest as its value. -/
def takeShort (scope : Scope) : List Char → Level → Except Usage Level
  | [], level => .ok level
  | name :: rest, level =>
      match shortParameter? scope name with
      | none => .error .unknownArgument
      | some (.flag flag) => do
          let level ← level.takeFlag flag
          takeShort scope rest level
      | some (.setting setting) =>
          level.takeSetting setting <|
            match rest with
            | [] => none
            | '=' :: value => some (String.ofList value)
            | value => some (String.ofList value)

/-- Take a plain argument, of which there is one after the verb, the path. Where there can be none
its fault hides that of the last setting. -/
def takePlain (level : Level) (scope : Scope) (plainOnly : Bool) (value : String) :
    Except Usage Level :=
  match scope with
  | .beforeVerb =>
      .error (if plainOnly ∧ namesVerb value then .unknownArgument else .unknownVerb)
  | .afterVerb =>
      if level.pathSeen then .error .unknownArgument
      else
        level.settle.map fun level =>
          { level with pending := some (.path, some value), pathSeen := true }

/-- Take an argument that is no verb and not `--`. -/
def take (level : Level) (scope : Scope) (plainOnly : Bool) (argument : String) :
    Except Usage Level :=
  if plainOnly then level.takePlain scope plainOnly argument
  else
    match argument.toList with
    | '-' :: '-' :: text => level.takeLong scope text
    | '-' :: c :: text => takeShort scope (c :: text) level
    | _ =>
        if level.isWaiting then .ok (level.takeValue argument)
        else level.takePlain scope plainOnly argument

end Level

/-- What is asked by help on some words: each has to be a verb, and verbs have none of their own. -/
def helpOn : List String → Usage
  | [] => .help
  | [word] => if namesVerb word then .help else .unknownVerb
  | _ => .unknownVerb

/-- Read the arguments of a level, to the end or to a verb, which is returned with the arguments
after it. -/
def readLevel (scope : Scope) :
    Bool → List String → Level → Except Usage (Level × Option (Verb × List String))
  | _, [], level => level.settle.map fun level => (level, none)
  | plainOnly, argument :: rest, level =>
      let atVerb : Bool := scope = .beforeVerb && !plainOnly && !level.isWaiting
      if atVerb ∧ argument = "help" then .error (helpOn rest)
      else
        match (Verb.ofName? argument).filter fun _ => atVerb with
        | some verb => .ok (level, some (verb, rest))
        | none =>
            if argument = "--" ∧ ¬ plainOnly then readLevel scope true rest level
            else
              match level.take scope plainOnly argument with
              | .error usage => .error usage
              | .ok level => readLevel scope plainOnly rest level

end CommandLine

open CommandLine in
/-- What arguments ask for. The level after the verb is settled before the one before it. -/
def Invocation.ofArguments (arguments : List String) : Except Usage Invocation := do
  let (outer, found) ← readLevel .beforeVerb false arguments {}
  match found with
  | none =>
      throw (if outer.config.isNone ∧ outer.verbosity.isNone then .nothingGiven else .noVerb)
  | some (verb, rest) =>
      let (inner, _) ← readLevel .afterVerb false rest {}
      let outer ← outer.settle
      return {
        verb
        config := inner.config <|> outer.config
        verbosity := (inner.verbosity <|> outer.verbosity).getD 0
        path := inner.path
        format := inner.format
        json := inner.json
        patterns := inner.patterns }

end DiffSections
