import DiffSections.Run

/-!
# DiffSections.Main -- the program

Reads what the run can need, runs, prints, and exits with the status of the outcome.
-/

namespace DiffSections.Main

set_option autoImplicit false

/-- The number of a fault of the system, which may be given by its negative. -/
def systemCode (code : UInt32) : Nat := min code.toNat (UInt32.size - code.toNat)

/-- What is wrong, when the system refuses to read a file. -/
def faultOf : IO.Error → ReadFault
  | .noFileOrDirectory _ _ _ => .missing
  | .permissionDenied _ code _ => .system "Permission denied" (systemCode code)
  | .inappropriateType _ code _ => if systemCode code = 21 then .isDirectory else .notDirectory
  | .invalidArgument _ _ _ => .nameTooLong
  | error => .system (toString error) 0

/-- What the system found when it did not open a path. -/
def entryUnopened : IO.Error → Entry
  | .permissionDenied file code details => .locked (faultOf (.permissionDenied file code details))
  | error => .fault (faultOf error)

/-- Read what is open, up to its end or to why it cannot be read. -/
def readContent (stream : IO.FS.Stream) : IO (Except ReadFault Bytes) := do
  try
    return .ok (← stream.readBinToEnd).data.toList
  catch error =>
    return .error (faultOf error)

def readEntry (path : String) : IO Entry := do
  try
    let handle ← IO.FS.Handle.mk path .read
    return match ← readContent (.ofHandle handle) with
      | .ok content => .file content
      | .error fault => if fault = .isDirectory then .directory else .broken fault
  catch error =>
    return entryUnopened error

/-- Read the files that an invocation may look at, and the standard input if it reads that. -/
def surroundingsOf (invocation : Invocation) : IO Surroundings := do
  let names := invocation.config.getD Settings.fileName :: invocation.input?.toList
  let entries ← names.mapM fun name => return (name, ← readEntry name)
  let stdin ← if invocation.input?.isSome then pure (.ok []) else readContent (← IO.getStdin)
  return {
    find := fun name => (entries.lookup name).getD (.fault .missing)
    stdin := stdin.toOption.getD []
    stdinFault := match stdin with
      | .ok _ => none
      | .error reason => some reason
    directory := (← IO.currentDir).toString }

def usageText : String :=
  "usage: diffsections [--config FILE] [-v]... VERB [-f FORMAT] [--json] [-i GLOB]... [PATH]\n" ++
    "verbs: files, stats, check\n"

def version : String := "diffsections 0.1.0\n"

/-- Answer arguments that ask for no run. -/
def answerUsage (usage : Usage) : IO Unit := do
  let out ← if usage.exitCode = 0 then IO.getStdout else IO.getStderr
  out.putStr (if usage = .version then version else usageText)

end DiffSections.Main

open DiffSections in
def main (arguments : List String) : IO UInt32 := do
  match Invocation.ofArguments arguments with
  | .error usage =>
      Main.answerUsage usage
      return usage.exitCode.toUInt32
  | .ok invocation =>
      let outcome := invocation.run (← Main.surroundingsOf invocation)
      (← IO.getStdout).putStr outcome.output
      (← IO.getStderr).putStr outcome.complaint
      return outcome.exitCode.toUInt32
