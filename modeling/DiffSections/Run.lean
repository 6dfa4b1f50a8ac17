import DiffSections.Report

/-!
# DiffSections.Run -- a run as a function of what it can read

Settings that cannot be had fail every run before anything else. After that a run loads its
selection and prints a report on it, or fails as loading does.
-/

namespace DiffSections

set_option autoImplicit false

/-- What a run leaves behind. -/
structure Outcome where
  /-- What it prints. -/
  output : String
  failure : Option Failure := none
  deriving DecidableEq, Repr

namespace Outcome

def exitCode (outcome : Outcome) : Nat :=
  match outcome.failure with
  | none => 0
  | some failure => failure.exitCode

/-- What it prints about its failure. -/
def complaint (outcome : Outcome) : String :=
  match outcome.failure with
  | none => ""
  | some failure => "Error: " ++ failure.text ++ "\n"

end Outcome

namespace Invocation

/-- Run with given settings. -/
def runWith (invocation : Invocation) (around : Surroundings) (settings : Settings) : Outcome :=
  let json := invocation.printsJson settings
  match Selection.ofInvocation around settings invocation with
  | .ok selection => { output := Report.text invocation.verb json selection }
  | .error failure =>
      { output := Report.failureText invocation.verb json failure, failure := some failure }

def run (invocation : Invocation) (around : Surroundings) : Outcome :=
  match Settings.ofSurroundings around invocation.config with
  | .error fault => { output := "", failure := some fault.failure }
  | .ok settings => invocation.runWith around settings

end Invocation

end DiffSections
