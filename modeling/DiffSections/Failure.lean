import DiffSections.ParseError

/-!
# DiffSections.Failure -- why a run fails, and its exit status

A run fails because of what it was asked for or could not read, because of its settings, or because
the diff does not parse. Each kind has a text and an exit status of its own; success is zero.
-/

namespace DiffSections

set_option autoImplicit false

inductive Failure where
  /-- Bad arguments, or input that cannot be read or is too long. -/
  | user (message : String)
  /-- Settings that cannot be read or are not valid. -/
  | settings (message : String)
  | parse (diagnostic : Diagnostic)
  deriving DecidableEq, Repr

namespace Failure

def exitCode : Failure → Nat
  | .user _ => 1
  | .parse _ => 2
  | .settings _ => 3

def text : Failure → String
  | .user message => message
  | .settings message => "Config error: " ++ message
  | .parse diagnostic => "Parse failed at " ++ diagnostic.text

theorem exitCode_pos (failure : Failure) : 0 < failure.exitCode := by
  cases failure <;> simp [exitCode]

end Failure

end DiffSections
