/-!
# DiffSections.Dialect -- the two ways a diff is written

Plain unified diffs, as `diff -u` writes them, and the extended form of git. A dialect has two names
a reader may select it by when it is the unified one: `unified` and `diff`.
-/

namespace DiffSections

set_option autoImplicit false

inductive Dialect where
  | git
  | unified
  deriving DecidableEq, Repr

namespace Dialect

def name : Dialect → String
  | .git => "git"
  | .unified => "unified"

def ofName? (text : String) : Option Dialect :=
  if text = "git" then some .git
  else if text = "unified" ∨ text = "diff" then some .unified
  else none

/-- The dialect of a run that names none. -/
def standard : Dialect := .git

end Dialect

end DiffSections
