import DiffSections.Glob.Match

/-!
# DiffSections.Glob -- paths selected by patterns

A filter is made from a list of patterns, all of which have to be well-formed; the first that is not
is reported. No patterns make no filter: nothing is filtered out.
-/

namespace DiffSections

set_option autoImplicit false

/-- Patterns of which a path has to match one. -/
structure PathFilter where
  patterns : List (List GlobToken)

/-- A pattern that is not well-formed. -/
structure GlobError where
  pattern : String
  fault : GlobFault
  deriving DecidableEq, Repr

def GlobError.message (error : GlobError) : String :=
  "invalid include glob '" ++ error.pattern ++ "': error parsing glob '" ++ error.pattern ++
    "': " ++ error.fault.message

namespace PathFilter

/-- Read every pattern, up to the first that is not well-formed. -/
def read : List String → Except GlobError (List (List GlobToken))
  | [] => .ok []
  | pattern :: patterns =>
      match Glob.parse pattern with
      | .error fault => .error ⟨pattern, fault⟩
      | .ok tokens => (read patterns).map (tokens :: ·)

/-- The filter that a list of patterns makes, if there are any. -/
def ofPatterns (patterns : List String) : Except GlobError (Option PathFilter) :=
  if patterns.isEmpty then .ok none else (read patterns).map fun tokens => some ⟨tokens⟩

def selects (filter : PathFilter) (path : String) : Bool :=
  filter.patterns.any fun tokens => Glob.matches? tokens (Bytes.ofString path)

end PathFilter

end DiffSections
