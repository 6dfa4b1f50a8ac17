import DiffSections.Bytes

/-!
# DiffSections.Hunk -- hunks, their body lines, and the lines a hunk still owes

A hunk declares how many lines it spans on the old and on the new side. Each body line is
context (both sides), removed (old side) or added (new side), told apart by its first octet; a
line that starts with a backslash is no body line but says that the one before it had no line end.
`Remaining` counts down the declared lengths: `take?` accounts for one line and refuses a line that
the declared range has no room for.
-/

namespace DiffSections

set_option autoImplicit false

/-- Which sides of the diff a body line stands on. -/
inductive BodyKind where
  | context
  | removed
  | added
  deriving DecidableEq, Repr

/-- A hunk: what its header declares and what its body was found to hold. -/
structure Hunk where
  origStart : Nat
  origLen : Nat
  newStart : Nat
  newLen : Nat
  /-- The text after the closing `@@`, usually the enclosing function. -/
  heading : Option String := none
  insertions : Nat := 0
  deletions : Nat := 0
  /-- The last line of the old side has no line end. -/
  origUnended : Bool := false
  /-- The last line of the new side has no line end. -/
  newUnended : Bool := false
  deriving DecidableEq, Repr

/-- A line inside a hunk. -/
inductive BodyLine where
  | change (kind : BodyKind)
  /-- `\ No newline at end of file` -/
  | marker
  deriving DecidableEq, Repr

namespace BodyLine

/-- What a line's content is inside a hunk. An empty line is context: its one space may be lost. -/
def ofContent? : Bytes → Option BodyLine
  | [] => some (.change .context)
  | b :: _ =>
      if b = Bytes.space then some (.change .context)
      else if b = Bytes.minus then some (.change .removed)
      else if b = Bytes.plus then some (.change .added)
      else if b = Bytes.backslash then some .marker
      else none

end BodyLine

namespace Hunk

/-- Count one body line. -/
def count (hunk : Hunk) : BodyKind → Hunk
  | .context => hunk
  | .removed => { hunk with deletions := hunk.deletions + 1 }
  | .added => { hunk with insertions := hunk.insertions + 1 }

/-- Note that the body line just counted has no line end. -/
def markUnended (hunk : Hunk) : BodyKind → Hunk
  | .context => { hunk with origUnended := true, newUnended := true }
  | .removed => { hunk with origUnended := true }
  | .added => { hunk with newUnended := true }

end Hunk

/-- The lines an open hunk still owes on each side. -/
structure Remaining where
  orig : Nat
  new : Nat
  deriving DecidableEq, Repr

namespace Remaining

def ofHunk (hunk : Hunk) : Remaining := ⟨hunk.origLen, hunk.newLen⟩

def isDone (left : Remaining) : Bool := left.orig = 0 && left.new = 0

/-- Account for one body line, if the declared range has room for it. -/
def take? : Remaining → BodyKind → Option Remaining
  | ⟨orig + 1, new + 1⟩, .context => some ⟨orig, new⟩
  | ⟨orig + 1, new⟩, .removed => some ⟨orig, new⟩
  | ⟨orig, new + 1⟩, .added => some ⟨orig, new⟩
  | _, _ => none

theorem isDone_iff {left : Remaining} : left.isDone = true ↔ left = ⟨0, 0⟩ := by
  cases left; simp [isDone]

/-- A line fits exactly when its sides owe one line each. -/
theorem take?_eq_some_iff {left after : Remaining} {kind : BodyKind} :
    left.take? kind = some after ↔
      left.orig = after.orig + (if kind = .added then 0 else 1) ∧
      left.new = after.new + (if kind = .removed then 0 else 1) := by
  obtain ⟨orig, new⟩ := left
  obtain ⟨orig', new'⟩ := after
  cases kind <;> cases orig <;> cases new <;> simp [take?]

end Remaining

end DiffSections
