/-!
# DiffSections.File.Facts -- what a file section says about its file, apart from its text

The two paths, and whatever the boundary, the extended header lines and the `---`/`+++` pair add to
them: revision infos, blob ids, modes, percentages, and how the file changed. A file is moved once
both of its rename lines were seen, and copied once both of its copy lines were.
-/

namespace DiffSections

set_option autoImplicit false

/-- The modes of the two sides; a created file has no old one, a deleted file no new one. -/
structure Modes where
  old : Option String := none
  new : Option String := none
  deriving DecidableEq, Repr

/-- How a file changed. -/
inductive FileChange where
  | added
  | deleted
  | renamed
  | copied
  | modified
  deriving DecidableEq, Repr

def FileChange.name : FileChange → String
  | .added => "added"
  | .deleted => "deleted"
  | .renamed => "renamed"
  | .copied => "copied"
  | .modified => "modified"

/-- The sides of a diff. -/
inductive Side where
  | orig
  | new
  deriving DecidableEq, Repr

structure FileFacts where
  origPath : String
  newPath : String
  /-- What follows the path on the `---` line, or a stand-in for it. -/
  origInfo : Option String := none
  newInfo : Option String := none
  origBlob : Option String := none
  newBlob : Option String := none
  binary : Bool := false
  created : Bool := false
  deleted : Bool := false
  symlink : Bool := false
  renameFrom : Bool := false
  renameTo : Bool := false
  copyFrom : Bool := false
  copyTo : Bool := false
  modes : Option Modes := none
  similarity : Option Nat := none
  dissimilarity : Option Nat := none
  deriving DecidableEq, Repr

namespace FileFacts

/-- The old side's info of a file that the diff creates. -/
def createdInfo : String := "PRE-CREATION"

/-- The mode of a symbolic link. -/
def linkMode : String := "120000"

def moved (facts : FileFacts) : Bool := facts.renameFrom && facts.renameTo

def copied (facts : FileFacts) : Bool := facts.copyFrom && facts.copyTo

/-- Whether any rename or copy line was seen. -/
def movedOrCopied (facts : FileFacts) : Bool :=
  facts.renameFrom || facts.renameTo || facts.copyFrom || facts.copyTo

/-- The path a reviewer would be shown. -/
def shownPath (facts : FileFacts) : String :=
  if facts.deleted then facts.origPath else facts.newPath

def change (facts : FileFacts) : FileChange :=
  if facts.created then .added
  else if facts.deleted then .deleted
  else if facts.moved then .renamed
  else if facts.copied then .copied
  else .modified

/-! ## What the lines of a header say -/

def setPath (facts : FileFacts) (path : String) : Side → FileFacts
  | .orig => { facts with origPath := path }
  | .new => { facts with newPath := path }

def setInfo (facts : FileFacts) (info : String) : Side → FileFacts
  | .orig => { facts with origInfo := some info }
  | .new => { facts with newInfo := some info }

/-- One mode of a link makes the file a link. -/
def noteLink (facts : FileFacts) (mode : String) : FileFacts :=
  { facts with symlink := facts.symlink || mode == linkMode }

/-- Set the mode of a side. -/
def setMode (facts : FileFacts) (mode : String) (side : Side) : FileFacts :=
  let modes := facts.modes.getD {}
  { facts.noteLink mode with
    modes := some <| match side with
      | .orig => { modes with old := some mode }
      | .new => { modes with new := some mode } }

/-- Set the mode of both sides, unless one is known. -/
def offerMode (facts : FileFacts) (mode : String) : FileFacts :=
  { facts.noteLink mode with modes := facts.modes <|> some ⟨some mode, some mode⟩ }

/-- Note the path that the file was renamed from, or to. -/
def noteRename (facts : FileFacts) (path : String) (side : Side) : FileFacts :=
  match side with
  | .orig => { facts with origPath := path, renameFrom := true }
  | .new => { facts with newPath := path, renameTo := true }

/-- Note the path that the file was copied from, or to. -/
def noteCopy (facts : FileFacts) (path : String) (side : Side) : FileFacts :=
  match side with
  | .orig => { facts with origPath := path, copyFrom := true }
  | .new => { facts with newPath := path, copyTo := true }

end FileFacts

end DiffSections
