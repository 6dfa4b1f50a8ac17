import DiffSections.Bytes

/-!
# DiffSections.FileTree -- files by name, and what a path leads to

A run sees the file system as a function from paths to what is found there (`Entry`). A `FileTree`
is such a function made from a list of files: a path leads through directories segment by segment,
from the root if it starts with a slash and from the working directory otherwise. Every step is
taken from a directory, also one that stays (`.` or nothing between two slashes) or goes up.
-/

namespace DiffSections

set_option autoImplicit false

/-- Why something cannot be read. -/
inductive ReadFault where
  /-- The system's text and number for it. -/
  | system (text : String) (code : Nat)
  /-- A name holds a zero octet. -/
  | nulInName
  /-- The content is no text. -/
  | notText
  deriving DecidableEq, Repr

namespace ReadFault

def missing : ReadFault := .system "No such file or directory" 2
def notDirectory : ReadFault := .system "Not a directory" 20
def isDirectory : ReadFault := .system "Is a directory" 21
def nameTooLong : ReadFault := .system "File name too long" 36

def message : ReadFault → String
  | .system text code => text ++ " (os error " ++ toString code ++ ")"
  | .nulInName => "file name contained an unexpected NUL byte"
  | .notText => "stream did not contain valid UTF-8"

end ReadFault

/-- What a path leads to. -/
inductive Entry where
  | file (content : Bytes)
  /-- A file that cannot be opened. -/
  | locked (reason : ReadFault)
  /-- A file that can be opened and not be read. -/
  | broken (reason : ReadFault)
  | directory
  /-- No file and no directory. -/
  | fault (reason : ReadFault)
  deriving DecidableEq, Repr

/-- Files and directories by their names, which are lists of segments from the root. Directories on
the way to a file need no mention. -/
structure FileTree where
  files : List (List String × Bytes) := []
  directories : List (List String) := []
  /-- The working directory. -/
  home : List String := []

namespace FileTree

/-- The longest segment of a name, and the longest path, in octets. -/
def segmentLimit : Nat := 255
def pathLimit : Nat := 4095

/-- What has a name. -/
def entryAt (tree : FileTree) (name : List String) : Entry :=
  match tree.files.lookup name with
  | some content => .file content
  | none =>
      let known := tree.home :: tree.directories ++ tree.files.map (·.1)
      if known.any name.isPrefixOf then .directory else .fault .missing

/-- What is found by going on from a name. -/
def walk (tree : FileTree) (name : List String) : List String → Entry
  | [] => tree.entryAt name
  | segment :: segments =>
      match tree.entryAt name with
      | .file _ | .locked _ | .broken _ => .fault .notDirectory
      | .fault reason => .fault reason
      | .directory =>
          if segment = "" ∨ segment = "." then tree.walk name segments
          else if segment = ".." then tree.walk name.dropLast segments
          else if segmentLimit < segment.utf8ByteSize then .fault .nameTooLong
          else tree.walk (name ++ [segment]) segments

/-- What a path leads to. -/
def find (tree : FileTree) (path : String) : Entry :=
  if path.contains '\x00' then .fault .nulInName
  else if pathLimit < path.utf8ByteSize then .fault .nameTooLong
  else tree.walk (if path.startsWith "/" then [] else tree.home) (path.splitOn "/")

/-- Add a file, or a directory if the name ends in a slash, to the working directory. -/
def add (tree : FileTree) (name : String) (content : Bytes) : FileTree :=
  let segments := tree.home ++ (name.splitOn "/").filter (· ≠ "")
  if name.endsWith "/" then { tree with directories := segments :: tree.directories }
  else { tree with files := (segments, content) :: tree.files }

end FileTree

end DiffSections
