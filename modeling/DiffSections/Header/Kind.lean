/-!
# DiffSections.Header.Kind -- the kinds of extended header lines

Each kind is told by the words its line starts with; a space and the value follow them.
-/

namespace DiffSections

set_option autoImplicit false

inductive HeaderKind where
  | newFileMode
  | deletedFileMode
  | oldMode
  | newMode
  | similarityIndex
  | dissimilarityIndex
  | renameFrom
  | renameTo
  | copyFrom
  | copyTo
  | index
  deriving DecidableEq, Repr

namespace HeaderKind

def keyword : HeaderKind → String
  | .newFileMode => "new file mode"
  | .deletedFileMode => "deleted file mode"
  | .oldMode => "old mode"
  | .newMode => "new mode"
  | .similarityIndex => "similarity index"
  | .dissimilarityIndex => "dissimilarity index"
  | .renameFrom => "rename from"
  | .renameTo => "rename to"
  | .copyFrom => "copy from"
  | .copyTo => "copy to"
  | .index => "index"

def all : List HeaderKind :=
  [.newFileMode, .deletedFileMode, .oldMode, .newMode, .similarityIndex, .dissimilarityIndex,
    .renameFrom, .renameTo, .copyFrom, .copyTo, .index]

theorem mem_all (kind : HeaderKind) : kind ∈ all := by
  cases kind <;> decide

end HeaderKind

end DiffSections
