import DiffSections.File.Facts
import DiffSections.Hunk

/-!
# DiffSections.File.Record -- a file section, while it is read and once it is closed

A `Draft` is a file section being read: its facts, its hunks so far and the octets taken so far.
`Draft.close` closes it into a `FileRecord`, which holds the exact octets of the section behind the
preamble that preceded it. `Draft.text` is what a draft has taken; every operation either appends to
it or leaves it alone, and the preamble goes in front once.
-/

namespace DiffSections

set_option autoImplicit false

/-- A closed file section. -/
structure FileRecord extends FileFacts where
  hunks : List Hunk := []
  insertions : Nat := 0
  deletions : Nat := 0
  /-- The octets before the section's boundary line. -/
  preamble : Bytes := []
  /-- The section, from its boundary line on. -/
  body : Bytes := []
  deriving DecidableEq, Repr

/-- The exact octets of a record. -/
def FileRecord.data (record : FileRecord) : Bytes :=
  record.preamble ++ record.body

/-- A file section being read. The hunks and the pieces of text are kept newest first. -/
structure Draft extends FileFacts where
  hunks : List Hunk := []
  insertions : Nat := 0
  deletions : Nat := 0
  preamble : Option Bytes := none
  pieces : List Bytes := []
  deriving DecidableEq, Repr

namespace Draft

def ofFacts (facts : FileFacts) : Draft := { toFileFacts := facts }

/-- The section text taken so far. -/
def text (draft : Draft) : Bytes := draft.pieces.reverse.flatten

def append (draft : Draft) (piece : Bytes) : Draft :=
  { draft with pieces := piece :: draft.pieces }

/-- Give the section its preamble; it has one place for it. -/
def prepend? (draft : Draft) (preamble : Bytes) : Option Draft :=
  if draft.preamble.isSome then none else some { draft with preamble := some preamble }

/-- Open a hunk; the lines counted from now on are its lines. -/
def pushHunk (draft : Draft) (hunk : Hunk) : Draft :=
  { draft with hunks := hunk :: draft.hunks }

/-- Change the newest hunk, if there is one. -/
def mapOpenHunk (draft : Draft) (change : Hunk → Hunk) : Draft :=
  match draft.hunks with
  | [] => draft
  | hunk :: older => { draft with hunks := change hunk :: older }

/-- Count a body line for the file and for the open hunk. -/
def count (draft : Draft) (kind : BodyKind) : Draft :=
  let draft := draft.mapOpenHunk (·.count kind)
  match kind with
  | .context => draft
  | .removed => { draft with deletions := draft.deletions + 1 }
  | .added => { draft with insertions := draft.insertions + 1 }

def markUnended (draft : Draft) (kind : BodyKind) : Draft :=
  draft.mapOpenHunk (·.markUnended kind)

def close (draft : Draft) : FileRecord :=
  { toFileFacts := draft.toFileFacts
    hunks := draft.hunks.reverse
    insertions := draft.insertions
    deletions := draft.deletions
    preamble := draft.preamble.getD []
    body := draft.text }

/-! ## What each operation does to the text -/

@[simp] theorem text_append (draft : Draft) (piece : Bytes) :
    (draft.append piece).text = draft.text ++ piece := by
  simp [text, append]

@[simp] theorem text_pushHunk (draft : Draft) (hunk : Hunk) :
    (draft.pushHunk hunk).text = draft.text := rfl

@[simp] theorem text_mapOpenHunk (draft : Draft) (change : Hunk → Hunk) :
    (draft.mapOpenHunk change).text = draft.text := by
  unfold mapOpenHunk; split <;> rfl

@[simp] theorem text_count (draft : Draft) (kind : BodyKind) :
    (draft.count kind).text = draft.text := by
  cases kind <;> exact text_mapOpenHunk draft _

@[simp] theorem text_markUnended (draft : Draft) (kind : BodyKind) :
    (draft.markUnended kind).text = draft.text :=
  text_mapOpenHunk draft _

end Draft

end DiffSections
