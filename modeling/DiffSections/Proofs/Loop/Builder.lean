import DiffSections.Proofs.Checked
import DiffSections.Proofs.Conservation
import DiffSections.Proofs.Section

/-!
# DiffSections.Proofs.Loop.Builder -- a section in one buffer

A `Draft` keeps its preamble apart and its text in pieces. A `Builder` keeps the section in one
buffer: the preamble is put in front of it once, and `preambleLen` says how much of the buffer it
is. What could go wrong with that panics: a second preamble, a section that is closed empty, and a
preamble that is longer than the buffer. `Draft.builder` is the buffer of a draft; every operation
does the same to both, and closing a draft that has text does not panic (`finalize_builder`).
-/

namespace DiffSections

set_option autoImplicit false

/-- A file section being read. The hunks are kept newest first. -/
structure Builder extends FileFacts where
  hunks : List Hunk := []
  insertions : Nat := 0
  deletions : Nat := 0
  /-- The preamble, once it is there, and the section text taken so far. -/
  data : Bytes := []
  /-- How many octets of the buffer are preamble. -/
  preambleLen : Nat := 0
  prepended : Bool := false
  deriving DecidableEq, Repr

namespace Builder

def ofFacts (facts : FileFacts) : Builder := { toFileFacts := facts }

def append (builder : Builder) (piece : Bytes) : Builder :=
  { builder with data := builder.data ++ piece }

theorem append_nil (builder : Builder) : builder.append [] = builder := by
  simp [append]

/-- Put the preamble in front of the buffer. -/
def prepend (builder : Builder) (preamble : Bytes) : Except Panic Builder :=
  if builder.prepended then .error .secondPreamble
  else .ok { builder with
    prepended := true
    preambleLen := preamble.length
    data := preamble ++ builder.data }

def withFacts (builder : Builder) (facts : FileFacts) : Builder :=
  { builder with toFileFacts := facts }

def markBinary (builder : Builder) : Builder := { builder with binary := true }

def pushHunk (builder : Builder) (hunk : Hunk) : Builder :=
  { builder with hunks := hunk :: builder.hunks }

/-- Change the newest hunk, if there is one. -/
def mapOpenHunk (builder : Builder) (change : Hunk → Hunk) : Builder :=
  match builder.hunks with
  | [] => builder
  | hunk :: older => { builder with hunks := change hunk :: older }

/-- Count a body line for the file and for the open hunk. -/
def count (builder : Builder) (kind : BodyKind) : Builder :=
  let builder := builder.mapOpenHunk (·.count kind)
  match kind with
  | .context => builder
  | .removed => { builder with deletions := builder.deletions + 1 }
  | .added => { builder with insertions := builder.insertions + 1 }

def markUnended (builder : Builder) (kind : BodyKind) : Builder :=
  builder.mapOpenHunk (·.markUnended kind)

/-- Close the section. -/
def finalize (builder : Builder) : Except Panic FileRecord :=
  if builder.data = [] then .error .emptySection
  else do
    let preamble ← Bytes.slice builder.data 0 builder.preambleLen
    let body ← Bytes.slice builder.data builder.preambleLen builder.data.length
    return { toFileFacts := builder.toFileFacts
             hunks := builder.hunks.reverse
             insertions := builder.insertions
             deletions := builder.deletions
             preamble
             body }

/-- The record of a section, be it empty or not: closing without the check of the text. -/
def record (builder : Builder) : Except Panic FileRecord := do
  let preamble ← Bytes.slice builder.data 0 builder.preambleLen
  let body ← Bytes.slice builder.data builder.preambleLen builder.data.length
  return { toFileFacts := builder.toFileFacts
           hunks := builder.hunks.reverse
           insertions := builder.insertions
           deletions := builder.deletions
           preamble
           body }

/-- The check of the text is all that closing does besides. -/
theorem finalize_eq (builder : Builder) :
    builder.finalize = if builder.data = [] then .error .emptySection else builder.record := rfl

end Builder

namespace Draft

/-- The draft in one buffer. -/
def builder (draft : Draft) : Builder where
  toFileFacts := draft.toFileFacts
  hunks := draft.hunks
  insertions := draft.insertions
  deletions := draft.deletions
  data := draft.data
  preambleLen := (draft.preamble.getD []).length
  prepended := draft.preamble.isSome

@[simp] theorem facts_builder (draft : Draft) :
    draft.builder.toFileFacts = draft.toFileFacts := rfl

@[simp] theorem builder_ofFacts (facts : FileFacts) :
    (ofFacts facts).builder = .ofFacts facts := rfl

@[simp] theorem builder_append (draft : Draft) (piece : Bytes) :
    (draft.append piece).builder = draft.builder.append piece := by
  simp only [builder, data_append, Builder.append]
  rfl

@[simp] theorem builder_withFacts (draft : Draft) (facts : FileFacts) :
    (draft.withFacts facts).builder = draft.builder.withFacts facts := rfl

@[simp] theorem builder_markBinary (draft : Draft) :
    draft.markBinary.builder = draft.builder.markBinary := rfl

@[simp] theorem builder_pushHunk (draft : Draft) (hunk : Hunk) :
    (draft.pushHunk hunk).builder = draft.builder.pushHunk hunk := rfl

theorem builder_mapOpenHunk (draft : Draft) (change : Hunk → Hunk) :
    (draft.mapOpenHunk change).builder = draft.builder.mapOpenHunk change := by
  obtain ⟨facts, hunks, insertions, deletions, preamble, pieces⟩ := draft
  cases hunks <;> rfl

@[simp] theorem builder_count (draft : Draft) (kind : BodyKind) :
    (draft.count kind).builder = draft.builder.count kind := by
  cases kind <;> simp only [count, Builder.count, ← builder_mapOpenHunk] <;> rfl

@[simp] theorem builder_markUnended (draft : Draft) (kind : BodyKind) :
    (draft.markUnended kind).builder = draft.builder.markUnended kind :=
  builder_mapOpenHunk draft _

/-- The first preamble goes in front of the buffer. -/
theorem prepend_builder {draft : Draft} (bare : draft.preamble = none) (preamble : Bytes) :
    draft.builder.prepend preamble = .ok { draft with preamble := some preamble }.builder := by
  simp [builder, Builder.prepend, bare, data, text]

theorem record_builder (draft : Draft) : draft.builder.record = .ok draft.close := by
  have within : draft.builder.preambleLen ≤ draft.builder.data.length := by
    simp [builder, data]
  rw [Builder.record, Bytes.slice_zero within, Bytes.slice_length within]
  simp [builder, data, close]

/-- **A draft with text is closed without a panic**, into the same record. -/
theorem finalize_builder {draft : Draft} (filled : draft.text ≠ []) :
    draft.builder.finalize = .ok draft.close := by
  have nonempty : draft.builder.data ≠ [] := List.append_ne_nil_of_right_ne_nil _ filled
  rw [Builder.finalize_eq, if_neg nonempty, record_builder]

end Draft

end DiffSections
