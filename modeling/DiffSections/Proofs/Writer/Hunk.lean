import DiffSections.Proofs.Reader.Sections
import DiffSections.Proofs.Writer

/-!
# DiffSections.Proofs.Writer.Hunk -- written hunks are read as they were meant

What a reader takes is shown for a body line and its marker, by induction for a body, for a hunk,
and by induction again for a list of hunks. While a body is read, the draft holds the hunk of the
lines that were read (`inBody`), and the hunk owes the lines that were not (`owed`).
-/

namespace DiffSections

set_option autoImplicit false

open Bytes

/-! ## Body lines -/

namespace BodyText

theorem ofContent?_line (body : BodyText) :
    BodyLine.ofContent? (Line.content body.line) = some (.change body.kind) := by
  have notCr : body.kind.head ≠ cr := by cases body.kind <;> decide
  obtain ⟨rest, content⟩ := Line.content_ended_cons body.text notCr
  rw [line, content]
  cases body.kind <;> rfl

theorem head?_markerLine (note : Bytes) :
    (Line.content (markerLine note)).head? = some backslash := by
  obtain ⟨rest, content⟩ := Line.content_ended_cons note (by decide : backslash ≠ cr)
  rw [markerLine, content]
  rfl

/-- The lines that a hunk owes while these lines of its body are to come. -/
def owed (body : List BodyText) : Remaining := ⟨lengthOn .orig body, lengthOn .new body⟩

theorem isDone_owed_cons (line : BodyText) (body : List BodyText) :
    (owed (line :: body)).isDone = false := by
  cases kind : line.kind <;> simp [owed, lengthOn, Remaining.isDone, kind, BodyKind.standsOn]

theorem take?_owed_cons (line : BodyText) (body : List BodyText) :
    (owed (line :: body)).take? line.kind = some (owed body) := by
  rw [Remaining.take?_eq_some_iff]
  cases kind : line.kind <;> simp [owed, lengthOn, kind, BodyKind.standsOn]

/-- What reading a body line and its marker makes of a draft. -/
def addTo (body : BodyText) (draft : Draft) : Draft :=
  let counted := (draft.count body.kind).append body.line
  match body.marker with
  | none => counted
  | some note => (counted.markUnended body.kind).append (markerLine note)

/-- A body line is taken, and its marker, inside a hunk or after its last line. -/
theorem takes_lines (dialect : Dialect) (line : BodyText) (body : List BodyText) (draft : Draft)
    (last : Option BodyKind) :
    ∃ last', Takes dialect (.reading draft (.inHunk (owed (line :: body)) last)) line.lines
      (.reading (line.addTo draft) (.inHunk (owed body) last')) := by
  have change : ∀ lines, SectionMove dialect .never draft line.line lines
      (.inHunk (owed (line :: body)) last)
      (.one (.reading ((draft.count line.kind).append line.line)
        (.inHunk (owed body) (some line.kind)))) := by
    intro lines
    rw [Place.inHunk, isDone_owed_cons, if_neg Bool.false_ne_true]
    exact .change rfl line.ofContent?_line (take?_owed_cons line body)
  cases marked : line.marker with
  | none =>
      refine ⟨some line.kind, ?_⟩
      simp only [lines, addTo, marked]
      exact .of_move change
  | some note =>
      have marks := head?_markerLine note
      simp only [lines, addTo, marked]
      -- After the last line the hunk is closed, and the marker is taken between hunks.
      cases done : (owed body).isDone with
      | true =>
          refine ⟨none, .cons change (.of_move fun lines => ?_)⟩
          simp only [Place.inHunk, done, if_true]
          exact .lateMarker marks
      | false =>
          refine ⟨some line.kind, .cons change (.of_move fun lines => ?_)⟩
          simp only [Place.inHunk, done, Bool.false_eq_true, if_false]
          exact .marker rfl (BodyLine.ofContent?_of_backslash marks)

end BodyText

/-! ## Bodies -/

namespace Draft

open BodyText

/-- A draft that has read the line that opens a hunk, and then these lines of its body. -/
def inBody (draft : Draft) (opened : Hunk) (header : Bytes) (read : List BodyText) : Draft :=
  { draft with
    hunks :=
      { opened with
        insertions := countOf .added read
        deletions := countOf .removed read
        origUnended := unendedOn .orig read
        newUnended := unendedOn .new read } :: draft.hunks
    insertions := draft.insertions + countOf .added read
    deletions := draft.deletions + countOf .removed read
    pieces := (header :: read.flatMap BodyText.lines).reverse ++ draft.pieces }

theorem addTo_inBody (draft : Draft) (opened : Hunk) (header : Bytes) (read : List BodyText)
    (line : BodyText) :
    line.addTo (draft.inBody opened header read) =
      draft.inBody opened header (read ++ [line]) := by
  cases kind : line.kind <;> cases marked : line.marker <;>
    simp [addTo, inBody, kind, marked, count, mapOpenHunk, markUnended, Hunk.count,
      Hunk.markUnended, append, countOf, unendedOn, BodyText.lines, BodyKind.standsOn,
      Nat.add_assoc]

/-- A body is taken line by line. -/
theorem takes_body (dialect : Dialect) (draft : Draft) (opened : Hunk) (header : Bytes)
    (read body : List BodyText) (last : Option BodyKind) :
    ∃ last', Takes dialect
      (.reading (draft.inBody opened header read) (.inHunk (owed body) last))
      (body.flatMap BodyText.lines)
      (.reading (draft.inBody opened header (read ++ body)) (.between last')) := by
  induction body generalizing read last with
  | nil =>
      refine ⟨last, ?_⟩
      rw [List.append_nil]
      exact .nil
  | cons line body ih =>
      obtain ⟨last', first⟩ :=
        line.takes_lines dialect body (draft.inBody opened header read) last
      rw [addTo_inBody] at first
      obtain ⟨last'', later⟩ := ih (read ++ [line]) last'
      rw [List.append_assoc, List.singleton_append] at later
      exact ⟨last'', first.append later⟩

end Draft

/-! ## Hunks -/

namespace HunkText

theorem content_headerLine (text : HunkText) :
    Line.content text.headerLine = text.hunk.headerText :=
  text.oneLine_headerText.content

theorem ofHeader?_headerLine (text : HunkText) :
    Hunk.ofHeader? (Line.content text.headerLine) = some text.hunk.declared := by
  rw [content_headerLine, Hunk.ofHeader?_headerText text.writable_hunk]

/-- The line that opens a hunk is taken before a hunk. -/
theorem opens (text : HunkText) (dialect : Dialect) (draft : Draft) {place : Place}
    (ready : place.BeforeHunk) (lines : List Bytes) :
    SectionMove dialect .never draft text.headerLine lines place
      (.one (.reading (draft.inBody text.hunk.declared text.headerLine [])
        (.inHunk (BodyText.owed text.body) none))) := by
  exact .opensHunk ready text.ofHeader?_headerLine lines

theorem takes_lines (text : HunkText) (dialect : Dialect) (draft : Draft) {place : Place}
    (ready : place.BeforeHunk) :
    ∃ last, Takes dialect (.reading draft place) text.lines
      (.reading (draft.inBody text.hunk.declared text.headerLine text.body) (.between last)) := by
  obtain ⟨last, body⟩ :=
    draft.takes_body dialect text.hunk.declared text.headerLine [] text.body none
  exact ⟨last, .cons (text.opens dialect draft ready) body⟩

end HunkText

/-! ## Lists of hunks -/

namespace Draft

/-- A draft that has read these hunks. -/
def withHunks (draft : Draft) (hunks : List HunkText) : Draft :=
  { draft with
    hunks := (hunks.map HunkText.hunk).reverse ++ draft.hunks
    insertions := draft.insertions + (hunks.map (·.hunk.insertions)).sum
    deletions := draft.deletions + (hunks.map (·.hunk.deletions)).sum
    pieces := (hunks.flatMap HunkText.lines).reverse ++ draft.pieces }

theorem withHunks_inBody (draft : Draft) (text : HunkText) (hunks : List HunkText) :
    (draft.inBody text.hunk.declared text.headerLine text.body).withHunks hunks =
      draft.withHunks (text :: hunks) := by
  simp [withHunks, inBody, HunkText.lines, HunkText.hunk, Hunk.declared, Nat.add_assoc]

/-- Hunks are taken one after the other. -/
theorem takes_hunks (dialect : Dialect) (hunks : List HunkText) (draft : Draft) {place : Place}
    (ready : place.BeforeHunk) :
    ∃ place', place'.BeforeHunk ∧ Takes dialect (.reading draft place)
      (hunks.flatMap HunkText.lines) (.reading (draft.withHunks hunks) place') := by
  induction hunks generalizing draft place with
  | nil =>
      have same : draft.withHunks [] = draft := by simp [withHunks]
      rw [same]
      exact ⟨place, ready, .nil⟩
  | cons text hunks ih =>
      obtain ⟨last, first⟩ := text.takes_lines dialect draft ready
      obtain ⟨place', ready', later⟩ :=
        ih (draft.inBody text.hunk.declared text.headerLine text.body) (.inr ⟨last, rfl⟩)
      rw [withHunks_inBody] at later
      exact ⟨place', ready', first.append later⟩

end Draft

end DiffSections
