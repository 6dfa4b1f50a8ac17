import DiffSections.Proofs.Hunk.Body
import DiffSections.Proofs.Reader.Locality
import DiffSections.Proofs.Reader.Sections
import DiffSections.Proofs.Section

/-!
# DiffSections.Proofs.Hunk.Lines -- complete hunks are taken whatever the dialect

`HunkLines` are the lines of a complete hunk: a header, exactly the body lines that it declares, and
markers behind body lines. What they make of the hunk (`HunkLines.hunk`) depends on the lines alone.
A reader before a hunk takes them line by line and holds that hunk then (`Draft.takes_hunkLines`),
in either dialect.
-/

namespace DiffSections

set_option autoImplicit false

/-! ## Complete hunks -/

namespace Hunk

/-- Whether these lines are all that a hunk owes, given whether a body line came before them. A
marker stands behind a body line; behind the last one there is at most one. -/
def closedBy (left : Remaining) (begun : Bool) : List Bytes → Bool
  | [] => left.isDone
  | line :: lines =>
      match BodyLine.ofContent? (Line.content line) with
      | none => false
      | some .marker => begun && (if left.isDone then lines.isEmpty else closedBy left true lines)
      | some (.change kind) =>
          match left.take? kind with
          | none => false
          | some left => closedBy left true lines

/-- The hunk that these lines of its body make of it, behind a line of kind `last`. -/
def fill (hunk : Hunk) (last : Option BodyKind) : List Bytes → Hunk
  | [] => hunk
  | line :: lines =>
      match BodyLine.ofContent? (Line.content line), last with
      | some (.change kind), _ => fill (hunk.count kind) (some kind) lines
      | some .marker, some kind => fill (hunk.markUnended kind) last lines
      | some .marker, none | none, _ => hunk

theorem fill_change {hunk : Hunk} {last : Option BodyKind} {line : Bytes} {body : List Bytes}
    {kind : BodyKind} (content : BodyLine.ofContent? (Line.content line) = some (.change kind)) :
    hunk.fill last (line :: body) = (hunk.count kind).fill (some kind) body := by
  simp only [fill, content]

theorem fill_marker {hunk : Hunk} {line : Bytes} {body : List Bytes} {kind : BodyKind}
    (content : BodyLine.ofContent? (Line.content line) = some .marker) :
    hunk.fill (some kind) (line :: body) = (hunk.markUnended kind).fill (some kind) body := by
  simp only [fill, content]

end Hunk

/-- The lines of a complete hunk. -/
structure HunkLines where
  header : Bytes
  body : List Bytes
  /-- The hunk as its header declares it. -/
  opened : Hunk
  opens : Hunk.ofHeader? (Line.content header) = some opened
  closed : Hunk.closedBy (Remaining.ofHunk opened) false body = true

namespace HunkLines

def lines (block : HunkLines) : List Bytes := block.header :: block.body

def hunk (block : HunkLines) : Hunk := block.opened.fill none block.body

end HunkLines

/-! ## Drafts -/

namespace Draft

/-- A draft with these facts, hunks and lines (newest first), and the counts of its hunks. -/
def holding (facts : FileFacts) (preamble : Bytes) (hunks : List Hunk) (pieces : List Bytes) :
    Draft where
  toFileFacts := facts
  hunks := hunks
  insertions := (hunks.map (·.insertions)).sum
  deletions := (hunks.map (·.deletions)).sum
  preamble := some preamble
  pieces := pieces

variable {facts : FileFacts} {preamble : Bytes} {hunk : Hunk} {older : List Hunk}
  {pieces : List Bytes} {line : Bytes}

theorem count_holding (kind : BodyKind) :
    ((holding facts preamble (hunk :: older) pieces).count kind).append line =
      holding facts preamble (hunk.count kind :: older) (line :: pieces) := by
  cases kind <;>
    simp [holding, count, mapOpenHunk, append, Hunk.count, Nat.add_right_comm]

theorem markUnended_holding (kind : BodyKind) :
    ((holding facts preamble (hunk :: older) pieces).markUnended kind).append line =
      holding facts preamble (hunk.markUnended kind :: older) (line :: pieces) := by
  cases kind <;> rfl

/-- A hunk that was just opened counts nothing. -/
theorem pushHunk_holding (opens : Hunk.ofHeader? (Line.content line) = some hunk) :
    ((holding facts preamble older pieces).pushHunk hunk).append line =
      holding facts preamble (hunk :: older) (line :: pieces) := by
  have unread := Hunk.declared_of_ofHeader? opens
  have insertions : hunk.insertions = 0 := by rw [← unread]; rfl
  have deletions : hunk.deletions = 0 := by rw [← unread]; rfl
  simp [holding, pushHunk, append, insertions, deletions]

/-! ## Taking a hunk -/

section Body

variable (dialect : Dialect) (left : Remaining) (last : Option BodyKind)

/-- A body line is taken where the hunk owes it. -/
theorem takes_change {after : Remaining} {kind : BodyKind}
    (content : BodyLine.ofContent? (Line.content line) = some (.change kind))
    (fits : left.take? kind = some after) :
    Takes dialect (.reading (holding facts preamble (hunk :: older) pieces) (.inHunk left last))
      [line]
      (.reading (holding facts preamble (hunk.count kind :: older) (line :: pieces))
        (.inHunk after (some kind))) := by
  have owes : left.isDone = false := by
    by_contra done
    rw [Bool.not_eq_false, Remaining.isDone_iff] at done
    subst done
    cases kind <;> cases fits
  apply Takes.of_move
  intro lines
  rw [Place.inHunk, owes, if_neg Bool.false_ne_true, ← count_holding]
  exact .change rfl content fits

/-- A marker is taken behind a body line of a hunk that owes more. -/
theorem takes_marker {kind : BodyKind} (owes : left.isDone = false)
    (content : BodyLine.ofContent? (Line.content line) = some .marker) :
    Takes dialect
      (.reading (holding facts preamble (hunk :: older) pieces) (.inHunk left (some kind))) [line]
      (.reading (holding facts preamble (hunk.markUnended kind :: older) (line :: pieces))
        (.inHunk left (some kind))) := by
  apply Takes.of_move
  intro lines
  rw [Place.inHunk, owes, if_neg Bool.false_ne_true, ← markUnended_holding]
  exact .marker rfl content

/-- One marker is taken behind the last body line. -/
theorem takes_lastMarker {kind : BodyKind} (done : left.isDone = true)
    (content : BodyLine.ofContent? (Line.content line) = some .marker) :
    Takes dialect
      (.reading (holding facts preamble (hunk :: older) pieces) (.inHunk left (some kind))) [line]
      (.reading (holding facts preamble (hunk.markUnended kind :: older) (line :: pieces))
        (.between none)) := by
  apply Takes.of_move
  intro lines
  rw [Place.inHunk, if_pos done, ← markUnended_holding]
  exact .lateMarker (BodyLine.head?_of_marker content)

/-- A body is taken line by line, and the hunk is closed where it owes nothing. -/
theorem takes_hunkBody (hunk : Hunk) (pieces body : List Bytes)
    (closed : Hunk.closedBy left last.isSome body = true) :
    ∃ last', Takes dialect
      (.reading (holding facts preamble (hunk :: older) pieces) (.inHunk left last)) body
      (.reading (holding facts preamble (hunk.fill last body :: older) (body.reverse ++ pieces))
        (.between last')) := by
  induction body generalizing left last hunk pieces with
  | nil =>
      have done : left.isDone = true := closed
      refine ⟨last, ?_⟩
      rw [Place.inHunk, if_pos done]
      exact .nil
  | cons line body ih =>
      rw [List.reverse_cons, List.append_assoc, List.singleton_append]
      rw [Hunk.closedBy] at closed
      cases content : BodyLine.ofContent? (Line.content line) with
      | none => simp [content] at closed
      | some found =>
          cases found with
          | change kind =>
              cases fits : left.take? kind with
              | none => simp [content, fits] at closed
              | some after =>
                  simp only [content, fits] at closed
                  rw [Hunk.fill_change content]
                  obtain ⟨last', later⟩ :=
                    ih after (some kind) (hunk.count kind) (line :: pieces) closed
                  exact ⟨last', (takes_change dialect left last content fits).append later⟩
          | marker =>
              cases last with
              | none => simp [content] at closed
              | some kind =>
                  simp only [content, Option.isSome_some, Bool.true_and] at closed
                  rw [Hunk.fill_marker content]
                  cases done : left.isDone with
                  | true =>
                      rw [done, if_pos rfl, List.isEmpty_iff] at closed
                      subst closed
                      exact ⟨none, takes_lastMarker dialect left done content⟩
                  | false =>
                      rw [done, if_neg Bool.false_ne_true] at closed
                      obtain ⟨last', later⟩ :=
                        ih left (some kind) (hunk.markUnended kind) (line :: pieces) closed
                      exact ⟨last', (takes_marker dialect left done content).append later⟩

end Body

/-- A hunk is taken by a reader that stands before one. -/
theorem takes_hunkLines (dialect : Dialect) (block : HunkLines) {place : Place}
    (ready : place.BeforeHunk) (older : List Hunk) (pieces : List Bytes) :
    ∃ last, Takes dialect (.reading (holding facts preamble older pieces) place) block.lines
      (.reading (holding facts preamble (block.hunk :: older) (block.lines.reverse ++ pieces))
        (.between last)) := by
  obtain ⟨last, body⟩ : ∃ last, Takes dialect
      (.reading (holding facts preamble (block.opened :: older) (block.header :: pieces))
        (.inHunk (Remaining.ofHunk block.opened) none)) block.body
      (.reading (holding facts preamble (block.hunk :: older)
        (block.body.reverse ++ block.header :: pieces)) (.between last)) :=
    takes_hunkBody dialect _ none _ _ _ block.closed
  refine ⟨last, ?_⟩
  rw [HunkLines.lines, List.reverse_cons, List.append_assoc, List.singleton_append]
  refine .cons (fun lines => ?_) body
  rw [← pushHunk_holding block.opens]
  exact .opensHunk ready block.opens lines

/-- Hunks are taken one after the other. -/
theorem takes_hunkBlocks (dialect : Dialect) (facts : FileFacts) (preamble : Bytes)
    (blocks : List HunkLines) {place : Place} (ready : place.BeforeHunk) (older : List Hunk)
    (pieces : List Bytes) :
    ∃ place', place'.BeforeHunk ∧
      Takes dialect (.reading (holding facts preamble older pieces) place)
        (blocks.flatMap HunkLines.lines)
        (.reading (holding facts preamble ((blocks.map HunkLines.hunk).reverse ++ older)
          ((blocks.flatMap HunkLines.lines).reverse ++ pieces)) place') := by
  induction blocks generalizing place older pieces with
  | nil => exact ⟨place, ready, .nil⟩
  | cons block blocks ih =>
      obtain ⟨last, first⟩ := takes_hunkLines dialect block ready older pieces
      obtain ⟨place', ready', later⟩ :=
        ih (.inr ⟨last, rfl⟩) (block.hunk :: older) (block.lines.reverse ++ pieces)
      refine ⟨place', ready', ?_⟩
      rw [List.flatMap_cons, List.map_cons, List.reverse_cons, List.reverse_append,
        List.append_assoc, List.append_assoc, List.singleton_append]
      exact first.append later

end Draft

end DiffSections
