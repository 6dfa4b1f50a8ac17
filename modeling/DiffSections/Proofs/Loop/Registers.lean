import DiffSections.Proofs.Loop.Builder
import DiffSections.Proofs.Path.Slices
import Mathlib.Logic.Relation

/-!
# DiffSections.Proofs.Loop.Registers -- a reading as a loop over registers

The reader keeps what it has in hand in a state that cannot be wrong: inside a section there is a
draft, and text is pending between sections only. Here is the same reading as a loop over registers
that know nothing of each other: the section in hand, if any; the pending text; the index of the
line at hand; the kind of the last body line; and the phase. The lines stay where they are and are
looked up by index; where there is none, an empty one is read. So the two questions a dialect is
asked of a line, `startsAt` and `begin?`, may disagree; a line may be lost that belongs to a section
that is not there; and a loop need not come to an end. What cannot be done panics. What comes of a
loop, if anything does, is `Loop.Ends`.
-/

namespace DiffSections

set_option autoImplicit false

open Bytes

/-- Why a loop stops before its end. -/
inductive Halt where
  | refused (error : ParseError)
  | panicked (panic : Panic)
  deriving DecidableEq, Repr

/-- Refuse a line. -/
def refuse {α : Type} (fault : Fault) (index : Nat) : Except Halt α :=
  .error (.refused ⟨fault, Line.number index⟩)

/-- Go on unless there is a panic. -/
def orPanic {α : Type} (checked : Except Panic α) : Except Halt α :=
  checked.mapError .panicked

@[simp] theorem orPanic_ok {α : Type} (value : α) : orPanic (.ok value) = .ok value := rfl

/-! ## Lines by index -/

/-- The line at an index; an empty one, if there is none. -/
def rawAt (lines : List Bytes) (index : Nat) : Bytes := lines[index]?.getD []

/-- Whether there is a line at an index that starts with `head`. -/
def headedAt (head : Bytes) (lines : List Bytes) (index : Nat) : Bool :=
  lines[index]?.any fun line => (Line.content line).startsWith head

namespace Dialect

/-- Whether a section starts at an index. -/
def startsAt : Dialect → List Bytes → Nat → Bool
  | .git, lines, index => headedAt boundaryHead lines index
  | .unified, lines, index => headedAt origHead lines index && headedAt newHead lines (index + 1)

/-- Start a section at an index, if it is a boundary. -/
def begin? : Dialect → List Bytes → Nat → Except Halt (Option Opening)
  | .git, lines, index =>
      match lines[index]?.bind fun line => after? boundaryHead (Line.content line) with
      | none => return none
      | some rest => do
          match ← orPanic (Boundary.splitAt? rest) with
          | none => refuse (.boundaryPaths rest) index
          | some (orig, new) =>
              return some ⟨factsOfPaths (Boundary.pathText .orig orig) (Boundary.pathText .new new),
                false⟩
  | .unified, lines, index =>
      if startsAt .unified lines index then do
        let origLine := Line.content (rawAt lines index)
        let newLine := Line.content (rawAt lines (index + 1))
        let orig ← orPanic (slice origLine 4 origLine.length)
        let new ← orPanic (slice newLine 4 newLine.length)
        let facts := factsOfPaths (Text.lossy (revisionName orig)) (Text.lossy (revisionName new))
        return some ⟨addRevision .unified .new new (addRevision .unified .orig orig facts), true⟩
      else return none

/-- Whether a boundary at an index ends a hunk that owes `left`. -/
def cutsAt (dialect : Dialect) (lines : List Bytes) (left : Remaining) (index : Nat) : Bool :=
  dialect.startsAt lines index && !completesHunk left (lines.drop index)

end Dialect

/-! ## Registers -/

/-- What the loop does with the line at hand. -/
inductive Phase where
  | seeking
  | header (pairSeen : Bool)
  | payload
  | hunk (left : Remaining)
  | between
  deriving DecidableEq, Repr

structure Loop where
  /-- The closed sections, newest first. -/
  closed : List FileRecord
  /-- The section in hand. -/
  current : Option Builder
  /-- The text since the last section. -/
  pending : Bytes
  /-- The index of the line at hand. -/
  index : Nat
  /-- The kind of the last body line, until a marker has used it. -/
  last : Option BodyKind
  phase : Phase
  deriving DecidableEq, Repr

namespace Loop

def initial : Loop :=
  { closed := [], current := none, pending := [], index := 0, last := none, phase := .seeking }

/-- Go on with the next step in a phase. -/
def enter (loop : Loop) (phase : Phase) : Loop := { loop with phase }

/-- Keep a kind of body line, or none, for the next marker. -/
def remember (loop : Loop) (last : Option BodyKind) : Loop := { loop with last }

/-- Put the line at hand, and what `change` notes of it, into the section in hand. Where there is no
section the line is lost. -/
def takeLine (loop : Loop) (lines : List Bytes) (change : Builder → Builder) : Loop :=
  { loop with
    current := loop.current.map fun builder => (change builder).append (rawAt lines loop.index)
    index := loop.index + 1 }

/-! ## Steps -/

/-- Close the section in hand, if there is one. -/
def closeCurrent (loop : Loop) : Except Halt (List FileRecord) :=
  match loop.current with
  | none => return loop.closed
  | some previous => do
      let record ← orPanic previous.finalize
      return record :: loop.closed

def startFile (loop : Loop) (lines : List Bytes) (opening : Opening) : Except Halt Loop := do
  let closed ← loop.closeCurrent
  let bare ← orPanic ((Builder.ofFacts opening.facts).prepend loop.pending)
  let builder := (List.range opening.lineCount).foldl
    (fun builder offset => builder.append (rawAt lines (loop.index + offset))) bare
  return { loop with
    closed
    current := some builder
    pending := []
    index := loop.index + opening.lineCount
    phase := .header opening.pairSeen }

variable (dialect : Dialect) (lines : List Bytes)

/-- Between sections: start one, or take the line as text. -/
def seekBoundary (loop : Loop) : Except Halt Loop := do
  match ← dialect.begin? lines loop.index with
  | some opening => loop.startFile lines opening
  | none =>
      return { loop with
        pending := loop.pending ++ rawAt lines loop.index
        index := loop.index + 1
        phase := .seeking }

/-- Read a hunk header. -/
def openHunk (loop : Loop) : Except Halt Loop :=
  let content := Line.content (rawAt lines loop.index)
  match Hunk.ofHeader? content with
  | none => refuse (.hunkHeader content) loop.index
  | some hunk =>
      let left := Remaining.ofHunk hunk
      let loop := (loop.takeLine lines (·.pushHunk hunk)).remember none
      .ok (loop.enter (if left.isDone then .between else .hunk left))

/-- Read a `---` line and the line after it. Where there is no section nothing is read, and the loop
goes on as if it were. -/
def applyPair (loop : Loop) : Except Halt Loop :=
  let line := rawAt lines loop.index
  let next := rawAt lines (loop.index + 1)
  match after? Dialect.newHead (Line.content next) with
  | none => refuse .origLineAlone loop.index
  | some new =>
      let orig := (Line.content line).drop 4
      match loop.current with
      | none => .ok (loop.enter (.header true))
      | some builder =>
          let facts := dialect.addPair orig new builder.toFileFacts
          let builder := ((builder.withFacts facts).append line).append next
          .ok { loop with
            current := some builder
            index := loop.index + 2
            phase := .header true }

/-- A line before the first hunk that is neither a boundary, a binary marker nor a header. -/
def pairOrHunk (loop : Loop) (pairSeen : Bool) : Except Halt Loop :=
  let content := Line.content (rawAt lines loop.index)
  if content.startsWith Dialect.origHead then
    if pairSeen then refuse .secondOrigLine loop.index else loop.applyPair dialect lines
  else if content.startsWith Dialect.newHead then refuse .newLineAlone loop.index
  else if Hunk.announcedBy content then
    if pairSeen then loop.openHunk lines else refuse .hunkBeforePair loop.index
  else .ok (loop.enter .seeking)

/-- A line before the first hunk. Where there is no section the loop looks for one. -/
def parseHeader (loop : Loop) (pairSeen : Bool) : Except Halt Loop :=
  let content := Line.content (rawAt lines loop.index)
  if dialect.startsAt lines loop.index then .ok (loop.enter .seeking)
  else
    match loop.current with
    | none => .ok (loop.enter .seeking)
    | some builder =>
        match dialect.binaryNotice? content with
        | some notice =>
            .ok ((loop.takeLine lines Builder.markBinary).enter (match notice with
              | .summary => .seeking
              | .patch => .payload))
        | none =>
            if pairSeen then loop.pairOrHunk dialect lines pairSeen
            else
              match dialect.readHeader content builder.toFileFacts with
              | .error fault => refuse fault loop.index
              | .ok (some facts) =>
                  .ok ((loop.takeLine lines (·.withFacts facts)).enter (.header false))
              | .ok none => loop.pairOrHunk dialect lines pairSeen

/-- A line of a binary payload. -/
def parsePayload (loop : Loop) : Except Halt Loop :=
  if dialect.startsAt lines loop.index then .ok (loop.enter .seeking)
  else .ok ((loop.takeLine lines id).enter .payload)

/-- A line of a hunk that owes `left`. -/
def parseHunkLine (loop : Loop) (left : Remaining) : Except Halt Loop :=
  let content := Line.content (rawAt lines loop.index)
  if dialect.cutsAt lines left loop.index then .error (.refused ⟨.truncated left, loop.index⟩)
  else
    match BodyLine.ofContent? content with
    | none => refuse (.bodyLine content) loop.index
    | some .marker =>
        match loop.last with
        | none => refuse .markerFirst loop.index
        | some kind => .ok ((loop.takeLine lines (·.markUnended kind)).enter (.hunk left))
    | some (.change kind) =>
        match left.take? kind with
        | none => refuse (.overrun left) loop.index
        | some left =>
            let loop := (loop.takeLine lines (·.count kind)).remember (some kind)
            .ok (loop.enter (if left.isDone then .between else .hunk left))

/-- A line after a complete hunk. -/
def parseBetweenHunks (loop : Loop) : Except Halt Loop :=
  let content := Line.content (rawAt lines loop.index)
  match if content.head? = some backslash then loop.last else none with
  | some kind =>
      .ok (((loop.takeLine lines (·.markUnended kind)).remember none).enter .between)
  | none =>
      if Hunk.announcedBy content then loop.openHunk lines else .ok (loop.enter .seeking)

def step (loop : Loop) : Except Halt Loop :=
  match loop.phase with
  | .seeking => loop.seekBoundary dialect lines
  | .header pairSeen => loop.parseHeader dialect lines pairSeen
  | .payload => loop.parsePayload dialect lines
  | .hunk left => loop.parseHunkLine dialect lines left
  | .between => loop.parseBetweenHunks lines

/-- Close the last section at the end of the input. Text after it belongs to it. -/
def finish (loop : Loop) : Except Halt (List FileRecord) :=
  match loop.phase, loop.current with
  | .hunk left, _ => .error (.refused ⟨.truncated left, lines.length⟩)
  | _, some last => do
      let last := if loop.pending.isEmpty then last else last.append loop.pending
      let record ← orPanic last.finalize
      return (record :: loop.closed).reverse
  | _, none =>
      if loop.pending.all isBlank then return loop.closed.reverse
      else .error (.refused ⟨.noSection dialect, 0⟩)

/-! ## Runs -/

/-- One turn of the loop: a line is at hand, and its step does not halt. -/
def Turn (loop next : Loop) : Prop :=
  loop.index < lines.length ∧ loop.step dialect lines = .ok next

instance (loop next : Loop) : Decidable (Turn dialect lines loop next) :=
  inferInstanceAs (Decidable (_ ∧ _))

/-- Any number of turns. -/
abbrev Turns : Loop → Loop → Prop := Relation.ReflTransGen (Turn dialect lines)

/-- What comes of a loop: it is finished when no line is at hand, unless a step halts. -/
inductive Ends : Loop → Except Halt (List FileRecord) → Prop where
  | finish {loop : Loop} (past : lines.length ≤ loop.index) :
      Ends loop (loop.finish dialect lines)
  | halt {loop : Loop} {halt : Halt} (ahead : loop.index < lines.length)
      (halts : loop.step dialect lines = .error halt) : Ends loop (.error halt)
  | turn {loop next : Loop} {outcome : Except Halt (List FileRecord)}
      (turn : Turn dialect lines loop next) (ends : Ends next outcome) : Ends loop outcome

end Loop

end DiffSections
