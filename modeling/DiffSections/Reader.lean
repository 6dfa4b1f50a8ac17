import DiffSections.Dialect.Lines
import DiffSections.File.Record
import DiffSections.Hunk.Header

/-!
# DiffSections.Reader -- a diff read line by line into file records

The reader stands between two lines. Before a boundary it collects text, which becomes the preamble
of the next section, or the end of the last one if no section follows. After a boundary come header
lines, then a binary marker or the `---`/`+++` pair, then hunks. Each hunk takes exactly the lines
it declares. The first line that does not fit ends the reading with an error, and nothing is
returned.

A step takes one or two lines (`Move.one`, `Move.two`) or hands the line at hand back to be looked
at as text between sections (`Move.handBack`), which takes it. So the work still owed (`debt`) falls
with every step, and the run ends.

Inside a hunk a plain unified boundary also reads as a removed and an added line. `cutRule` decides
which it is: the boundary ends the hunk early unless the lines from it on can still complete the
hunk. The rule is a parameter of the step, so that a reader without it can be spoken of.
-/

namespace DiffSections

set_option autoImplicit false

/-- Where the reader stands inside a file section. -/
inductive Place where
  /-- Before the first hunk. -/
  | header (pairSeen : Bool)
  /-- In the payload of a binary patch. -/
  | payload
  /-- In a hunk that owes lines; `last` is the kind of its last body line. -/
  | hunk (left : Remaining) (last : Option BodyKind)
  /-- After a complete hunk; `last` is as above until a marker has used it. -/
  | between (last : Option BodyKind)
  deriving DecidableEq, Repr

/-- What the reader has in hand. -/
inductive ReaderState where
  /-- Text since the last section (newest line first), and that section while it is not closed. -/
  | seeking (previous : Option Draft) (pending : List Bytes)
  | reading (draft : Draft) (place : Place)
  deriving DecidableEq, Repr

/-- What a step inside a section does with the line at hand. -/
inductive Move where
  /-- Take the line. -/
  | one (state : ReaderState)
  /-- Take the line and the next one. -/
  | two (state : ReaderState)
  /-- Leave the line to the text after this section. -/
  | handBack (draft : Draft)
  deriving DecidableEq, Repr

/-- A rule that tells whether the lines ahead end a hunk that still owes lines. -/
abbrev CutRule := Remaining → List Bytes → Bool

/-- Whether these lines, read as body lines, complete a hunk that owes `left`. -/
def completesHunk : Remaining → List Bytes → Bool
  | _, [] => false
  | left, line :: lines =>
      match BodyLine.ofContent? (Line.content line) with
      | none => false
      | some .marker => completesHunk left lines
      | some (.change kind) =>
          match left.take? kind with
          | none => false
          | some left => left.isDone || completesHunk left lines

namespace Dialect

/-- A boundary ends an open hunk unless the hunk can be completed from it on. -/
def cutRule (dialect : Dialect) : CutRule :=
  fun left ahead => dialect.startsSection ahead && !completesHunk left ahead

/-! ## Steps inside a section -/

/-- Read a hunk header. A hunk that declares no lines is complete at once. -/
def startHunk (draft : Draft) (line : Bytes) : Except Fault Move :=
  match Hunk.ofHeader? (Line.content line) with
  | none => .error (.hunkHeader (Line.content line))
  | some hunk =>
      let draft := (draft.pushHunk hunk).append line
      let left := Remaining.ofHunk hunk
      .ok (.one (.reading draft (if left.isDone then .between none else .hunk left none)))

/-- Read a `---` line, given what follows its head, with the `+++` line that has to follow. -/
def readPair (dialect : Dialect) (draft : Draft) (orig line : Bytes) (lines : List Bytes) :
    Except Fault Move :=
  match lines with
  | [] => .error .origLineAlone
  | next :: _ =>
      match Bytes.after? newHead (Line.content next) with
      | none => .error .origLineAlone
      | some new =>
          let facts := dialect.addRevision .new new
            (dialect.addRevision .orig orig draft.toFileFacts)
          let draft := (({ draft with toFileFacts := facts } : Draft).append line).append next
          .ok (.two (.reading draft (.header true)))

/-- A line before the first hunk that is neither a boundary, a binary marker nor a header. -/
def readPairOrHunk (dialect : Dialect) (draft : Draft) (pairSeen : Bool) (line : Bytes)
    (lines : List Bytes) : Except Fault Move :=
  let content := Line.content line
  match Bytes.after? origHead content with
  | some orig =>
      if pairSeen then .error .secondOrigLine else dialect.readPair draft orig line lines
  | none =>
      if content.startsWith newHead then .error .newLineAlone
      else if Hunk.announcedBy content then
        if pairSeen then startHunk draft line else .error .hunkBeforePair
      else .ok (.handBack draft)

/-- A line before the first hunk. -/
def headerStep (dialect : Dialect) (draft : Draft) (pairSeen : Bool) (line : Bytes)
    (lines : List Bytes) : Except Fault Move :=
  let content := Line.content line
  if dialect.startsSection (line :: lines) then .ok (.handBack draft)
  else
    match dialect.binaryNotice? content with
    | some marker =>
        let draft := ({ draft with binary := true } : Draft).append line
        .ok (.one (match marker with
          | .summary => .seeking (some draft) []
          | .patch => .reading draft .payload))
    | none =>
        if pairSeen then dialect.readPairOrHunk draft pairSeen line lines
        else
          match dialect.readHeader content draft.toFileFacts with
          | .error fault => .error fault
          | .ok (some facts) =>
              let draft := ({ draft with toFileFacts := facts } : Draft).append line
              .ok (.one (.reading draft (.header false)))
          | .ok none => dialect.readPairOrHunk draft pairSeen line lines

/-- A line of a binary payload. -/
def payloadStep (dialect : Dialect) (draft : Draft) (line : Bytes) (lines : List Bytes) : Move :=
  if dialect.startsSection (line :: lines) then .handBack draft
  else .one (.reading (draft.append line) .payload)

/-- A line of a hunk that owes `left`. -/
def hunkStep (draft : Draft) (left : Remaining) (last : Option BodyKind) (line : Bytes) :
    Except Fault Move :=
  let content := Line.content line
  match BodyLine.ofContent? content with
  | none => .error (.bodyLine content)
  | some .marker =>
      match last with
      | none => .error .markerFirst
      | some kind =>
          .ok (.one (.reading ((draft.markUnended kind).append line) (.hunk left last)))
  | some (.change kind) =>
      match left.take? kind with
      | none => .error (.overrun left)
      | some left =>
          let draft := (draft.count kind).append line
          .ok (.one (.reading draft
            (if left.isDone then .between (some kind) else .hunk left (some kind))))

/-- A line that can only open a hunk. -/
def nextHunk (draft : Draft) (line : Bytes) : Except Fault Move :=
  if Hunk.announcedBy (Line.content line) then startHunk draft line else .ok (.handBack draft)

/-- A line after a complete hunk. -/
def betweenStep (draft : Draft) (last : Option BodyKind) (line : Bytes) : Except Fault Move :=
  match last with
  | none => nextHunk draft line
  | some kind =>
      if (Line.content line).head? = some Bytes.backslash then
        .ok (.one (.reading ((draft.markUnended kind).append line) (.between none)))
      else nextHunk draft line

/-- A line inside a section. `passed` lines came before it. -/
def sectionStep (dialect : Dialect) (cuts : CutRule) (passed : Nat) (draft : Draft)
    (place : Place) (line : Bytes) (lines : List Bytes) : Except ParseError Move :=
  let number := Line.number passed
  match place with
  | .header pairSeen => atLine number (dialect.headerStep draft pairSeen line lines)
  | .payload => .ok (dialect.payloadStep draft line lines)
  | .hunk left last =>
      if cuts left (line :: lines) then .error ⟨.truncated left, passed⟩
      else atLine number (hunkStep draft left last line)
  | .between last => atLine number (betweenStep draft last line)

end Dialect

/-! ## The reader -/

structure Reader where
  /-- The closed sections, newest first. -/
  closed : List FileRecord
  state : ReaderState
  /-- How many lines were taken. -/
  passed : Nat
  /-- The lines not taken yet. -/
  ahead : List Bytes
  deriving DecidableEq, Repr

namespace Reader

def ofLines (lines : List Bytes) : Reader :=
  { closed := [], state := .seeking none [], passed := 0, ahead := lines }

/-- Take `count` lines. -/
def take (reader : Reader) (count : Nat) (state : ReaderState) : Reader :=
  { reader with state, passed := reader.passed + count, ahead := reader.ahead.drop count }

def move (reader : Reader) : Move → Reader
  | .one state => reader.take 1 state
  | .two state => reader.take 2 state
  | .handBack draft => { reader with state := .seeking (some draft) [] }

/-- The draft of a section that starts here: the text since the last section is its preamble. -/
def startDraft (opening : Opening) (pending lines : List Bytes) : Draft :=
  let draft := Draft.ofFacts opening.facts
  let draft := (draft.prepend? pending.reverse.flatten).getD draft
  lines.foldl Draft.append draft

/-- Start a section. The one before it is closed. -/
def start (reader : Reader) (opening : Opening) (previous : Option Draft) (pending : List Bytes) :
    Reader :=
  let count := opening.lineCount
  let draft := startDraft opening pending (reader.ahead.take count)
  let reader := reader.take count (.reading draft (.header opening.pairSeen))
  { reader with closed := (previous.map Draft.close).toList ++ reader.closed }

/-- One step, at a line that is there. -/
def step (dialect : Dialect) (cuts : CutRule) (reader : Reader) (line : Bytes)
    (lines : List Bytes) : Except ParseError Reader :=
  match reader.state with
  | .seeking previous pending =>
      match dialect.open? (line :: lines) with
      | .error fault => .error ⟨fault, Line.number reader.passed⟩
      | .ok none => .ok (reader.take 1 (.seeking previous (line :: pending)))
      | .ok (some opening) => .ok (reader.start opening previous pending)
  | .reading draft place =>
      match dialect.sectionStep cuts reader.passed draft place line lines with
      | .error error => .error error
      | .ok move => .ok (reader.move move)

/-- The steps still owed, at most: two for each line ahead, and one more inside a section. -/
def debt (reader : Reader) : Nat :=
  2 * reader.ahead.length + match reader.state with
    | .seeking _ _ => 0
    | .reading _ _ => 1

theorem lineCount_pos (opening : Opening) : 0 < opening.lineCount := by
  unfold Opening.lineCount; split <;> decide

theorem debt_take_lt {reader : Reader} (ahead : reader.ahead ≠ []) {count : Nat}
    (taken : 0 < count) (state : ReaderState) : (reader.take count state).debt < reader.debt := by
  have owed : 0 < reader.ahead.length := List.length_pos_iff.2 ahead
  have left : (reader.take count state).debt ≤ 2 * (reader.ahead.length - count) + 1 := by
    simp only [debt, take, List.length_drop]
    cases state <;> simp
  have had : 2 * reader.ahead.length ≤ reader.debt := by simp only [debt]; omega
  omega

theorem debt_start_lt {reader : Reader} (ahead : reader.ahead ≠ []) (opening : Opening)
    (previous : Option Draft) (pending : List Bytes) :
    (reader.start opening previous pending).debt < reader.debt :=
  debt_take_lt ahead (lineCount_pos opening)
    (.reading (startDraft opening pending (reader.ahead.take opening.lineCount))
      (.header opening.pairSeen))

/-- **Every step pays.** So a run takes at most `debt` steps. -/
theorem debt_step_lt {dialect : Dialect} {cuts : CutRule} {reader next : Reader} {line : Bytes}
    {lines : List Bytes} (ahead : reader.ahead = line :: lines)
    (stepped : reader.step dialect cuts line lines = .ok next) : next.debt < reader.debt := by
  have owed : reader.ahead ≠ [] := by simp [ahead]
  unfold step at stepped
  split at stepped
  · rename_i previous pending _
    split at stepped
    · exact absurd stepped (by simp)
    · cases stepped; exact debt_take_lt owed (by decide) _
    · rename_i opening _
      cases stepped
      exact debt_start_lt owed opening previous pending
  · rename_i draft place inside
    split at stepped
    · exact absurd stepped (by simp)
    · rename_i move _
      cases stepped
      cases move with
      | one state => exact debt_take_lt owed (by decide) _
      | two state => exact debt_take_lt owed (by decide) _
      | handBack draft => simp [Reader.move, debt, inside]

/-- Step until no line is ahead. -/
def run (dialect : Dialect) (cuts : CutRule) (reader : Reader) : Except ParseError Reader :=
  match _ahead : reader.ahead with
  | [] => .ok reader
  | line :: lines =>
      match _stepped : reader.step dialect cuts line lines with
      | .error error => .error error
      | .ok next => run dialect cuts next
termination_by reader.debt
decreasing_by exact debt_step_lt _ahead _stepped

/-- Close the last section at the end of the input. Text after it belongs to it. -/
def close (dialect : Dialect) (reader : Reader) : Except ParseError (List FileRecord) :=
  match reader.state with
  | .reading _ (.hunk left _) => .error ⟨.truncated left, reader.passed⟩
  | .reading draft _ => .ok (draft.close :: reader.closed).reverse
  | .seeking (some draft) pending =>
      .ok ((draft.append pending.reverse.flatten).close :: reader.closed).reverse
  | .seeking none pending =>
      if pending.all (·.all Bytes.isBlank) then .ok reader.closed.reverse
      else .error ⟨.noSection dialect, 0⟩

end Reader

namespace Dialect

/-- Read a diff, ending open hunks by the given rule. -/
def parseWith (dialect : Dialect) (cuts : CutRule) (data : Bytes) :
    Except ParseError (List FileRecord) :=
  match (Reader.ofLines (Line.split data)).run dialect cuts with
  | .error error => .error error
  | .ok reader => reader.close dialect

/-- Read a diff: one record for each file section, or the first error. -/
def parse (dialect : Dialect) (data : Bytes) : Except ParseError (List FileRecord) :=
  dialect.parseWith dialect.cutRule data

end Dialect

end DiffSections
