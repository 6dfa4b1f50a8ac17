import DiffSections.Reader

/-!
# DiffSections.Proofs.Reader.Moves -- what one line can do to a section

`SectionMove` lists the moves of a reader inside a section, one constructor for each way a line can
be taken or handed back, with everything that was checked on the way. `sectionStep_eq_ok_iff` says
that the list is complete and that each of its entries happens: the step function succeeds with a
move exactly when the list has it. What holds of every reading is proved by cases on this list, and
a reading of a known text is put together from its constructors, so the step function itself is
opened in this module only.
-/

namespace DiffSections

set_option autoImplicit false

/-- Where the reader stands in a hunk that owes `left`: a hunk that owes nothing is closed. -/
def Place.inHunk (left : Remaining) (last : Option BodyKind) : Place :=
  if left.isDone then .between last else .hunk left last

/-- The state that a move leads to. -/
def Move.state : Move → ReaderState
  | .one state => state
  | .two state => state
  | .handBack draft => .seeking (some draft) []

namespace Draft

def withFacts (draft : Draft) (facts : FileFacts) : Draft := { draft with toFileFacts := facts }

def markBinary (draft : Draft) : Draft := { draft with binary := true }

end Draft

namespace Dialect

/-- What both lines of a `---`/`+++` pair add to the facts. -/
def addPair (dialect : Dialect) (orig new : Bytes) (facts : FileFacts) : FileFacts :=
  dialect.addRevision .new new (dialect.addRevision .orig orig facts)

end Dialect

/-- What a line inside a section, with the lines after it, does to the section. -/
inductive SectionMove (dialect : Dialect) (cuts : CutRule) (draft : Draft) (line : Bytes)
    (lines : List Bytes) : Place → Move → Prop where
  | headerBoundary {pairSeen : Bool}
      (starts : dialect.startsSection (line :: lines) = true) :
      SectionMove dialect cuts draft line lines (.header pairSeen) (.handBack draft)
  | summary {pairSeen : Bool}
      (stays : dialect.startsSection (line :: lines) = false)
      (notice : dialect.binaryNotice? (Line.content line) = some .summary) :
      SectionMove dialect cuts draft line lines (.header pairSeen)
        (.one (.seeking (some (draft.markBinary.append line)) []))
  | patch {pairSeen : Bool}
      (stays : dialect.startsSection (line :: lines) = false)
      (notice : dialect.binaryNotice? (Line.content line) = some .patch) :
      SectionMove dialect cuts draft line lines (.header pairSeen)
        (.one (.reading (draft.markBinary.append line) .payload))
  | extended {facts : FileFacts}
      (stays : dialect.startsSection (line :: lines) = false)
      (plain : dialect.binaryNotice? (Line.content line) = none)
      (header : dialect.readHeader (Line.content line) draft.toFileFacts = .ok (some facts)) :
      SectionMove dialect cuts draft line lines (.header false)
        (.one (.reading ((draft.withFacts facts).append line) (.header false)))
  | pair {orig new next : Bytes} {later : List Bytes}
      (stays : dialect.startsSection (line :: lines) = false)
      (plain : dialect.binaryNotice? (Line.content line) = none)
      (noHeader : dialect.readHeader (Line.content line) draft.toFileFacts = .ok none)
      (origLine : Bytes.after? Dialect.origHead (Line.content line) = some orig)
      (ahead : lines = next :: later)
      (newLine : Bytes.after? Dialect.newHead (Line.content next) = some new) :
      SectionMove dialect cuts draft line lines (.header false)
        (.two (.reading
          (((draft.withFacts (dialect.addPair orig new draft.toFileFacts)).append line).append next)
          (.header true)))
  | firstHunk {hunk : Hunk}
      (stays : dialect.startsSection (line :: lines) = false)
      (plain : dialect.binaryNotice? (Line.content line) = none)
      (notOrig : Bytes.after? Dialect.origHead (Line.content line) = none)
      (notNew : (Line.content line).startsWith Dialect.newHead = false)
      (announced : Hunk.announcedBy (Line.content line) = true)
      (opens : Hunk.ofHeader? (Line.content line) = some hunk) :
      SectionMove dialect cuts draft line lines (.header true)
        (.one (.reading ((draft.pushHunk hunk).append line)
          (.inHunk (Remaining.ofHunk hunk) none)))
  | text {pairSeen : Bool}
      (stays : dialect.startsSection (line :: lines) = false)
      (plain : dialect.binaryNotice? (Line.content line) = none)
      (noHeader : pairSeen = false →
        dialect.readHeader (Line.content line) draft.toFileFacts = .ok none)
      (notOrig : Bytes.after? Dialect.origHead (Line.content line) = none)
      (notNew : (Line.content line).startsWith Dialect.newHead = false)
      (notHunk : Hunk.announcedBy (Line.content line) = false) :
      SectionMove dialect cuts draft line lines (.header pairSeen) (.handBack draft)
  | payloadBoundary
      (starts : dialect.startsSection (line :: lines) = true) :
      SectionMove dialect cuts draft line lines .payload (.handBack draft)
  | payloadLine
      (stays : dialect.startsSection (line :: lines) = false) :
      SectionMove dialect cuts draft line lines .payload
        (.one (.reading (draft.append line) .payload))
  | marker {left : Remaining} {kind : BodyKind}
      (uncut : cuts left (line :: lines) = false)
      (body : BodyLine.ofContent? (Line.content line) = some .marker) :
      SectionMove dialect cuts draft line lines (.hunk left (some kind))
        (.one (.reading ((draft.markUnended kind).append line) (.hunk left (some kind))))
  | change {left after : Remaining} {last : Option BodyKind} {kind : BodyKind}
      (uncut : cuts left (line :: lines) = false)
      (body : BodyLine.ofContent? (Line.content line) = some (.change kind))
      (fits : left.take? kind = some after) :
      SectionMove dialect cuts draft line lines (.hunk left last)
        (.one (.reading ((draft.count kind).append line) (.inHunk after (some kind))))
  | lateMarker {kind : BodyKind}
      (marks : (Line.content line).head? = some Bytes.backslash) :
      SectionMove dialect cuts draft line lines (.between (some kind))
        (.one (.reading ((draft.markUnended kind).append line) (.between none)))
  | nextHunk {last : Option BodyKind} {hunk : Hunk}
      (announced : Hunk.announcedBy (Line.content line) = true)
      (opens : Hunk.ofHeader? (Line.content line) = some hunk) :
      SectionMove dialect cuts draft line lines (.between last)
        (.one (.reading ((draft.pushHunk hunk).append line)
          (.inHunk (Remaining.ofHunk hunk) none)))
  | afterHunks {last : Option BodyKind}
      (unmarked : last = none ∨ (Line.content line).head? ≠ some Bytes.backslash)
      (notHunk : Hunk.announcedBy (Line.content line) = false) :
      SectionMove dialect cuts draft line lines (.between last) (.handBack draft)

/-! ## Every success is in the list -/

section Complete

variable {dialect : Dialect} {cuts : CutRule} {draft : Draft} {line : Bytes} {lines : List Bytes}
  {move : Move}

theorem atLine_eq_ok_iff {α : Type} {line : Nat} {checked : Except Fault α} {value : α} :
    atLine line checked = .ok value ↔ checked = .ok value := by
  cases checked <;> simp [atLine]

theorem startHunk_eq_ok (started : Dialect.startHunk draft line = .ok move) :
    ∃ hunk, Hunk.ofHeader? (Line.content line) = some hunk ∧
      move = .one (.reading ((draft.pushHunk hunk).append line)
        (.inHunk (Remaining.ofHunk hunk) none)) := by
  unfold Dialect.startHunk at started
  split at started
  · cases started
  · rename_i hunk opens
    cases started
    exact ⟨hunk, opens, rfl⟩

theorem nextHunk_eq_ok (stepped : Dialect.nextHunk draft line = .ok move) :
    (Hunk.announcedBy (Line.content line) = true ∧ Dialect.startHunk draft line = .ok move) ∨
      (Hunk.announcedBy (Line.content line) = false ∧ move = .handBack draft) := by
  unfold Dialect.nextHunk at stepped
  split at stepped
  · rename_i announced
    exact .inl ⟨announced, stepped⟩
  · rename_i unannounced
    cases stepped
    exact .inr ⟨by simpa using unannounced, rfl⟩

theorem SectionMove.of_readPair {orig : Bytes}
    (stays : dialect.startsSection (line :: lines) = false)
    (plain : dialect.binaryNotice? (Line.content line) = none)
    (noHeader : dialect.readHeader (Line.content line) draft.toFileFacts = .ok none)
    (origLine : Bytes.after? Dialect.origHead (Line.content line) = some orig)
    (stepped : dialect.readPair draft orig line lines = .ok move) :
    SectionMove dialect cuts draft line lines (.header false) move := by
  unfold Dialect.readPair at stepped
  split at stepped
  · cases stepped
  · rename_i next later
    split at stepped
    · cases stepped
    · rename_i new newLine
      cases stepped
      exact .pair stays plain noHeader origLine rfl newLine

theorem SectionMove.of_readPairOrHunk {pairSeen : Bool}
    (stays : dialect.startsSection (line :: lines) = false)
    (plain : dialect.binaryNotice? (Line.content line) = none)
    (noHeader : pairSeen = false →
      dialect.readHeader (Line.content line) draft.toFileFacts = .ok none)
    (stepped : dialect.readPairOrHunk draft pairSeen line lines = .ok move) :
    SectionMove dialect cuts draft line lines (.header pairSeen) move := by
  unfold Dialect.readPairOrHunk at stepped
  dsimp only at stepped
  split at stepped
  · rename_i orig origLine
    cases pairSeen with
    | true => cases stepped
    | false => exact .of_readPair stays plain (noHeader rfl) origLine stepped
  · rename_i notOrig
    split at stepped
    · cases stepped
    · rename_i notNew
      have notNew := Bool.eq_false_iff.2 notNew
      split at stepped
      · rename_i announced
        cases pairSeen with
        | false => cases stepped
        | true =>
            obtain ⟨hunk, opens, rfl⟩ := startHunk_eq_ok stepped
            exact .firstHunk stays plain notOrig notNew announced opens
      · rename_i unannounced
        cases stepped
        exact .text stays plain noHeader notOrig notNew (Bool.eq_false_iff.2 unannounced)

theorem SectionMove.of_headerStep {pairSeen : Bool}
    (stepped : dialect.headerStep draft pairSeen line lines = .ok move) :
    SectionMove dialect cuts draft line lines (.header pairSeen) move := by
  unfold Dialect.headerStep at stepped
  dsimp only at stepped
  split at stepped
  · rename_i starts
    cases stepped
    exact .headerBoundary starts
  · rename_i stays
    have stays := Bool.eq_false_iff.2 stays
    split at stepped
    · rename_i notice marked
      cases stepped
      cases notice with
      | summary => exact .summary stays marked
      | patch => exact .patch stays marked
    · rename_i plain
      cases pairSeen with
      | true => exact .of_readPairOrHunk stays plain (by simp) stepped
      | false =>
          simp only [Bool.false_eq_true, if_false] at stepped
          split at stepped
          · cases stepped
          · rename_i facts header
            cases stepped
            exact .extended stays plain header
          · rename_i noHeader
            exact .of_readPairOrHunk stays plain (fun _ => noHeader) stepped

theorem SectionMove.of_hunkStep {left : Remaining} {last : Option BodyKind}
    (uncut : cuts left (line :: lines) = false)
    (stepped : Dialect.hunkStep draft left last line = .ok move) :
    SectionMove dialect cuts draft line lines (.hunk left last) move := by
  unfold Dialect.hunkStep at stepped
  dsimp only at stepped
  split at stepped
  · cases stepped
  · rename_i body
    cases last with
    | none => cases stepped
    | some kind =>
        cases stepped
        exact .marker uncut body
  · rename_i kind body
    split at stepped
    · cases stepped
    · rename_i after fits
      cases stepped
      exact .change uncut body fits

theorem SectionMove.of_betweenStep {last : Option BodyKind}
    (stepped : Dialect.betweenStep draft last line = .ok move) :
    SectionMove dialect cuts draft line lines (.between last) move := by
  have next : ∀ {last : Option BodyKind}
      (_ : last = none ∨ (Line.content line).head? ≠ some Bytes.backslash),
      Dialect.nextHunk draft line = .ok move →
        SectionMove dialect cuts draft line lines (.between last) move := by
    intro last unmarked stepped
    rcases nextHunk_eq_ok stepped with ⟨announced, started⟩ | ⟨notHunk, rfl⟩
    · obtain ⟨hunk, opens, rfl⟩ := startHunk_eq_ok started
      exact .nextHunk announced opens
    · exact .afterHunks unmarked notHunk
  unfold Dialect.betweenStep at stepped
  cases last with
  | none => exact next (.inl rfl) stepped
  | some kind =>
      dsimp only at stepped
      split at stepped
      · rename_i marks
        cases stepped
        exact .lateMarker marks
      · rename_i unmarked
        exact next (.inr unmarked) stepped

theorem SectionMove.of_sectionStep {passed : Nat} {place : Place}
    (stepped : dialect.sectionStep cuts passed draft place line lines = .ok move) :
    SectionMove dialect cuts draft line lines place move := by
  cases place with
  | header pairSeen => exact .of_headerStep (atLine_eq_ok_iff.1 stepped)
  | payload =>
      cases stepped
      unfold Dialect.payloadStep
      split
      · rename_i starts
        exact .payloadBoundary starts
      · rename_i stays
        exact .payloadLine (Bool.eq_false_iff.2 stays)
  | hunk left last =>
      unfold Dialect.sectionStep at stepped
      dsimp only at stepped
      split at stepped
      · cases stepped
      · rename_i uncut
        exact .of_hunkStep (Bool.eq_false_iff.2 uncut) (atLine_eq_ok_iff.1 stepped)
  | between last => exact .of_betweenStep (atLine_eq_ok_iff.1 stepped)

/-! ## Everything in the list happens -/

/-- A line that announces a hunk is no marker. -/
theorem head?_ne_backslash (announced : Hunk.announcedBy (Line.content line) = true) :
    (Line.content line).head? ≠ some Bytes.backslash := by
  obtain ⟨rest, content⟩ := Bytes.startsWith_iff.1 announced
  rw [content]
  show some (64 : UInt8) ≠ some Bytes.backslash
  decide

theorem startHunk_of_opens {hunk : Hunk} (opens : Hunk.ofHeader? (Line.content line) = some hunk) :
    Dialect.startHunk draft line = .ok (.one (.reading ((draft.pushHunk hunk).append line)
      (.inHunk (Remaining.ofHunk hunk) none))) := by
  simp only [Dialect.startHunk, opens, Place.inHunk]

theorem SectionMove.sectionStep {place : Place}
    (moves : SectionMove dialect cuts draft line lines place move) (passed : Nat) :
    dialect.sectionStep cuts passed draft place line lines = .ok move := by
  cases moves with
  | headerBoundary starts | payloadBoundary starts =>
      simp [Dialect.sectionStep, Dialect.headerStep, Dialect.payloadStep, starts, atLine]
  | summary stays notice | patch stays notice =>
      simp [Dialect.sectionStep, Dialect.headerStep, stays, notice, atLine, Draft.markBinary]
  | extended stays plain header =>
      simp [Dialect.sectionStep, Dialect.headerStep, stays, plain, header, atLine,
        Draft.withFacts]
  | pair stays plain noHeader origLine ahead newLine =>
      subst ahead
      simp [Dialect.sectionStep, Dialect.headerStep, stays, plain, noHeader,
        Dialect.readPairOrHunk, origLine, Dialect.readPair, newLine, atLine, Draft.withFacts,
        Dialect.addPair]
  | firstHunk stays plain notOrig notNew announced opens =>
      simp [Dialect.sectionStep, Dialect.headerStep, stays, plain, Dialect.readPairOrHunk,
        notOrig, notNew, announced, startHunk_of_opens opens, atLine]
  | text stays plain noHeader notOrig notNew notHunk =>
      rename_i pairSeen
      cases pairSeen with
      | true =>
          simp [Dialect.sectionStep, Dialect.headerStep, stays, plain, Dialect.readPairOrHunk,
            notOrig, notNew, notHunk, atLine]
      | false =>
          simp [Dialect.sectionStep, Dialect.headerStep, stays, plain, noHeader,
            Dialect.readPairOrHunk, notOrig, notNew, notHunk, atLine]
  | payloadLine stays => simp [Dialect.sectionStep, Dialect.payloadStep, stays]
  | marker uncut body => simp [Dialect.sectionStep, uncut, Dialect.hunkStep, body, atLine]
  | change uncut body fits =>
      simp [Dialect.sectionStep, uncut, Dialect.hunkStep, body, fits, atLine, Place.inHunk]
  | lateMarker marks => simp [Dialect.sectionStep, Dialect.betweenStep, marks, atLine]
  | @nextHunk last hunk announced opens =>
      have unmarked := head?_ne_backslash announced
      cases last <;>
        simp [Dialect.sectionStep, Dialect.betweenStep, unmarked, Dialect.nextHunk, announced,
          startHunk_of_opens opens, atLine]
  | @afterHunks last unmarked notHunk =>
      cases last <;>
        simp_all [Dialect.sectionStep, Dialect.betweenStep, Dialect.nextHunk, atLine]

/-- **The moves of a section are exactly those of the list.** -/
theorem sectionStep_eq_ok_iff {passed : Nat} {place : Place} :
    dialect.sectionStep cuts passed draft place line lines = .ok move ↔
      SectionMove dialect cuts draft line lines place move :=
  ⟨.of_sectionStep, fun moves => moves.sectionStep passed⟩

/-! ## The rule of cutting counts in open hunks only -/

theorem sectionStep_congr {cuts' : CutRule} {passed : Nat} {place : Place}
    (same : ∀ left last, place = .hunk left last →
      cuts left (line :: lines) = cuts' left (line :: lines)) :
    dialect.sectionStep cuts passed draft place line lines =
      dialect.sectionStep cuts' passed draft place line lines := by
  cases place with
  | hunk left last => simp only [Dialect.sectionStep, same left last rfl]
  | header | payload | between => rfl

theorem SectionMove.uncut {left : Remaining} {last : Option BodyKind}
    (moves : SectionMove dialect cuts draft line lines (.hunk left last) move) :
    cuts left (line :: lines) = false := by
  cases moves <;> assumption

/-- A move is also made under another rule, unless that one cuts the hunk here. -/
theorem SectionMove.of_uncut {cuts' : CutRule} {place : Place}
    (moves : SectionMove dialect cuts draft line lines place move)
    (uncut : ∀ left last, place = .hunk left last → cuts' left (line :: lines) = false) :
    SectionMove dialect cuts' draft line lines place move := by
  have same : ∀ left last, place = .hunk left last →
      cuts left (line :: lines) = cuts' left (line :: lines) := by
    rintro left last rfl
    rw [moves.uncut, uncut left last rfl]
  have stepped := moves.sectionStep 0
  rw [sectionStep_congr same] at stepped
  exact .of_sectionStep stepped

end Complete

end DiffSections
