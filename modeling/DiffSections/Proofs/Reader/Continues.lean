import DiffSections.Proofs.Dialect
import DiffSections.Proofs.Reader.Alike
import DiffSections.Proofs.Reader.Faults

/-!
# DiffSections.Proofs.Reader.Continues -- a reader that comes from another diff

Two readers stand at the same boundary, one at the start of its input and one between two sections
of a longer one. They go on side by side (`Reader.Continues`). All that the second one has over the
first are the sections that it has closed, the lines that it has counted, and the text that was
pending, which goes in front of the preamble of the section that starts here. So it fails for the
same reason, so many lines later, or closes with the same records behind those it has
(`Reader.SameFate.close`).
-/

namespace DiffSections

set_option autoImplicit false

/-! ## What a step knows of the lines before -/

def ParseError.later (error : ParseError) (count : Nat) : ParseError :=
  { error with line := error.line + count }

theorem ParseError.diagnostic_later {error : ParseError} (count : Nat)
    (recognized : error.fault.kind ≠ .notRecognized) :
    (error.later count).diagnostic =
      { error.diagnostic with line := error.diagnostic.line + count } := by
  simp [diagnostic, later, Diagnostic.of, recognized]

theorem ParseError.later_number (fault : Fault) (passed count : Nat) :
    (ParseError.mk fault (Line.number passed)).later count =
      ⟨fault, Line.number (passed + count)⟩ := by
  simp [later, Line.number, Nat.add_right_comm]

theorem atLine_later {α : Type} (passed count : Nat) (checked : Except Fault α) :
    atLine (Line.number (passed + count)) checked =
      (atLine (Line.number passed) checked).mapError (·.later count) := by
  cases checked with
  | ok value => rfl
  | error fault => exact congrArg _ (ParseError.later_number fault passed count).symm

/-- A step inside a section knows nothing of the lines before but their number. -/
theorem Dialect.sectionStep_later (dialect : Dialect) (cuts : CutRule) (passed count : Nat)
    (draft : Draft) (place : Place) (line : Bytes) (lines : List Bytes) :
    dialect.sectionStep cuts (passed + count) draft place line lines =
      (dialect.sectionStep cuts passed draft place line lines).mapError (·.later count) := by
  cases place with
  | header | between => exact atLine_later passed count _
  | payload => rfl
  | hunk left last =>
      simp only [sectionStep]
      split
      · rfl
      · exact atLine_later passed count _

/-! ## A text in front of the preamble -/

/-- The record with a text in front of its preamble. -/
def FileRecord.preceded (record : FileRecord) (text : Bytes) : FileRecord :=
  { record with preamble := text ++ record.preamble }

namespace Draft

/-- The draft with a text in front of its preamble. -/
def preceded (draft : Draft) (text : Bytes) : Draft :=
  { draft with preamble := some (text ++ draft.preamble.getD []) }

@[simp] theorem preceded_append (draft : Draft) (text piece : Bytes) :
    (draft.preceded text).append piece = (draft.append piece).preceded text := rfl

@[simp] theorem close_preceded (draft : Draft) (text : Bytes) :
    (draft.preceded text).close = draft.close.preceded text := rfl

theorem preceded_mapOpenHunk (draft : Draft) (text : Bytes) (change : Hunk → Hunk) :
    (draft.preceded text).mapOpenHunk change = (draft.mapOpenHunk change).preceded text := by
  obtain ⟨facts, hunks, insertions, deletions, preamble, pieces⟩ := draft
  cases hunks <;> rfl

theorem preceded_count (draft : Draft) (text : Bytes) (kind : BodyKind) :
    (draft.preceded text).count kind = (draft.count kind).preceded text := by
  cases kind <;> simp only [count, preceded_mapOpenHunk] <;> rfl

theorem congruence_preceded (text : Bytes) :
    Congruence Eq fun draft draft' => draft' = draft.preceded text where
  readsAs sameLine := by rw [sameLine]
  facts same := by rw [same]; rfl
  append sameLine same := by rw [sameLine, same]; rfl
  withFacts facts same := by rw [same]; rfl
  markBinary same := by rw [same]; rfl
  pushHunk hunk same := by rw [same]; rfl
  count kind same := by rw [same, preceded_count]
  markUnended kind same := by rw [same, markUnended, preceded_mapOpenHunk]; rfl

/-- The text that is pending at a boundary goes in front of the preamble. -/
theorem startDraft_preceded (opening : Opening) (pending lines : List Bytes) :
    Reader.startDraft opening pending lines =
      (Reader.startDraft opening [] lines).preceded pending.reverse.flatten := by
  rw [Reader.startDraft_eq, Reader.startDraft_eq]
  simp [preceded]

end Draft

theorem SectionMove.inHand_ne_none {dialect : Dialect} {cuts : CutRule} {draft : Draft}
    {line : Bytes} {lines : List Bytes} {place : Place} {move : Move}
    (moves : SectionMove dialect cuts draft line lines place move) : move.state.inHand ≠ none := by
  cases moves <;> simp [Move.state]

namespace Reader

/-! ## Side by side -/

/-- The closed sections and the state of two readers, of which one has closed `older` before the
other began, and has put `text` in front of the first preamble since. -/
inductive SideBySide (older : List FileRecord) (text : Bytes) :
    List FileRecord → ReaderState → List FileRecord → ReaderState → Prop where
  | first {state state' : ReaderState}
      (alike : state.Alike Eq (fun draft draft' => draft' = draft.preceded text) state') :
      SideBySide older text [] state older state'
  | later (closed : List FileRecord) (record : FileRecord) (state : ReaderState) :
      SideBySide older text (closed ++ [record]) state (closed ++ record.preceded text :: older)
        state

/-- The second reader is where the first one is, `count` lines later. -/
structure Continues (older : List FileRecord) (text : Bytes) (count : Nat)
    (reader reader' : Reader) : Prop where
  found : reader.state.inHand ≠ none
  passed : reader'.passed = reader.passed + count
  ahead : reader'.ahead = reader.ahead
  sections : SideBySide older text reader.closed reader.state reader'.closed reader'.state

/-- Both fail, `count` lines apart, or both go on. -/
inductive SameFate (older : List FileRecord) (text : Bytes) (count : Nat) :
    Except ParseError Reader → Except ParseError Reader → Prop where
  | error (error : ParseError) :
      SameFate older text count (.error error) (.error (error.later count))
  | ok {reader reader' : Reader} (continues : Continues older text count reader reader') :
      SameFate older text count (.ok reader) (.ok reader')

variable {dialect : Dialect} {cuts : CutRule} {older : List FileRecord} {text : Bytes} {count : Nat}
  {reader reader' : Reader} {outcome : Except ParseError Reader}

theorem SameFate.eq_error {error : ParseError}
    (fate : SameFate older text count (.error error) outcome) :
    outcome = .error (error.later count) := by
  cases fate
  rfl

theorem SameFate.eq_ok (fate : SameFate older text count (.ok reader) outcome) :
    ∃ reader', outcome = .ok reader' ∧ Continues older text count reader reader' := by
  cases fate with
  | ok continues => exact ⟨_, rfl, continues⟩

theorem Continues.move {move move' : Move} (passed : reader'.passed = reader.passed + count)
    (ahead : reader'.ahead = reader.ahead) (same : move'.lineCount = move.lineCount)
    (found : move.state.inHand ≠ none)
    (sections : SideBySide older text reader.closed move.state reader'.closed move'.state) :
    Continues older text count (reader.move move) (reader'.move move') := by
  refine ⟨by simpa using found, ?_, ?_, by simpa using sections⟩
  · rw [passed_move, passed_move, passed, same, Nat.add_right_comm]
  · rw [ahead_move, ahead_move, ahead, same]

/-- Between sections both pass over the line, or find the same fault, or close the section that
they have in hand and start the same one. -/
theorem SameFate.seeking {closed closed' : List FileRecord} {previous previous' : Option Draft}
    {pending : List Bytes} {passed : Nat} {line : Bytes} {lines : List Bytes}
    (found : previous ≠ none)
    (skipped : SideBySide older text closed (.seeking previous (line :: pending)) closed'
      (.seeking previous' (line :: pending)))
    (started : ∀ state, SideBySide older text ((previous.map Draft.close).toList ++ closed) state
      ((previous'.map Draft.close).toList ++ closed') state) :
    SameFate older text count
      (Reader.step dialect cuts ⟨closed, .seeking previous pending, passed, line :: lines⟩ line
        lines)
      (Reader.step dialect cuts ⟨closed', .seeking previous' pending, passed + count, line :: lines⟩
        line lines) := by
  simp only [Reader.step]
  cases opened : dialect.open? (line :: lines) with
  | error fault =>
      dsimp only
      rw [← ParseError.later_number]
      exact .error _
  | ok opening =>
      cases opening with
      | none => exact .ok ⟨found, Nat.add_right_comm passed count 1, rfl, skipped⟩
      | some opening =>
          exact .ok ⟨by simp [Reader.start], Nat.add_right_comm passed count opening.lineCount, rfl,
            started _⟩

variable (dialect cuts) in
/-- **Both readers make the same step.** -/
theorem Continues.sameFate_step {line : Bytes} {lines : List Bytes}
    (continues : Continues older text count reader reader')
    (ahead : reader.ahead = line :: lines) :
    SameFate older text count (reader.step dialect cuts line lines)
      (reader'.step dialect cuts line lines) := by
  obtain ⟨closed, state, passed, ahead⟩ := reader
  obtain ⟨closed', state', passed', ahead'⟩ := reader'
  obtain ⟨found, counted, same, sections⟩ := continues
  dsimp only at found counted same sections ahead
  subst counted same ahead
  cases sections with
  | first alike =>
      cases alike with
      | seeking waiting related =>
          rw [List.forall₂_eq_eq_eq] at waiting
          subst waiting
          -- A start closes the first section, and nothing else tells the readers apart after it.
          cases related with
          | none => exact absurd rfl found
          | @some draft draft' related =>
              subst related
              exact .seeking found (.first (.seeking (List.forall₂_refl _) (.some rfl)))
                (.later [] draft.close)
      | @reading draft draft' place related =>
          cases made : dialect.sectionStep cuts passed draft place line lines with
          | error error =>
              have outcome := Dialect.sectionStep_alike dialect (Draft.congruence_preceded text)
                related passed place rfl (List.forall₂_refl lines)
                fun left => (rfl : cuts left (line :: lines) = _)
              rw [made] at outcome
              simp only [Reader.step, made, Dialect.sectionStep_later, outcome.eq_error]
              exact .error error
          | ok move =>
              have moves := SectionMove.of_sectionStep made
              obtain ⟨move', moves', alike⟩ := moves.alike (Draft.congruence_preceded text) related
              simp only [Reader.step, made, moves'.sectionStep]
              exact .ok (.move rfl rfl alike.lineCount moves.inHand_ne_none (.first alike.state))
  | later closed record =>
      cases state with
      | seeking previous pending =>
          refine .seeking found (.later closed record _) fun state => ?_
          rw [← List.append_assoc, ← List.append_assoc]
          exact .later _ record state
      | reading draft place =>
          cases made : dialect.sectionStep cuts passed draft place line lines with
          | error error =>
              simp only [Reader.step, made, Dialect.sectionStep_later]
              exact .error error
          | ok move =>
              have moves := SectionMove.of_sectionStep made
              simp only [Reader.step, made, moves.sectionStep]
              exact .ok (.move rfl rfl rfl moves.inHand_ne_none (.later closed record _))

/-- **Both readers come to the same end.** -/
theorem Continues.sameFate_run (continues : Continues older text count reader reader') :
    SameFate older text count (reader.run dialect cuts) (reader'.run dialect cuts) := by
  fun_induction run dialect cuts reader generalizing reader' with
  | case1 reader nothing =>
      rw [run_nil (continues.ahead.trans nothing)]
      exact .ok continues
  | case2 reader line lines ahead error failed =>
      have fate := continues.sameFate_step dialect cuts ahead
      rw [failed] at fate
      rw [run_cons (continues.ahead.trans ahead), fate.eq_error]
      exact .error error
  | case3 reader line lines ahead next stepped ih =>
      have fate := continues.sameFate_step dialect cuts ahead
      rw [stepped] at fate
      obtain ⟨next', stepped', continues'⟩ := fate.eq_ok
      rw [run_cons (continues.ahead.trans ahead), stepped']
      exact ih continues'

/-- **Both readers close alike**: the second one with the older records before those of the first,
and with the text in front of the next preamble. -/
theorem Continues.close (continues : Continues older text count reader reader') :
    (∀ error, reader.close dialect = .error error →
      reader'.close dialect = .error (error.later count)) ∧
    (∀ records, reader.close dialect = .ok records → ∃ first later, records = first :: later ∧
      reader'.close dialect = .ok (older.reverse ++ first.preceded text :: later)) := by
  obtain ⟨closed, state, passed, ahead⟩ := reader
  obtain ⟨closed', state', passed', ahead'⟩ := reader'
  obtain ⟨found, counted, same, sections⟩ := continues
  dsimp only at found counted same sections
  subst counted same
  refine ⟨fun error failed => ?_, fun records closes => ?_⟩
  · rcases close_eq_error failed with ⟨draft, left, last, rfl, rfl⟩ | ⟨pending, rfl, -, -⟩
    · cases sections with
      | first alike => cases alike; rfl
      | later => rfl
    · exact absurd rfl found
  · rcases close_eq_ok closes with ⟨draft, place, rfl, notHunk, rfl⟩ | ⟨draft, pending, rfl, rfl⟩ |
      ⟨pending, rfl, -⟩
    · cases sections with
      | first alike =>
          cases alike with
          | reading _ related =>
              refine ⟨draft.close, [], rfl, ?_⟩
              simp [close_reading notHunk, related]
      | later closed record =>
          refine ⟨record, closed.reverse ++ [draft.close], by simp, ?_⟩
          simp [close_reading notHunk]
    · cases sections with
      | first alike =>
          cases alike with
          | seeking waiting related =>
              rw [List.forall₂_eq_eq_eq] at waiting
              subst waiting
              cases related with
              | some related =>
                  refine ⟨_, [], rfl, ?_⟩
                  simp [Reader.close, related]
      | later closed record =>
          exact ⟨record, closed.reverse ++ [(draft.append pending.reverse.flatten).close], by simp,
            by simp [Reader.close]⟩
    · exact absurd rfl found

variable (dialect) in
/-- So they come to the same answer. -/
theorem SameFate.close {outcome' : Except ParseError Reader}
    (fate : SameFate older text count outcome outcome') :
    (∀ error, outcome.bind (Reader.close dialect) = .error error →
      outcome'.bind (Reader.close dialect) = .error (error.later count)) ∧
    (∀ records, outcome.bind (Reader.close dialect) = .ok records →
      ∃ first later, records = first :: later ∧ outcome'.bind (Reader.close dialect) =
        .ok (older.reverse ++ first.preceded text :: later)) := by
  cases fate with
  | error error =>
      refine ⟨fun _ failed => ?_, fun _ => nofun⟩
      cases failed
      rfl
  | ok continues => exact continues.close

/-- At a boundary, a reader that comes from another diff goes on as one that starts there. -/
theorem sameFate_of_startsSection {boundary : List Bytes} (cuts : CutRule)
    (starts : dialect.startsSection boundary = true) (closed : List FileRecord)
    (previous : Option Draft) (pending : List Bytes) (count : Nat) :
    SameFate ((previous.map Draft.close).toList ++ closed) pending.reverse.flatten count
      ((ofLines boundary).run dialect cuts)
      (Reader.run dialect cuts ⟨closed, .seeking previous pending, count, boundary⟩) := by
  obtain ⟨line, lines, rfl⟩ := Dialect.exists_cons_of_startsSection starts
  have opens := (Dialect.open?_ne_none_iff dialect _).2 starts
  rw [run_cons rfl, run_cons rfl]
  simp only [Reader.step, ofLines]
  cases opened : dialect.open? (line :: lines) with
  | error fault =>
      have same := ParseError.later_number fault 0 count
      rw [Nat.zero_add] at same
      dsimp only
      rw [← same]
      exact .error _
  | ok opening =>
      cases opening with
      | none => exact absurd opened opens
      | some opening =>
          refine Continues.sameFate_run ⟨by simp [Reader.start], ?_, rfl, .first (.reading _ ?_)⟩
          · exact (Nat.add_comm _ _).trans (congrArg (· + count) (Nat.zero_add _).symm)
          · exact Draft.startDraft_preceded opening pending _

end Reader

end DiffSections
