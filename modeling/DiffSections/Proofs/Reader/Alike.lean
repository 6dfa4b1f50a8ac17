import DiffSections.Proofs.Reader.Runs
import Mathlib.Data.List.Forall2

/-!
# DiffSections.Proofs.Reader.Alike -- lines and drafts that a reader cannot tell apart

Of the lines ahead a reader looks at the contents only (`Line.ReadsAs`), and of a draft at its facts
only; a draft is changed by a handful of operations. A relation of drafts with the same facts that
each of these operations keeps, beside a relation of lines that read as the same, is a
`Draft.Congruence`. It is kept by all that happens inside a section: at related drafts and lines a
step fails for the same reason, or makes the same move with related drafts
(`Dialect.sectionStep_alike`). What two readers share is proved with such a relation, one for what
may differ between their lines and sections.
-/

namespace DiffSections

set_option autoImplicit false

/-! ## Lines that read as the same -/

/-- The same is matched of both lines. -/
abbrev Line.ReadsAs (line line' : Bytes) : Prop := content line' = content line

section Contents

variable {dialect : Dialect} {lines lines' : List Bytes}

theorem Dialect.startsSection_of_readsAs (same : List.Forall₂ Line.ReadsAs lines lines') :
    dialect.startsSection lines' = dialect.startsSection lines := by
  cases same with
  | nil => rfl
  | cons first later =>
      cases later with
      | nil => cases dialect <;> simp only [startsSection, first]
      | cons second later => cases dialect <;> simp only [startsSection, first, second]

theorem Dialect.open?_of_readsAs (same : List.Forall₂ Line.ReadsAs lines lines') :
    dialect.open? lines' = dialect.open? lines := by
  cases same with
  | nil => rfl
  | cons first later =>
      cases later with
      | nil => cases dialect <;> simp only [open?, first]
      | cons second later => cases dialect <;> simp only [open?, first, second]

theorem completesHunk_of_readsAs (same : List.Forall₂ Line.ReadsAs lines lines')
    (left : Remaining) : completesHunk left lines' = completesHunk left lines := by
  induction same generalizing left with
  | nil => rfl
  | cons first later ih => simp only [completesHunk, first, ih]

theorem Dialect.cutRule_of_readsAs (same : List.Forall₂ Line.ReadsAs lines lines')
    (left : Remaining) : dialect.cutRule left lines' = dialect.cutRule left lines := by
  rw [cutRule, startsSection_of_readsAs same, completesHunk_of_readsAs same, cutRule]

end Contents

/-! ## Drafts that read as the same -/

/-- A relation of lines that read as the same, and one of drafts with the same facts, that the
operations of a reader keep. -/
structure Draft.Congruence (L : Bytes → Bytes → Prop) (R : Draft → Draft → Prop) : Prop where
  readsAs : ∀ {line line' : Bytes}, L line line' → Line.ReadsAs line line'
  facts : ∀ {draft draft' : Draft}, R draft draft' → draft'.toFileFacts = draft.toFileFacts
  append : ∀ {draft draft' : Draft} {line line' : Bytes}, L line line' → R draft draft' →
    R (draft.append line) (draft'.append line')
  withFacts : ∀ {draft draft' : Draft} (facts : FileFacts), R draft draft' →
    R (draft.withFacts facts) (draft'.withFacts facts)
  markBinary : ∀ {draft draft' : Draft}, R draft draft' → R draft.markBinary draft'.markBinary
  pushHunk : ∀ {draft draft' : Draft} (hunk : Hunk), R draft draft' →
    R (draft.pushHunk hunk) (draft'.pushHunk hunk)
  count : ∀ {draft draft' : Draft} (kind : BodyKind), R draft draft' →
    R (draft.count kind) (draft'.count kind)
  markUnended : ∀ {draft draft' : Draft} (kind : BodyKind), R draft draft' →
    R (draft.markUnended kind) (draft'.markUnended kind)

/-- The lines that are pending are related, and so are the sections in hand. -/
inductive ReaderState.Alike (L : Bytes → Bytes → Prop) (R : Draft → Draft → Prop) :
    ReaderState → ReaderState → Prop where
  | seeking {previous previous' : Option Draft} {pending pending' : List Bytes}
      (waiting : List.Forall₂ L pending pending') (related : Option.Rel R previous previous') :
      Alike L R (.seeking previous pending) (.seeking previous' pending')
  | reading {draft draft' : Draft} (place : Place) (related : R draft draft') :
      Alike L R (.reading draft place) (.reading draft' place)

/-- As many lines are taken, and the states are alike. -/
inductive Move.Alike (L : Bytes → Bytes → Prop) (R : Draft → Draft → Prop) :
    Move → Move → Prop where
  | one {state state' : ReaderState} (alike : state.Alike L R state') :
      Alike L R (.one state) (.one state')
  | two {state state' : ReaderState} (alike : state.Alike L R state') :
      Alike L R (.two state) (.two state')
  | handBack {draft draft' : Draft} (related : R draft draft') :
      Alike L R (.handBack draft) (.handBack draft')

/-- The same fault, or moves that are alike. -/
inductive SameOutcome {α : Type} (L : Bytes → Bytes → Prop) (R : Draft → Draft → Prop) :
    Except α Move → Except α Move → Prop where
  | error (cause : α) : SameOutcome L R (.error cause) (.error cause)
  | ok {move move' : Move} (alike : move.Alike L R move') :
      SameOutcome L R (.ok move) (.ok move')

section Outcomes

variable {L : Bytes → Bytes → Prop} {R : Draft → Draft → Prop} {move move' : Move}

theorem Move.Alike.state (alike : move.Alike L R move') : move.state.Alike L R move'.state := by
  cases alike with
  | one alike | two alike => exact alike
  | handBack related => exact .seeking .nil (.some related)

theorem Move.Alike.lineCount (alike : move.Alike L R move') : move'.lineCount = move.lineCount := by
  cases alike <;> rfl

theorem SameOutcome.eq_error {α : Type} {cause : α} {checked : Except α Move}
    (same : SameOutcome L R (.error cause) checked) :
    checked = .error cause := by
  cases same
  rfl

theorem SameOutcome.eq_ok {α : Type} {checked : Except α Move}
    (same : SameOutcome L R (.ok move) checked) :
    ∃ move', checked = .ok move' ∧ move.Alike L R move' := by
  cases same with
  | ok alike => exact ⟨_, rfl, alike⟩

theorem SameOutcome.atLine {checked checked' : Except Fault Move}
    (same : SameOutcome L R checked checked') (line : Nat) :
    SameOutcome L R (atLine line checked) (atLine line checked') := by
  cases same with
  | error fault => exact .error _
  | ok alike => exact .ok alike

end Outcomes

namespace Dialect

variable {L : Bytes → Bytes → Prop} {R : Draft → Draft → Prop} {dialect : Dialect}
  {draft draft' : Draft} {line line' : Bytes} {lines lines' : List Bytes}

theorem startHunk_alike (congruence : Draft.Congruence L R) (related : R draft draft')
    (same : L line line') : SameOutcome L R (startHunk draft line) (startHunk draft' line') := by
  unfold startHunk
  rw [congruence.readsAs same]
  split
  · exact .error _
  · exact .ok (.one (.reading _ (congruence.append same (congruence.pushHunk _ related))))

theorem nextHunk_alike (congruence : Draft.Congruence L R) (related : R draft draft')
    (same : L line line') : SameOutcome L R (nextHunk draft line) (nextHunk draft' line') := by
  unfold nextHunk
  rw [congruence.readsAs same]
  split
  · exact startHunk_alike congruence related same
  · exact .ok (.handBack related)

theorem readPair_alike (congruence : Draft.Congruence L R) (related : R draft draft')
    (orig : Bytes) (same : L line line') (sameLater : List.Forall₂ L lines lines') :
    SameOutcome L R (dialect.readPair draft orig line lines)
      (dialect.readPair draft' orig line' lines') := by
  unfold readPair
  cases sameLater with
  | nil => exact .error _
  | cons sameNext _ =>
      dsimp only
      rw [congruence.readsAs sameNext]
      split
      · exact .error _
      · rw [congruence.facts related]
        exact .ok (.two (.reading _
          (congruence.append sameNext (congruence.append same (congruence.withFacts _ related)))))

theorem readPairOrHunk_alike (congruence : Draft.Congruence L R) (related : R draft draft')
    (pairSeen : Bool) (same : L line line') (sameLater : List.Forall₂ L lines lines') :
    SameOutcome L R (dialect.readPairOrHunk draft pairSeen line lines)
      (dialect.readPairOrHunk draft' pairSeen line' lines') := by
  unfold readPairOrHunk
  dsimp only
  rw [congruence.readsAs same]
  split
  · split
    · exact .error _
    · exact readPair_alike congruence related _ same sameLater
  · split
    · exact .error _
    · split
      · split
        · exact startHunk_alike congruence related same
        · exact .error _
      · exact .ok (.handBack related)

/-- Lines that are related one by one start a section all the same. -/
theorem startsSection_alike (congruence : Draft.Congruence L R)
    (sameLines : List.Forall₂ L lines lines') :
    dialect.startsSection lines' = dialect.startsSection lines :=
  startsSection_of_readsAs (sameLines.imp fun _ _ => congruence.readsAs)

theorem headerStep_alike (congruence : Draft.Congruence L R) (related : R draft draft')
    (pairSeen : Bool) (same : L line line') (sameLater : List.Forall₂ L lines lines') :
    SameOutcome L R (dialect.headerStep draft pairSeen line lines)
      (dialect.headerStep draft' pairSeen line' lines') := by
  unfold headerStep
  dsimp only
  rw [congruence.readsAs same, startsSection_alike congruence (.cons same sameLater)]
  split
  · exact .ok (.handBack related)
  · split
    · rename_i notice _
      have marked := congruence.append same (congruence.markBinary related)
      cases notice with
      | summary => exact .ok (.one (.seeking .nil (.some marked)))
      | patch => exact .ok (.one (.reading _ marked))
    · split
      · exact readPairOrHunk_alike congruence related pairSeen same sameLater
      · rw [congruence.facts related]
        split
        · exact .error _
        · exact .ok (.one (.reading _ (congruence.append same (congruence.withFacts _ related))))
        · exact readPairOrHunk_alike congruence related pairSeen same sameLater

theorem payloadStep_alike (congruence : Draft.Congruence L R) (related : R draft draft')
    (same : L line line') (sameLater : List.Forall₂ L lines lines') :
    (dialect.payloadStep draft line lines).Alike L R
      (dialect.payloadStep draft' line' lines') := by
  unfold payloadStep
  rw [startsSection_alike congruence (.cons same sameLater)]
  split
  · exact .handBack related
  · exact .one (.reading _ (congruence.append same related))

theorem hunkStep_alike (congruence : Draft.Congruence L R) (related : R draft draft')
    (left : Remaining) (last : Option BodyKind) (same : L line line') :
    SameOutcome L R (hunkStep draft left last line) (hunkStep draft' left last line') := by
  unfold hunkStep
  dsimp only
  rw [congruence.readsAs same]
  split
  · exact .error _
  · split
    · exact .error _
    · exact .ok (.one (.reading _ (congruence.append same (congruence.markUnended _ related))))
  · split
    · exact .error _
    · exact .ok (.one (.reading _ (congruence.append same (congruence.count _ related))))

theorem betweenStep_alike (congruence : Draft.Congruence L R) (related : R draft draft')
    (last : Option BodyKind) (same : L line line') :
    SameOutcome L R (betweenStep draft last line) (betweenStep draft' last line') := by
  unfold betweenStep
  split
  · exact nextHunk_alike congruence related same
  · rw [congruence.readsAs same]
    split
    · exact .ok (.one (.reading _ (congruence.append same (congruence.markUnended _ related))))
    · exact nextHunk_alike congruence related same

variable (dialect) in
/-- **A step inside a section keeps drafts alike.** It fails for the same reason at both, or makes
the same move. -/
theorem sectionStep_alike (congruence : Draft.Congruence L R) (related : R draft draft')
    {cuts : CutRule} (passed : Nat) (place : Place) (same : L line line')
    (sameLater : List.Forall₂ L lines lines')
    (sameCut : ∀ left, cuts left (line' :: lines') = cuts left (line :: lines)) :
    SameOutcome L R (dialect.sectionStep cuts passed draft place line lines)
      (dialect.sectionStep cuts passed draft' place line' lines') := by
  cases place with
  | header pairSeen =>
      exact (headerStep_alike congruence related pairSeen same sameLater).atLine _
  | payload => exact .ok (payloadStep_alike congruence related same sameLater)
  | hunk left last =>
      unfold sectionStep
      dsimp only
      rw [sameCut]
      split
      · exact .error _
      · exact (hunkStep_alike congruence related left last same).atLine _
  | between last => exact (betweenStep_alike congruence related last same).atLine _

end Dialect

/-- Each move of a section is also made at a related draft. -/
theorem SectionMove.alike {R : Draft → Draft → Prop} {dialect : Dialect} {cuts : CutRule}
    {draft draft' : Draft} {line : Bytes} {lines : List Bytes} {place : Place} {move : Move}
    (congruence : Draft.Congruence Eq R) (related : R draft draft')
    (moves : SectionMove dialect cuts draft line lines place move) :
    ∃ move', SectionMove dialect cuts draft' line lines place move' ∧ move.Alike Eq R move' := by
  have outcome := Dialect.sectionStep_alike dialect congruence related 0 place rfl
    (List.forall₂_refl lines) fun left => (rfl : cuts left (line :: lines) = _)
  rw [moves.sectionStep 0] at outcome
  obtain ⟨move', made, alike⟩ := outcome.eq_ok
  exact ⟨move', .of_sectionStep made, alike⟩

end DiffSections
