import DiffSections.Proofs.Reader.Faults
import DiffSections.Proofs.Reader.Locality
import DiffSections.Proofs.Reader.Sections

/-!
# DiffSections.Proofs.Reader.Extension -- the same lines, with more after them

More lines at the end of the input change what the reader does only where they make a boundary of
the line at hand. They do not if they start with a boundary themselves
(`Dialect.startsSection_append`), if the line at hand is not the last one, or in the git dialect
(`Dialect.startsSection_append_of_inner`). A step that is taken before such lines is taken with them
(`Reader.Step.append`), and one that finds the line at hand at fault finds the same fault
(`Reader.step_append_eq_error`). The lookahead does not stand in the way: what completes a hunk
still does.
-/

namespace DiffSections

set_option autoImplicit false

theorem completesHunk_append {left : Remaining} {lines : List Bytes} (more : List Bytes)
    (completes : completesHunk left lines = true) : completesHunk left (lines ++ more) = true := by
  induction lines generalizing left with
  | nil => cases completes
  | cons line lines ih =>
      rw [List.cons_append]
      unfold completesHunk at completes ⊢
      split at completes
      · cases completes
      · exact ih completes
      · split at completes
        · cases completes
        · simp only [Bool.or_eq_true] at completes ⊢
          exact completes.imp_right ih

/-- A boundary of the git dialect is no line of a hunk. -/
theorem completesHunk_of_startsSection_git {left : Remaining} {lines : List Bytes}
    (starts : Dialect.git.startsSection lines = true) : completesHunk left lines = false := by
  obtain ⟨line, later, rfl⟩ := Dialect.exists_cons_of_startsSection starts
  obtain ⟨rest, content⟩ := Bytes.startsWith_iff.1 starts
  have noBody : BodyLine.ofContent? (Line.content line) = none := by
    rw [content]
    rfl
  simp [completesHunk, noBody]

namespace Dialect

variable {dialect : Dialect} {line : Bytes} {lines lines' more : List Bytes} {left : Remaining}

/-- Whether a line starts a section is settled by the next one, and in the git dialect by itself. -/
theorem startsSection_append_of_inner {ahead : List Bytes} (more : List Bytes)
    (inner : 2 ≤ ahead.length ∨ dialect = .git ∧ ahead ≠ []) :
    dialect.startsSection (ahead ++ more) = dialect.startsSection ahead := by
  rcases inner with two | ⟨rfl, some⟩
  · match ahead, two with
    | line :: next :: later, _ => exact startsSection_congr rfl
  · match ahead, some with
    | line :: later, _ => rfl

/-- What does not end a hunk does not end it with more lines after it. -/
theorem cutRule_append
    (same : dialect.startsSection (line :: lines ++ more) = dialect.startsSection (line :: lines))
    (uncut : dialect.cutRule left (line :: lines) = false) :
    dialect.cutRule left (line :: lines ++ more) = false := by
  simp only [cutRule, Bool.and_eq_false_imp, Bool.not_eq_false'] at uncut ⊢
  intro starts
  rw [same] at starts
  exact completesHunk_append more (uncut starts)

/-- A step inside a section looks at the lines after the one at hand to see if a section starts, to
read the second line of a pair, and to see if a hunk is cut. -/
theorem sectionStep_of_lines {cuts : CutRule} {passed : Nat} {draft : Draft} {place : Place}
    (starts : dialect.startsSection (line :: lines') = dialect.startsSection (line :: lines))
    (next : lines'.head? = lines.head?)
    (cut : ∀ left last, place = .hunk left last →
      cuts left (line :: lines') = cuts left (line :: lines)) :
    dialect.sectionStep cuts passed draft place line lines' =
      dialect.sectionStep cuts passed draft place line lines := by
  have pair : ∀ orig, dialect.readPair draft orig line lines' =
      dialect.readPair draft orig line lines := by
    intro orig
    cases lines <;> cases lines' <;> cases next <;> rfl
  cases place with
  | header pairSeen =>
      simp only [sectionStep, headerStep, readPairOrHunk, starts, pair]
  | payload => simp only [sectionStep, payloadStep, starts]
  | hunk left last => simp only [sectionStep, cut left last rfl]
  | between last => rfl

end Dialect

theorem SectionMove.append {dialect : Dialect} {draft : Draft} {line : Bytes}
    {lines more : List Bytes} {place : Place} {move : Move}
    (same : dialect.startsSection (line :: lines ++ more) = dialect.startsSection (line :: lines))
    (moves : SectionMove dialect dialect.cutRule draft line lines place move) :
    SectionMove dialect dialect.cutRule draft line (lines ++ more) place move := by
  refine moves.of_lines (fun _ => same) ?_ ?_
  · rintro state rfl
    obtain ⟨next, later, rfl⟩ := moves.exists_next
    rfl
  · rintro left last rfl
    exact Dialect.cutRule_append same moves.uncut

namespace Reader

/-- The reader with more lines at the end of the input. -/
def append (reader : Reader) (more : List Bytes) : Reader :=
  { reader with ahead := reader.ahead ++ more }

variable {dialect : Dialect} {more : List Bytes} {reader before after : Reader}

theorem Step.append
    (same : dialect.startsSection (before.ahead ++ more) = dialect.startsSection before.ahead)
    (stepped : Step dialect dialect.cutRule before after) :
    Step dialect dialect.cutRule (before.append more) (after.append more) := by
  cases stepped with
  | skip closedSection =>
      refine .skip ?_
      rw [Dialect.open?_eq_none_iff] at closedSection ⊢
      rw [← closedSection]
      exact same
  | @start closed previous pending passed line lines opening opens =>
      obtain ⟨lead, rest, ahead, counted, opens⟩ := Dialect.exists_boundary_of_opens opens
      simp only [Reader.append, Reader.start, take, ahead, ← counted, List.take_left,
        List.drop_left, List.append_assoc]
      exact .start_append dialect.cutRule closed previous pending passed counted
        (opens (rest ++ more))
  | @inside closed draft place passed line lines move moves =>
      have appended := moves.append same
      cases move with
      | handBack | one => exact .inside appended
      | two =>
          obtain ⟨next, later, rfl⟩ := moves.exists_next
          exact .inside appended

/-- **The same steps are taken with more lines at the end**, if these make no boundary of a line
that is taken on the way. -/
theorem Reaches.append (reaches : Reaches dialect dialect.cutRule before after)
    (same : ∀ reader next, Step dialect dialect.cutRule reader next →
      Reaches dialect dialect.cutRule next after →
      dialect.startsSection (reader.ahead ++ more) = dialect.startsSection reader.ahead) :
    Reaches dialect dialect.cutRule (before.append more) (after.append more) := by
  induction reaches using Relation.ReflTransGen.head_induction_on with
  | refl => exact .refl
  | head stepped rest ih => exact .head (stepped.append (same _ _ stepped rest)) ih

/-- They are taken if two lines are left, so that the reader never looked past the end. -/
theorem Reaches.append_of_inner (reaches : Reaches dialect dialect.cutRule before after)
    (inner : 2 ≤ after.ahead.length ∨ dialect = .git) (more : List Bytes) :
    Reaches dialect dialect.cutRule (before.append more) (after.append more) := by
  refine reaches.append fun reader next stepped rest => ?_
  refine Dialect.startsSection_append_of_inner more (inner.imp (fun two => ?_) fun git => ?_)
  · have left := Reaches.ahead_length_le (.head stepped rest)
    omega
  · obtain ⟨line, lines, ahead⟩ := stepped.exists_cons
    exact ⟨git, by simp [ahead]⟩

/-- **A fault in the line at hand is found with more lines at the end too**, if it is not the last
line. -/
theorem step_append_eq_error {line : Bytes} {lines : List Bytes} {error : ParseError}
    (failed : reader.step dialect dialect.cutRule line lines = .error error)
    (malformed : error.fault.Malformed) (inner : lines ≠ []) :
    (reader.append more).step dialect dialect.cutRule line (lines ++ more) = .error error := by
  obtain ⟨next, later, rfl⟩ := List.exists_cons_of_ne_nil inner
  have same : dialect.startsSection (line :: next :: later ++ more) =
      dialect.startsSection (line :: next :: later) :=
    Dialect.startsSection_append_of_inner more (.inl (by simp))
  obtain ⟨closed, state, passed, ahead⟩ := reader
  cases state with
  | seeking previous pending =>
      have opens : dialect.open? (line :: (next :: later ++ more)) =
          dialect.open? (line :: next :: later) := Dialect.open?_congr rfl
      simp only [Reader.step, Reader.append] at failed ⊢
      rw [opens]
      cases opened : dialect.open? (line :: next :: later) with
      | error fault => simpa [opened] using failed
      | ok opening => cases opening <;> simp [opened] at failed
  | reading draft place =>
      have uncut : ∀ left last, place = .hunk left last →
          dialect.cutRule left (line :: next :: later) = false := by
        rintro left last rfl
        refine Bool.eq_false_iff.2 fun cut => malformed.kind_ne.2 ?_
        simp only [Reader.step, Dialect.sectionStep, cut, if_true] at failed
        cases failed
        rfl
      have steps : dialect.sectionStep dialect.cutRule passed draft place line
          (next :: later ++ more) =
            dialect.sectionStep dialect.cutRule passed draft place line (next :: later) := by
        refine Dialect.sectionStep_of_lines same rfl fun left last inHunk => ?_
        rw [uncut left last inHunk]
        exact Dialect.cutRule_append same (uncut left last inHunk)
      simp only [Reader.step, Reader.append, steps] at failed ⊢
      split at failed
      · exact failed
      · cases failed

/-- A boundary of the git dialect cuts an open hunk, whatever comes after it. -/
theorem step_append_of_cut_git {draft : Draft} {left : Remaining} {last : Option BodyKind}
    {line : Bytes} {lines : List Bytes} (inHunk : reader.state = .reading draft (.hunk left last))
    (cut : Dialect.git.cutRule left (line :: lines) = true) :
    (reader.append more).step .git Dialect.git.cutRule line (lines ++ more) =
      .error ⟨.truncated left, reader.passed⟩ := by
  have starts : Dialect.git.startsSection (line :: (lines ++ more)) = true := by
    simp only [Dialect.cutRule, Bool.and_eq_true] at cut
    exact cut.1
  have cut' : Dialect.git.cutRule left (line :: (lines ++ more)) = true := by
    simp [Dialect.cutRule, starts, completesHunk_of_startsSection_git starts]
  simp [Reader.step, Reader.append, inHunk, Dialect.sectionStep, cut']

end Reader

end DiffSections
