import DiffSections.Proofs.Dialect
import DiffSections.Proofs.Reader.Runs
import Mathlib.Control.Monad.Basic

/-!
# DiffSections.Proofs.Lookahead -- looking ahead inside a hunk only chooses the error

In a hunk that owes lines the reader looks ahead at each boundary, and stops there unless the lines
from it on complete the hunk (`Dialect.cutRule`). The plain reader takes every line at face value
(`CutRule.never`). What the lookahead computes is what the plain reader would find: one that gets to
the end of the input has completed the hunk on the way (`completesHunk_of_reaches`). So both read
the same diffs into the same records, and where the lookahead stops the reader no record was to
come.
-/

namespace DiffSections

set_option autoImplicit false

/-- The rule of a reader that does not look ahead. -/
def CutRule.never : CutRule := fun _ _ => false

namespace Reader

variable {dialect : Dialect} {cuts : CutRule} {reader before after final : Reader}

/-- A step is also taken under another rule, unless that one cuts a hunk here. -/
theorem Step.of_uncut {cuts' : CutRule} (stepped : Step dialect cuts before after)
    (uncut : ∀ draft left last, before.state = .reading draft (.hunk left last) →
      cuts' left before.ahead = false) :
    Step dialect cuts' before after := by
  cases stepped with
  | skip closedSection => exact .skip closedSection
  | start opens => exact .start opens
  | inside moves =>
      refine .inside (moves.of_uncut fun left last inHunk => ?_)
      subst inHunk
      exact uncut _ left last rfl

/-! ## What the lookahead computes -/

/-- A plain reader that can close at the end of the input completes the hunk it is in. -/
theorem completesHunk_of_reaches {records : List FileRecord}
    (reaches : Reaches dialect .never reader final)
    (closes : final.close dialect = .ok records) :
    ∀ draft left last, reader.state = .reading draft (.hunk left last) →
      completesHunk left reader.ahead = true := by
  -- From the end of the input back: what the rest completes, it completes with one line more.
  induction reaches using Relation.ReflTransGen.head_induction_on with
  | refl =>
      intro draft left last inHunk
      simp [close, inHunk] at closes
  | head stepped _ ih =>
      intro draft left last inHunk
      cases stepped with
      | skip | start => cases inHunk
      | inside moves =>
          cases inHunk
          cases moves with
          | marker _ body =>
              have later := ih _ left _ rfl
              simpa [completesHunk, body] using later
          | @change _ owed _ kind _ body fits =>
              cases complete : owed.isDone with
              | true => simp [completesHunk, body, fits, complete]
              | false =>
                  have inHunk : Place.inHunk owed (some kind) = .hunk owed (some kind) := by
                    simp [Place.inHunk, complete]
                  have later := ih _ owed (some kind) (by rw [move_one, state_take, inHunk])
                  simpa [completesHunk, body, fits, complete] using later

/-- A plain reader that can close at the end of the input is nowhere cut off by the lookahead. -/
theorem Reaches.looking {records : List FileRecord}
    (reaches : Reaches dialect .never reader final)
    (closes : final.close dialect = .ok records) :
    Reaches dialect dialect.cutRule reader final := by
  induction reaches using Relation.ReflTransGen.head_induction_on with
  | refl => exact .refl
  | head stepped rest ih =>
      refine .head (stepped.of_uncut fun draft left last inHunk => ?_) ih
      have completes := completesHunk_of_reaches (.head stepped rest) closes
        draft left last inHunk
      simp [Dialect.cutRule, completes]

/-- A reader that looks ahead takes no step that a plain one does not take. -/
theorem Reaches.plain (reaches : Reaches dialect cuts before after) :
    Reaches dialect .never before after := by
  induction reaches with
  | refl => exact .refl
  | tail _ stepped ih => exact ih.tail (stepped.of_uncut fun _ _ _ _ => rfl)

end Reader

/-- Looking ahead inside hunks, or not, the same diffs are read into the same records. -/
theorem Dialect.parse_eq_ok_iff_plain {dialect : Dialect} {data : Bytes}
    {records : List FileRecord} :
    dialect.parse data = .ok records ↔ dialect.parseWith .never data = .ok records := by
  unfold Dialect.parse
  rw [Dialect.parseWith_eq_ok_iff, Dialect.parseWith_eq_ok_iff]
  constructor
  · rintro ⟨final, reaches, nothing, closes⟩
    exact ⟨final, reaches.plain, nothing, closes⟩
  · rintro ⟨final, reaches, nothing, closes⟩
    exact ⟨final, reaches.looking closes, nothing, closes⟩

/-! ## Where the lookahead stops the reader -/

namespace Reader

/-- The reader is in a hunk that owes `left`, and the lookahead says that it ends here. -/
def CutOff (dialect : Dialect) (reader : Reader) (left : Remaining) : Prop :=
  ∃ draft last, reader.state = .reading draft (.hunk left last) ∧
    dialect.cutRule left reader.ahead = true

variable {dialect : Dialect} {cuts : CutRule} {reader : Reader} {left : Remaining}

theorem CutOff.startsSection (cutOff : CutOff dialect reader left) :
    dialect.startsSection reader.ahead = true := by
  obtain ⟨draft, last, -, cuts⟩ := cutOff
  simp only [Dialect.cutRule, Bool.and_eq_true] at cuts
  exact cuts.1

theorem CutOff.run_eq (cutOff : CutOff dialect reader left) :
    reader.run dialect dialect.cutRule = .error ⟨.truncated left, reader.passed⟩ := by
  obtain ⟨line, lines, ahead⟩ := Dialect.exists_cons_of_startsSection cutOff.startsSection
  obtain ⟨draft, last, inHunk, cuts⟩ := cutOff
  rw [run_cons ahead]
  rw [ahead] at cuts
  simp [step, inHunk, Dialect.sectionStep, cuts]

theorem step_eq_plain {line : Bytes} {lines : List Bytes} (ahead : reader.ahead = line :: lines)
    (uncut : ∀ left, ¬ CutOff dialect reader left) :
    reader.step dialect dialect.cutRule line lines = reader.step dialect .never line lines := by
  unfold step
  cases inside : reader.state with
  | seeking previous pending => rfl
  | reading draft place =>
      have same : ∀ left last, place = .hunk left last →
          dialect.cutRule left (line :: lines) = CutRule.never left (line :: lines) := by
        rintro left last rfl
        rw [← ahead]
        exact Bool.eq_false_iff.2 fun cuts => uncut left ⟨draft, last, inside, cuts⟩
      simp only [sectionStep_congr same]

/-- A reader that the lookahead never cuts off goes the way of the plain one. -/
theorem run_eq_plain
    (uncut : ∀ later left, Reaches dialect dialect.cutRule reader later →
      ¬ CutOff dialect later left) :
    reader.run dialect dialect.cutRule = reader.run dialect .never := by
  fun_induction run dialect dialect.cutRule reader with
  | case1 reader nothing => rw [run_nil nothing]
  | case2 reader line lines ahead error stepped =>
      rw [step_eq_plain ahead (uncut reader · .refl)] at stepped
      rw [run_cons ahead, stepped]
  | case3 reader line lines ahead next stepped ih =>
      have first : Step dialect dialect.cutRule reader next := (step_eq_ok_iff ahead).1 stepped
      rw [step_eq_plain ahead (uncut reader · .refl)] at stepped
      rw [run_cons ahead, stepped]
      exact ih fun later left reaches => uncut later left (.head first reaches)

end Reader

/-- **Looking ahead inside hunks only chooses the error.** The same diffs are read into the same
records without it. Where it stops the reader, the diff is truncated at the line before a boundary,
and the plain reader fails too; where it never does, both give the same answer. -/
theorem Dialect.lookahead_only_chooses_error (dialect : Dialect) (data : Bytes) :
    (∀ records, dialect.parse data = .ok records ↔ dialect.parseWith .never data = .ok records) ∧
    (∀ reader left,
      Reader.Reaches dialect dialect.cutRule (Reader.ofLines (Line.split data)) reader →
      Reader.CutOff dialect reader left →
        dialect.parse data = .error ⟨.truncated left, reader.passed⟩ ∧ 0 < reader.passed ∧
        dialect.startsSection ((Line.split data).drop reader.passed) = true ∧
        ∃ error, dialect.parseWith .never data = .error error) ∧
    ((∀ reader left,
      Reader.Reaches dialect dialect.cutRule (Reader.ofLines (Line.split data)) reader →
      ¬ Reader.CutOff dialect reader left) →
        dialect.parse data = dialect.parseWith .never data) := by
  refine ⟨fun _ => Dialect.parse_eq_ok_iff_plain, fun reader left reaches cutOff => ?_,
    fun uncut => ?_⟩
  · have stopped : dialect.parse data = .error ⟨.truncated left, reader.passed⟩ := by
      simp only [Dialect.parse, Dialect.parseWith, reaches.run_eq, cutOff.run_eq]
    refine ⟨stopped, ?_, ?_, ?_⟩
    · obtain ⟨draft, last, inHunk, -⟩ := cutOff
      exact reaches.passed_pos inHunk
    · rw [← reaches.ahead_eq_drop]
      exact cutOff.startsSection
    · cases plain : dialect.parseWith .never data with
      | error error => exact ⟨error, rfl⟩
      | ok records =>
          rw [Dialect.parse_eq_ok_iff_plain.2 plain] at stopped
          cases stopped
  · simp only [Dialect.parse, Dialect.parseWith, Reader.run_eq_plain uncut]

/-- A hunk that breaks off before the next section is cut off there, and refused three lines later
by the plain reader. A hunk whose body looks like a section is not cut off. -/
theorem Dialect.lookahead_only_chooses_error_broken_off :
    let brokenOff := Bytes.ofAscii
      "--- a\n+++ b\n@@ -1,3 +1,3 @@\n x\n--- c\n+++ d\n@@ -1 +1 @@\n-p\n+q\n"
    let lookalike := Bytes.ofAscii "--- a\n+++ b\n@@ -1 +1 @@\n--- c\n+++ d\n"
    (∃ reader,
      Reader.Reaches .unified Dialect.unified.cutRule (Reader.ofLines (Line.split brokenOff))
        reader ∧
      Reader.CutOff .unified reader ⟨2, 2⟩ ∧ reader.passed = 4 ∧
      Dialect.unified.parse brokenOff = .error ⟨.truncated ⟨2, 2⟩, 4⟩ ∧
      Dialect.unified.startsSection ((Line.split brokenOff).drop 4) = true ∧
      Dialect.unified.parseWith .never brokenOff =
        .error ⟨.bodyLine (Bytes.ofAscii "@@ -1 +1 @@"), 7⟩) ∧
    Dialect.unified.startsSection ((Line.split lookalike).drop 3) = true ∧
    (∃ records, Dialect.unified.parse lookalike = .ok records ∧
      Dialect.unified.parseWith .never lookalike = .ok records ∧
      ∀ reader left,
        Reader.Reaches .unified Dialect.unified.cutRule (Reader.ofLines (Line.split lookalike))
          reader → ¬ Reader.CutOff .unified reader left) := by
  intro brokenOff lookalike
  refine ⟨?_, by decide +kernel, ?_⟩
  · obtain ⟨-, stops, same⟩ := lookahead_only_chooses_error .unified brokenOff
    have truncated : Dialect.unified.parse brokenOff = .error ⟨.truncated ⟨2, 2⟩, 4⟩ := by
      decide +kernel
    have plain : Dialect.unified.parseWith .never brokenOff =
        .error ⟨.bodyLine (Bytes.ofAscii "@@ -1 +1 @@"), 7⟩ := by
      decide +kernel
    -- The answers differ, so the lookahead stops a reader.
    obtain ⟨reader, left, reaches, cutOff⟩ : ∃ reader left,
        Reader.Reaches .unified Dialect.unified.cutRule (Reader.ofLines (Line.split brokenOff))
          reader ∧ Reader.CutOff .unified reader left := by
      by_contra none
      simp only [not_exists, not_and] at none
      have answers := same none
      rw [truncated, plain] at answers
      cases answers
    obtain ⟨stopped, -, starts, -⟩ := stops reader left reaches cutOff
    rw [truncated, Except.error.injEq, ParseError.mk.injEq, Fault.truncated.injEq] at stopped
    obtain ⟨rfl, passed⟩ := stopped
    rw [← passed] at starts
    exact ⟨reader, reaches, cutOff, passed.symm, truncated, starts, plain⟩
  · obtain ⟨agree, stops, -⟩ := lookahead_only_chooses_error .unified lookalike
    obtain ⟨records, parsed, -⟩ :=
      Dialect.unified.exists_parse_of_length lookalike 1 (by decide +kernel)
    refine ⟨records, parsed, (agree records).1 parsed, ?_⟩
    intro reader left reaches cutOff
    obtain ⟨stopped, -⟩ := stops reader left reaches cutOff
    rw [parsed] at stopped
    cases stopped

end DiffSections
