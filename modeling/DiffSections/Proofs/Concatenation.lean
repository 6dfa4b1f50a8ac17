import DiffSections.Proofs.Reader.Continues
import DiffSections.Proofs.Reader.Extension
import DiffSections.Proofs.SectionStarts
import Mathlib.Data.List.ModifyLast

/-!
# DiffSections.Proofs.Concatenation -- one diff after another

A diff that is put after another one, and starts with a boundary, is read as if it stood alone. The
lines before a boundary are read the same with it and without it (`Reader.Reaches.append`): no
lookahead gets past it, and the reader comes to it between two sections (`Dialect.reaches_seam`).
From there on it goes on as one that starts there. So the records of both are those of each, but for
the text between the last section of the first diff and the boundary, which changes from the end of
that section to the start of the next preamble (`Dialect.parse_append`).
-/

namespace DiffSections

set_option autoImplicit false

/-! ## The seam -/

/-- The text after the last section. -/
def ReaderState.trailing : ReaderState → Bytes
  | .seeking _ pending => pending.reverse.flatten
  | .reading _ _ => []

/-- The record with a text at the end of its section. -/
def FileRecord.followed (record : FileRecord) (text : Bytes) : FileRecord :=
  { record with body := record.body ++ text }

theorem Draft.close_append (draft : Draft) (piece : Bytes) :
    (draft.append piece).close = draft.close.followed piece := by
  simp only [close, FileRecord.followed, text_append]
  rfl

namespace Dialect

/-- The text after the last section of a diff; all of it, if it has none. -/
def trailing (dialect : Dialect) (data : Bytes) : Bytes :=
  match (Reader.ofLines (Line.split data)).run dialect dialect.cutRule with
  | .error _ => []
  | .ok final => final.state.trailing

/-- The reading of a diff goes through, though it may be that no section is found. -/
def ReadsThrough (dialect : Dialect) (data : Bytes) (records : List FileRecord) : Prop :=
  dialect.parse data = .ok records ∨
    records = [] ∧ ∃ error, dialect.parse data = .error error ∧ error.fault.kind = .notRecognized

variable {dialect : Dialect} {first : Bytes} {records : List FileRecord} {boundary : List Bytes}

theorem trailing_eq {final : Reader}
    (reaches : Reader.Reaches dialect dialect.cutRule (Reader.ofLines (Line.split first)) final)
    (nothing : final.ahead = []) : dialect.trailing first = final.state.trailing := by
  rw [trailing, Reader.run_eq_ok_iff.2 ⟨reaches, nothing⟩]

/-- A reader that gets through is in a section but in no hunk, or in the text after one, or has
found none. -/
theorem ReadsThrough.exists_final (through : dialect.ReadsThrough first records) :
    ∃ final, Reader.Reaches dialect dialect.cutRule (Reader.ofLines (Line.split first)) final ∧
      final.ahead = [] ∧
      ((∃ draft place, final.state = .reading draft place ∧ (∀ left last, place ≠ .hunk left last) ∧
        records = final.closed.reverse ++ [draft.close]) ∨
      (∃ draft pending, final.state = .seeking (some draft) pending ∧
        records = final.closed.reverse ++ [(draft.append pending.reverse.flatten).close]) ∨
      (∃ pending, final.state = .seeking none pending ∧ records = [])) := by
  rcases through with parsed | ⟨rfl, error, failed, unrecognized⟩
  · obtain ⟨final, reaches, nothing, closes⟩ := parseWith_eq_ok_iff.1 parsed
    refine ⟨final, reaches, nothing, (Reader.close_eq_ok closes).imp_right (.imp_right ?_)⟩
    rintro ⟨pending, seeking, -, rfl⟩
    exact ⟨pending, seeking, by simp [reaches.closed_eq_nil seeking]⟩
  · obtain ⟨-, final, pending, reaches, nothing, seeking, -⟩ :=
      exists_of_notRecognized failed unrecognized
    exact ⟨final, reaches, nothing, .inr (.inr ⟨pending, seeking, rfl⟩)⟩

/-- **The reader comes to the second diff between two sections**, with the records of the first one
and the text after them. -/
theorem reaches_seam (through : dialect.ReadsThrough first records)
    (starts : dialect.startsSection boundary = true) :
    ∃ closed previous pending,
      Reader.Reaches dialect dialect.cutRule (Reader.ofLines (Line.split first ++ boundary))
        ⟨closed, .seeking previous pending, (Line.split first).length, boundary⟩ ∧
      pending.reverse.flatten = dialect.trailing first ∧
      records = ((previous.map Draft.close).toList ++ closed).reverse.modifyLast
        (·.followed (dialect.trailing first)) ∧
      (records = [] → dialect.trailing first = first) := by
  obtain ⟨final, reaches, nothing, ends⟩ := through.exists_final
  have passed : final.passed = (Line.split first).length := by
    simpa [nothing] using reaches.passed_add_length
  have joined : Reader.Reaches dialect dialect.cutRule
      (Reader.ofLines (Line.split first ++ boundary)) (final.append boundary) := by
    refine reaches.append fun reader next stepped _ => ?_
    obtain ⟨line, lines, ahead⟩ := stepped.exists_cons
    rw [ahead]
    exact startsSection_append line lines starts
  have trailing := trailing_eq reaches nothing
  rw [trailing]
  obtain ⟨closed, state, count, ahead⟩ := final
  dsimp only at nothing passed ends joined ⊢
  subst nothing passed
  rcases ends with ⟨draft, place, rfl, notHunk, rfl⟩ | ⟨draft, pending, rfl, rfl⟩ |
    ⟨pending, rfl, rfl⟩
  -- Inside a section the boundary is handed back, and no text comes before it.
  · obtain ⟨line, lines, rfl⟩ := exists_cons_of_startsSection starts
    refine ⟨closed, some draft, [], joined.tail (.inside (.boundary starts notHunk)), rfl, ?_, ?_⟩
    · simp [ReaderState.trailing, List.modifyLast_concat, FileRecord.followed]
    · simp
  · refine ⟨closed, some draft, pending, joined, rfl, ?_, by simp⟩
    simp [ReaderState.trailing, List.modifyLast_concat, Draft.close_append]
  · obtain rfl : closed = [] := reaches.closed_eq_nil rfl
    refine ⟨[], none, pending, joined, rfl, rfl, fun _ => ?_⟩
    rw [ReaderState.trailing, (quiet_of_seeking reaches rfl rfl).1, Line.flatten_split]

end Dialect

/-! ## Both diffs -/

theorem length_modifyLast {α : Type} (change : α → α) (items : List α) :
    (items.modifyLast change).length = items.length := by
  rcases List.eq_nil_or_concat items with rfl | ⟨early, last, rfl⟩
  · rfl
  · simp [List.modifyLast_concat]

theorem map_modifyLast {α β : Type} {shown : α → β} {change : α → α}
    (same : ∀ item, shown (change item) = shown item) (items : List α) :
    (items.modifyLast change).map shown = items.map shown := by
  rcases List.eq_nil_or_concat items with rfl | ⟨early, last, rfl⟩
  · rfl
  · simp [List.modifyLast_concat, same]

namespace Dialect

variable {dialect : Dialect} {first later : Bytes} {records : List FileRecord}

/-- What starts with a boundary is recognized. -/
theorem recognized_of_startsSection (starts : dialect.startsSection (Line.split later) = true)
    {error : ParseError} (failed : dialect.parse later = .error error) :
    error.fault.kind ≠ .notRecognized := by
  intro unrecognized
  obtain ⟨rfl, -⟩ := exists_of_notRecognized failed unrecognized
  have quiet := (parse_eq_noSection_iff.1 failed).2 0
  rw [List.drop_zero, starts] at quiet
  cases quiet

/-- **Diffs that are put one after the other are read one after the other.** Let the first one end
in LF and be read, or have no section, and the second one start with a boundary. The second is
refused behind the first one as it is alone, only so many lines later. If it is read, the records of
both are those of the first and those of the second, but for the text after the last section of the
first: it is no longer the end of that section, but the start of the next preamble. -/
theorem parse_append (ended : first = [] ∨ first.getLast? = some Bytes.lf)
    (through : dialect.ReadsThrough first records)
    (starts : dialect.startsSection (Line.split later) = true) :
    (records = [] → dialect.trailing first = first) ∧
    (∀ error, dialect.parse later = .error error →
      dialect.parse (first ++ later) = .error (error.later (Line.split first).length) ∧
      (error.later (Line.split first).length).diagnostic =
        { error.diagnostic with line := error.diagnostic.line + (Line.split first).length }) ∧
    (∀ found, dialect.parse later = .ok found → ∃ earlier record others,
      earlier.length = records.length ∧
      records = earlier.modifyLast (·.followed (dialect.trailing first)) ∧
      found = record :: others ∧
      dialect.parse (first ++ later) =
        .ok (earlier ++ record.preceded (dialect.trailing first) :: others)) := by
  obtain ⟨closed, previous, pending, reaches, isTrailing, shown, all⟩ := reaches_seam through starts
  have fate := Reader.sameFate_of_startsSection dialect.cutRule starts closed previous pending
    (Line.split first).length
  rw [isTrailing] at fate
  obtain ⟨fails, succeeds⟩ := fate.close dialect
  have joined : dialect.parse (first ++ later) =
      (Reader.run dialect dialect.cutRule
        ⟨closed, .seeking previous pending, (Line.split first).length, Line.split later⟩).bind
          (Reader.close dialect) := by
    rw [parse, parseWith_eq_bind, Line.split_append _ _ ended, reaches.run_eq]
  rw [joined]
  refine ⟨all, fun error failed => ⟨?_, ?_⟩, fun found parsed => ?_⟩
  · rw [parse, parseWith_eq_bind] at failed
    exact fails error failed
  · exact ParseError.diagnostic_later _ (recognized_of_startsSection starts failed)
  · rw [parse, parseWith_eq_bind] at parsed
    obtain ⟨record, others, rfl, answer⟩ := succeeds found parsed
    exact ⟨_, record, others, by rw [shown, length_modifyLast], shown, rfl, answer⟩

/-- The text after a section of the first diff, which ends in a marker, becomes a preamble. -/
theorem parse_append_note :
    let first := Bytes.ofAscii
      "--- a\n+++ b\n@@ -1 +1 @@\n-p\n+q\n\\ No newline at end of file\nnote\n"
    let later := Bytes.ofAscii "--- c\n+++ d\n@@ -0,0 +1 @@\n+z\n"
    Dialect.unified.trailing first = Bytes.ofAscii "note\n" ∧
    ∃ records found, Dialect.unified.parse first = .ok records ∧ records.length = 1 ∧
      Dialect.unified.parse later = .ok found ∧ found.length = 1 ∧
      ∃ earlier record others, earlier.length = records.length ∧
        records = earlier.modifyLast (·.followed (Dialect.unified.trailing first)) ∧
        found = record :: others ∧
        Dialect.unified.parse (first ++ later) =
          .ok (earlier ++ record.preceded (Dialect.unified.trailing first) :: others) := by
  intro first later
  obtain ⟨records, parsed, one⟩ := exists_parse_of_length .unified first 1 (by decide +kernel)
  obtain ⟨found, parsedLater, oneLater⟩ :=
    exists_parse_of_length .unified later 1 (by decide +kernel)
  have starts : Dialect.unified.startsSection (Line.split later) = true := by decide +kernel
  have joined := parse_append (.inr (by decide +kernel)) (.inl parsed) starts
  exact ⟨by decide +kernel, records, found, parsed, one, parsedLater, oneLater,
    joined.2.2 found parsedLater⟩

end Dialect

end DiffSections
