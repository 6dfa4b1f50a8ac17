import DiffSections.Proofs.Reader.Runs

/-!
# DiffSections.Proofs.Reader.Faults -- what a reader can find fault with, and where

Each line is found at fault as a header or as a line of a hunk, and an open hunk as cut short
(`Reader.step_eq_error`). That no section was found is said at the end of the input only, of the
input as a whole, and then no section is in hand (`Reader.close_eq_error`). So a diff is refused at
a line where the reader stops or at its end (`Dialect.parseWith_eq_error`), and an input that is not
recognized is one that the reader got through (`Dialect.exists_of_notRecognized`).
-/

namespace DiffSections

set_option autoImplicit false

namespace Header

theorem kind_of_read {line : Bytes} {fault : Fault} (failed : read line = .error fault) :
    fault.kind = .malformedHeader := by
  unfold read at failed
  split at failed
  · cases failed
  · split at failed <;> cases failed
    rfl

theorem kind_of_relocate {facts relocated : FileFacts} {fault : Fault}
    (failed : relocate facts relocated = .error fault) : fault.kind = .malformedHeader := by
  unfold relocate at failed
  split at failed <;> cases failed
  rfl

theorem kind_of_addTo {header : Header} {facts : FileFacts} {fault : Fault}
    (failed : header.addTo facts = .error fault) : fault.kind = .malformedHeader := by
  cases header with
  | newFileMode mode =>
      simp only [addTo] at failed
      split at failed <;> cases failed
      rfl
  | deletedFileMode mode =>
      simp only [addTo] at failed
      split at failed
      · cases failed
        rfl
      · split at failed <;> cases failed
        rfl
  | renameFrom | renameTo | copyFrom | copyTo => exact kind_of_relocate failed
  | oldMode | newMode | similarityIndex | dissimilarityIndex => cases failed
  | index orig new mode => cases mode <;> cases failed

end Header

namespace Dialect

variable {dialect : Dialect} {draft : Draft} {line : Bytes} {lines : List Bytes} {fault : Fault}
  {pairSeen : Bool} {last : Option BodyKind}

theorem kind_of_open? (failed : dialect.open? lines = .error fault) :
    fault.kind = .malformedHeader := by
  cases dialect with
  | git =>
      cases lines with
      | nil => cases failed
      | cons line lines =>
          simp only [open?] at failed
          split at failed
          · cases failed
          · split at failed <;> cases failed
            rfl
  | unified =>
      cases lines with
      | nil => cases failed
      | cons line later =>
          cases later with
          | nil => cases failed
          | cons next later =>
              simp only [open?] at failed
              split at failed <;> cases failed

theorem kind_of_readHeader {facts : FileFacts}
    (failed : dialect.readHeader line facts = .error fault) : fault.kind = .malformedHeader := by
  cases dialect with
  | unified => cases failed
  | git =>
      simp only [readHeader] at failed
      split at failed
      · rename_i unread
        cases failed
        exact Header.kind_of_read unread
      · cases failed
      · split at failed
        · rename_i refused
          cases failed
          exact Header.kind_of_addTo refused
        · cases failed

theorem kind_of_startHunk (failed : startHunk draft line = .error fault) :
    fault.kind = .malformedHunk := by
  unfold startHunk at failed
  split at failed <;> cases failed
  rfl

theorem kind_of_readPair {orig : Bytes}
    (failed : dialect.readPair draft orig line lines = .error fault) :
    fault.kind = .malformedHeader := by
  unfold readPair at failed
  split at failed
  · cases failed
    rfl
  · split at failed <;> cases failed
    rfl

theorem kind_of_readPairOrHunk
    (failed : dialect.readPairOrHunk draft pairSeen line lines = .error fault) :
    fault.kind = .malformedHeader ∨ fault.kind = .malformedHunk := by
  unfold readPairOrHunk at failed
  dsimp only at failed
  split at failed
  · split at failed
    · cases failed
      exact .inl rfl
    · exact .inl (kind_of_readPair failed)
  · split at failed
    · cases failed
      exact .inl rfl
    · split at failed
      · split at failed
        · exact .inr (kind_of_startHunk failed)
        · cases failed
          exact .inl rfl
      · cases failed

theorem kind_of_headerStep (failed : dialect.headerStep draft pairSeen line lines = .error fault) :
    fault.kind = .malformedHeader ∨ fault.kind = .malformedHunk := by
  unfold headerStep at failed
  dsimp only at failed
  split at failed
  · cases failed
  · split at failed
    · cases failed
    · split at failed
      · exact kind_of_readPairOrHunk failed
      · split at failed
        · rename_i refused
          cases failed
          exact .inl (kind_of_readHeader refused)
        · cases failed
        · exact kind_of_readPairOrHunk failed

theorem kind_of_hunkStep {left : Remaining}
    (failed : hunkStep draft left last line = .error fault) : fault.kind = .malformedHunk := by
  unfold hunkStep at failed
  dsimp only at failed
  split at failed
  · cases failed
    rfl
  · split at failed <;> cases failed
    rfl
  · split at failed <;> cases failed
    rfl

theorem kind_of_nextHunk (failed : nextHunk draft line = .error fault) :
    fault.kind = .malformedHunk := by
  unfold nextHunk at failed
  split at failed
  · exact kind_of_startHunk failed
  · cases failed

theorem kind_of_betweenStep (failed : betweenStep draft last line = .error fault) :
    fault.kind = .malformedHunk := by
  unfold betweenStep at failed
  split at failed
  · exact kind_of_nextHunk failed
  · split at failed
    · cases failed
    · exact kind_of_nextHunk failed

end Dialect

theorem atLine_eq_error {α : Type} {line : Nat} {checked : Except Fault α} {error : ParseError}
    (failed : atLine line checked = .error error) :
    checked = .error error.fault ∧ error.line = line := by
  cases checked <;> cases failed
  exact ⟨rfl, rfl⟩

/-- The fault is in the line at hand itself: a header, or a line of a hunk. -/
def Fault.Malformed (fault : Fault) : Prop :=
  fault.kind = .malformedHeader ∨ fault.kind = .malformedHunk

theorem Fault.Malformed.kind_ne {fault : Fault} (malformed : fault.Malformed) :
    fault.kind ≠ .notRecognized ∧ fault.kind ≠ .truncatedHunk := by
  rcases malformed with kind | kind <;> simp [kind]

/-- Inside a section the line at hand is at fault, or the hunk is cut before it. -/
theorem Dialect.sectionStep_eq_error {dialect : Dialect} {cuts : CutRule} {passed : Nat}
    {draft : Draft} {place : Place} {line : Bytes} {lines : List Bytes} {error : ParseError}
    (failed : dialect.sectionStep cuts passed draft place line lines = .error error) :
    (error.fault.Malformed ∧ error.line = Line.number passed) ∨
      ∃ left last, place = .hunk left last ∧ cuts left (line :: lines) = true ∧
        error = ⟨.truncated left, passed⟩ := by
  cases place with
  | header pairSeen =>
      obtain ⟨refused, here⟩ := atLine_eq_error failed
      exact .inl ⟨kind_of_headerStep refused, here⟩
  | payload => cases failed
  | hunk left last =>
      unfold sectionStep at failed
      dsimp only at failed
      split at failed
      · rename_i cut
        cases failed
        exact .inr ⟨left, last, rfl, cut, rfl⟩
      · obtain ⟨refused, here⟩ := atLine_eq_error failed
        exact .inl ⟨.inr (kind_of_hunkStep refused), here⟩
  | between last =>
      obtain ⟨refused, here⟩ := atLine_eq_error failed
      exact .inl ⟨.inr (kind_of_betweenStep refused), here⟩

namespace Reader

variable {dialect : Dialect} {cuts : CutRule} {reader : Reader} {error : ParseError}

/-- **A step finds the line at hand at fault, or the hunk before it cut short.** -/
theorem step_eq_error {line : Bytes} {lines : List Bytes}
    (failed : reader.step dialect cuts line lines = .error error) :
    (error.fault.Malformed ∧ error.line = Line.number reader.passed) ∨
      ∃ draft left last, reader.state = .reading draft (.hunk left last) ∧
        cuts left (line :: lines) = true ∧ error = ⟨.truncated left, reader.passed⟩ := by
  unfold step at failed
  split at failed
  · split at failed
    · rename_i refused
      cases failed
      exact .inl ⟨.inl (Dialect.kind_of_open? refused), rfl⟩
    · cases failed
    · cases failed
  · rename_i draft place inside
    split at failed
    · rename_i refused
      cases failed
      refine (Dialect.sectionStep_eq_error refused).imp_right ?_
      rintro ⟨left, last, rfl, cut, rfl⟩
      exact ⟨draft, left, last, inside, cut, rfl⟩
    · cases failed

theorem kind_of_step {line : Bytes} {lines : List Bytes}
    (failed : reader.step dialect cuts line lines = .error error) :
    error.fault.kind ≠ .notRecognized := by
  rcases step_eq_error failed with ⟨malformed, -⟩ | ⟨_, _, _, -, -, rfl⟩
  · exact malformed.kind_ne.1
  · simp [Fault.kind]

/-- A run that fails is a sequence of steps to a line that the next step refuses. -/
theorem run_eq_error_iff :
    reader.run dialect cuts = .error error ↔ ∃ stuck line lines, Reaches dialect cuts reader stuck ∧
      stuck.ahead = line :: lines ∧ stuck.step dialect cuts line lines = .error error := by
  constructor
  · intro failed
    fun_induction run dialect cuts reader with
    | case1 => cases failed
    | case2 reader line lines ahead error' refused =>
        cases failed
        exact ⟨reader, line, lines, .refl, ahead, refused⟩
    | case3 reader line lines ahead next stepped ih =>
        obtain ⟨stuck, line', lines', reaches, ahead', refused⟩ := ih failed
        exact ⟨stuck, line', lines', .head ((step_eq_ok_iff ahead).1 stepped) reaches, ahead',
          refused⟩
  · rintro ⟨stuck, line, lines, reaches, ahead, refused⟩
    rw [reaches.run_eq, run_cons ahead, refused]

/-- At the end of the input an open hunk is cut short, or no section was found. -/
theorem close_eq_error (failed : reader.close dialect = .error error) :
    (∃ draft left last, reader.state = .reading draft (.hunk left last) ∧
      error = ⟨.truncated left, reader.passed⟩) ∨
    (∃ pending, reader.state = .seeking none pending ∧
      pending.all (·.all Bytes.isBlank) = false ∧ error = ⟨.noSection dialect, 0⟩) := by
  unfold close at failed
  split at failed
  · rename_i inHunk
    cases failed
    exact .inl ⟨_, _, _, inHunk, rfl⟩
  · cases failed
  · cases failed
  · rename_i pending seeking
    split at failed
    · cases failed
    · rename_i inked
      cases failed
      exact .inr ⟨pending, seeking, Bool.eq_false_iff.2 inked, rfl⟩

end Reader

/-- **A diff is refused at a line that the reader comes to, or at its end.** -/
theorem Dialect.parseWith_eq_error {dialect : Dialect} {cuts : CutRule} {data : Bytes}
    {error : ParseError} (failed : dialect.parseWith cuts data = .error error) :
    (∃ stuck line lines, Reader.Reaches dialect cuts (Reader.ofLines (Line.split data)) stuck ∧
      stuck.ahead = line :: lines ∧ stuck.step dialect cuts line lines = .error error) ∨
    (∃ final, Reader.Reaches dialect cuts (Reader.ofLines (Line.split data)) final ∧
      final.ahead = [] ∧ final.close dialect = .error error) := by
  unfold parseWith at failed
  split at failed
  · rename_i broken
    cases failed
    exact .inl (Reader.run_eq_error_iff.1 broken)
  · rename_i final finished
    obtain ⟨reaches, nothing⟩ := Reader.run_eq_ok_iff.1 finished
    exact .inr ⟨final, reaches, nothing, failed⟩

/-- **An input that is not recognized is one without sections**: the reader got through it, all of
its text is pending, and it is not blank. -/
theorem Dialect.exists_of_notRecognized {dialect : Dialect} {cuts : CutRule} {data : Bytes}
    {error : ParseError} (failed : dialect.parseWith cuts data = .error error)
    (unrecognized : error.fault.kind = .notRecognized) :
    error = ⟨.noSection dialect, 0⟩ ∧
      ∃ final pending, Reader.Reaches dialect cuts (Reader.ofLines (Line.split data)) final ∧
        final.ahead = [] ∧ final.state = .seeking none pending ∧
        pending.all (·.all Bytes.isBlank) = false := by
  rcases parseWith_eq_error failed with ⟨_, _, _, -, -, refused⟩ | ⟨final, reaches, nothing, closes⟩
  · exact absurd unrecognized (Reader.kind_of_step refused)
  · rcases Reader.close_eq_error closes with ⟨_, left, _, _, rfl⟩ | ⟨pending, seeking, inked, rfl⟩
    · simp [Fault.kind] at unrecognized
    · exact ⟨rfl, final, pending, reaches, nothing, seeking, inked⟩

end DiffSections
