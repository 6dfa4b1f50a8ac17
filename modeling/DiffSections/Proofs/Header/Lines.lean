import DiffSections.Proofs.Header
import DiffSections.Proofs.Reader.Sections
import Mathlib.Data.List.Forall2

/-!
# DiffSections.Proofs.Header.Lines -- the lines before a first hunk are taken as they read

Behind a git boundary header lines are taken one after the other, as long as they are accepted
(`Draft.takes_headerLines`), and behind them a `---`/`+++` pair (`Draft.takes_pairLines`). What they
add up to is left to their values: the lines may be written ones or any that are read as headers.
-/

namespace DiffSections

set_option autoImplicit false

open Bytes

/-- Lines that are read as these extended headers. -/
def ReadAs (lines : List Bytes) (headers : List Header) : Prop :=
  List.Forall₂ (fun line header => Header.read (Line.content line) = .ok (some header))
    lines headers

theorem ReadAs.exists_header {lines : List Bytes} {headers : List Header} {line : Bytes}
    (reads : ReadAs lines headers) (member : line ∈ lines) :
    ∃ header, Header.read (Line.content line) = .ok (some header) := by
  induction reads with
  | nil => cases member
  | cons first _ ih =>
      rcases List.mem_cons.1 member with rfl | later
      · exact ⟨_, first⟩
      · exact ih later

namespace Header

theorem startsSection_of_read {line : Bytes} {header : Header}
    (reads : read (Line.content line) = .ok (some header)) (lines : List Bytes) :
    Dialect.git.startsSection (line :: lines) = false := by
  obtain ⟨kind, value, content, -⟩ := eq_append_of_read reads
  rw [Dialect.startsSection, content]
  cases kind <;> rfl

theorem binaryNotice?_of_read {line : Bytes} {header : Header}
    (reads : read line = .ok (some header)) (dialect : Dialect) :
    dialect.binaryNotice? line = none := by
  obtain ⟨kind, value, rfl, -⟩ := eq_append_of_read reads
  obtain ⟨b, rest, head, notG, notB⟩ :
      ∃ b rest, kind.head = b :: rest ∧ b ≠ 71 ∧ b ≠ 66 := by
    cases kind <;> exact ⟨_, _, rfl, by decide, by decide⟩
  rw [head]
  exact dialect.binaryNotice?_cons notG notB _

end Header

namespace Draft

theorem append_withFacts_beforeHunks (facts added : FileFacts) (taken : List Bytes)
    (line : Bytes) :
    ((beforeHunks facts taken).withFacts added).append line =
      beforeHunks added (taken ++ [line]) := by
  simp [beforeHunks, withFacts, append]

/-- Header lines are taken one after the other, as long as they are accepted. -/
theorem takes_headerLines {lines : List Bytes} {headers : List Header} {facts added : FileFacts}
    (reads : ReadAs lines headers) (adds : Header.addAll headers facts = .ok added)
    (taken : List Bytes) :
    Takes .git (.reading (beforeHunks facts taken) (.header false)) lines
      (.reading (beforeHunks added (taken ++ lines)) (.header false)) := by
  induction reads generalizing facts taken with
  | nil =>
      cases adds
      rw [List.append_nil]
      exact .nil
  | @cons line header lines headers isHeader _ ih =>
      obtain ⟨next, first, rest⟩ := Header.addAll_cons_eq_ok adds
      have later := ih rest (taken ++ [line])
      rw [List.append_assoc, List.singleton_append] at later
      refine .cons (fun behind => ?_) later
      rw [← append_withFacts_beforeHunks facts]
      refine .extended (Header.startsSection_of_read isHeader behind)
        (Header.binaryNotice?_of_read isHeader .git) ?_
      simp only [Dialect.readHeader, isHeader, beforeHunks, first]

/-- The pair is taken behind the header lines. -/
theorem takes_pairLines {origLine newLine orig new : Bytes}
    (isOrig : after? Dialect.origHead (Line.content origLine) = some orig)
    (isNew : after? Dialect.newHead (Line.content newLine) = some new) (facts : FileFacts)
    (taken : List Bytes) :
    Takes .git (.reading (beforeHunks facts taken) (.header false)) [origLine, newLine]
      (.reading (beforeHunks (Dialect.git.addPair orig new facts) (taken ++ [origLine, newLine]))
        (.header true)) := by
  have content := after?_eq_some_iff.1 isOrig
  have both : beforeHunks (Dialect.git.addPair orig new facts) (taken ++ [origLine, newLine]) =
      (((beforeHunks facts taken).withFacts (Dialect.git.addPair orig new facts)).append
        origLine).append newLine := by
    rw [append_withFacts_beforeHunks]
    simp [beforeHunks, append]
  rw [both]
  apply Takes.of_move_two
  intro behind
  refine SectionMove.pair ?_ ?_ ?_ isOrig rfl isNew
  · rw [Dialect.startsSection, content]
    rfl
  · rw [content]
    exact Dialect.git.binaryNotice?_cons (by decide : minus ≠ 71) (by decide) _
  · rw [content]
    rfl

end Draft

end DiffSections
