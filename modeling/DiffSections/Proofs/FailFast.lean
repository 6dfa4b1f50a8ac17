import DiffSections.Proofs.Reader.Extension

/-!
# DiffSections.Proofs.FailFast -- no later line repairs an earlier one

A diff that is refused for what a line says, before its last line, is refused for the same fault at
the same line whatever comes after it (`Dialect.parse_append_eq_error`). The reader comes to the
line with two lines ahead or more. So it never looked past the end of the diff to see whether a
section starts, and where it looked further, to see whether a hunk is completed, more lines could
only have let it go on.

At the last line it is not so: a `---` line may yet be followed by its `+++` line. Nor is it for a
hunk that a plain unified boundary cuts, which more lines may complete.
-/

namespace DiffSections

set_option autoImplicit false

namespace Dialect

variable {dialect : Dialect} {error : ParseError}

/-- A reader that is stopped before the last line is stopped there with more lines too. -/
theorem run_append_eq_error {lines ahead : List Bytes} {stuck : Reader} {line : Bytes}
    (reaches : Reader.Reaches dialect dialect.cutRule (Reader.ofLines lines) stuck)
    (here : stuck.ahead = line :: ahead)
    (failed : stuck.step dialect dialect.cutRule line ahead = .error error)
    (settled : error.fault.Malformed ∨ error.fault.kind = .truncatedHunk ∧ dialect = .git)
    (inner : error.line < lines.length) (more : List Bytes) :
    (Reader.ofLines (lines ++ more)).run dialect dialect.cutRule = .error error := by
  have counted : stuck.passed + (ahead.length + 1) = lines.length := by
    simpa [here] using reaches.passed_add_length
  have hereMore : (stuck.append more).ahead = line :: (ahead ++ more) := by
    simp [Reader.append, here]
  rcases Reader.step_eq_error failed with
    ⟨malformed, number⟩ | ⟨draft, left, last, inHunk, cut, rfl⟩
  · have inner : stuck.passed + 1 < lines.length := by simpa [number, Line.number] using inner
    have two : 2 ≤ stuck.ahead.length := by
      rw [here, List.length_cons]
      omega
    have goes : Reader.Reaches dialect dialect.cutRule (Reader.ofLines (lines ++ more))
        (stuck.append more) := reaches.append_of_inner (.inl two) more
    have notLast : ahead ≠ [] := by
      rintro rfl
      simp [here] at two
    rw [goes.run_eq, Reader.run_cons hereMore,
      Reader.step_append_eq_error failed malformed notLast]
  · obtain rfl : dialect = .git := by
      rcases settled with malformed | ⟨-, git⟩
      · exact absurd rfl malformed.kind_ne.2
      · exact git
    have goes : Reader.Reaches .git Dialect.git.cutRule (Reader.ofLines (lines ++ more))
        (stuck.append more) := reaches.append_of_inner (.inr rfl) more
    rw [goes.run_eq, Reader.run_cons hereMore, Reader.step_append_of_cut_git inHunk cut]

/-- **No later line repairs, moves or hides a fault.** Let a diff end in LF and be refused before
its last line, because a line is malformed, or in the git dialect because a hunk is cut. Whatever
is put after it, the whole is refused for the same fault at the same line. -/
theorem parse_append_eq_error {first : Bytes} (ended : first.getLast? = some Bytes.lf)
    (failed : dialect.parse first = .error error)
    (settled : error.fault.kind = .malformedHeader ∨ error.fault.kind = .malformedHunk ∨
      error.fault.kind = .truncatedHunk ∧ dialect = .git)
    (least : 1 ≤ error.line) (inner : error.line < (Line.split first).length) (later : Bytes) :
    dialect.parse (first ++ later) = .error error := by
  have settled : error.fault.Malformed ∨ error.fault.kind = .truncatedHunk ∧ dialect = .git :=
    or_assoc.2 settled
  rcases parseWith_eq_error failed with ⟨stuck, line, ahead, reaches, here, refused⟩ |
    ⟨final, reaches, nothing, closes⟩
  · have stopped := run_append_eq_error reaches here refused settled inner (Line.split later)
    rw [parse, parseWith, Line.split_append _ _ (.inr ended), stopped]
  -- At the end of the input a hunk is cut at the last line.
  · have counted : final.passed = (Line.split first).length := by
      simpa [nothing] using reaches.passed_add_length
    rcases Reader.close_eq_error closes with ⟨_, left, _, -, rfl⟩ | ⟨_, _, _, rfl⟩
    · exact absurd counted (Nat.ne_of_lt inner)
    · exact absurd least (by simp)

/-- A pair among the lines of a hunk, which the lookahead has to see completed, and a malformed
hunk header after it. What is put after it would make a pair of its last line. -/
theorem parse_append_eq_error_hunk_header :
    let first := Bytes.ofAscii
      "--- a\n+++ b\n@@ -1,3 +1,3 @@\n--- c\n+++ d\n x\n\n@@ -1 +1\n--- e\n"
    let error : ParseError := ⟨.hunkHeader (Bytes.ofAscii "@@ -1 +1"), 8⟩
    first.getLast? = some Bytes.lf ∧ Dialect.unified.parse first = .error error ∧
      error.fault.kind = .malformedHunk ∧ 1 ≤ error.line ∧
      error.line < (Line.split first).length ∧
      Dialect.unified.parse (first ++ Bytes.ofAscii "+++ f\n@@ -1 +1 @@\n-p\n+q\n") =
        .error error := by
  intro first error
  have ended : first.getLast? = some Bytes.lf := by decide +kernel
  have failed : Dialect.unified.parse first = .error error := by decide +kernel
  have inner : error.line < (Line.split first).length := by decide +kernel
  exact ⟨ended, failed, rfl, by decide, inner,
    parse_append_eq_error ended failed (.inr (.inl rfl)) (by decide) inner _⟩

/-- At the last line a `---` line may yet be followed by its `+++` line. -/
example :
    let first := Bytes.ofAscii "diff --git a/x b/x\n--- a/x\n"
    Dialect.git.parse first = .error ⟨.origLineAlone, 2⟩ ∧
      (Dialect.git.parse (first ++ Bytes.ofAscii "+++ b/x\n")).isOk := by
  decide +kernel

end Dialect

end DiffSections
