import DiffSections.Dialect.Lines
import DiffSections.Hunk.Header
import Mathlib.Data.List.TakeWhile

/-!
# DiffSections.Proofs.Dialect -- lines are told apart by how they start

The lines of a section that are not hunks start with words: a boundary, a `---` or `+++` line, an
extended header line, a summary of binary content. None of them announces a hunk, and a line is told
to be no boundary or no binary notice by its first octet. A line of the pair whose path holds no tab
has no revision info.
-/

namespace DiffSections

set_option autoImplicit false

open Bytes

theorem Hunk.announcedBy_cons {b : UInt8} (other : b ≠ 64) (rest : Bytes) :
    Hunk.announcedBy (b :: rest) = false := by
  show (Bytes.after? [64, 64] (b :: rest)).isSome = false
  simp [Bytes.after?, other.symm]

/-- A line that opens a hunk announces it. -/
theorem Hunk.exists_of_ofHeader? {line : Bytes} {hunk : Hunk}
    (opens : Hunk.ofHeader? line = some hunk) :
    ∃ rest, line = 64 :: rest ∧ Hunk.announcedBy line = true := by
  simp only [Hunk.ofHeader?, Option.bind_eq_bind, Option.bind_eq_some_iff] at opens
  obtain ⟨rest, after, -⟩ := opens
  rw [Bytes.after?_eq_some_iff.1 after]
  exact ⟨64 :: 32 :: 45 :: rest, rfl, rfl⟩

/-- An extended header line starts with the head of its kind. -/
theorem Header.eq_append_of_read {line : Bytes} {header : Header}
    (read : Header.read line = .ok (some header)) :
    ∃ kind value, line = HeaderKind.head kind ++ value ∧
      HeaderKind.header? kind value = some header := by
  unfold Header.read at read
  split at read
  · cases read
  · rename_i kind value found
    split at read
    · rename_i header' valued
      cases read
      obtain ⟨kind', -, headed⟩ := List.exists_of_findSome?_eq_some found
      obtain ⟨value', after, same⟩ := Option.map_eq_some_iff.1 headed
      cases same
      exact ⟨kind, value, Bytes.after?_eq_some_iff.1 after, valued⟩
    · cases read

theorem HeaderKind.head_ne_at (kind : HeaderKind) :
    ∃ b rest, kind.head = b :: rest ∧ b ≠ 64 := by
  cases kind <;> exact ⟨_, _, rfl, by decide⟩

theorem Dialect.announcedBy_of_readHeader {dialect : Dialect} {line : Bytes}
    {facts facts' : FileFacts} (read : dialect.readHeader line facts = .ok (some facts')) :
    Hunk.announcedBy line = false := by
  cases dialect with
  | unified => cases read
  | git =>
      simp only [Dialect.readHeader] at read
      split at read
      · cases read
      · cases read
      · rename_i header isHeader
        obtain ⟨kind, value, rfl, -⟩ := Header.eq_append_of_read isHeader
        obtain ⟨b, rest, head, other⟩ := kind.head_ne_at
        rw [head]
        exact Hunk.announcedBy_cons other _

theorem Dialect.announcedBy_of_after? {head line rest : Bytes}
    (after : Bytes.after? head line = some rest)
    (isHead : head ∈ [boundaryHead, origHead, newHead]) : Hunk.announcedBy line = false := by
  rw [Bytes.after?_eq_some_iff.1 after]
  simp only [List.mem_cons, List.not_mem_nil, or_false] at isHead
  rcases isHead with rfl | rfl | rfl <;> exact Hunk.announcedBy_cons (by decide) _

/-- A line that starts with neither of two letters announces no binary content. -/
theorem Dialect.binaryNotice?_cons (dialect : Dialect) {b : UInt8} (notG : b ≠ 71) (notB : b ≠ 66)
    (rest : Bytes) : dialect.binaryNotice? (b :: rest) = none := by
  have notPatch : b :: rest ≠ ofAscii "GIT binary patch" := by
    intro same
    exact notG (List.cons.inj same).1
  have notSummary : Dialect.isBinarySummary (b :: rest) = false := by
    have other : Bytes.after? (66 :: ofAscii "inary files ") (b :: rest) = none := by
      simp [Bytes.after?, notB.symm]
    show ((Bytes.after? (66 :: ofAscii "inary files ") (b :: rest)).isSome && _) = false
    rw [other]
    rfl
  cases dialect <;> simp [Dialect.binaryNotice?, notPatch, notSummary]

/-- No section starts where no line is. -/
theorem Dialect.exists_cons_of_startsSection {dialect : Dialect} {lines : List Bytes}
    (starts : dialect.startsSection lines = true) : ∃ line later, lines = line :: later := by
  cases lines with
  | nil => cases dialect <;> cases starts
  | cons line later => exact ⟨line, later, rfl⟩

/-- A boundary starts with one of two heads. -/
theorem Dialect.content_of_startsSection {dialect : Dialect} {line : Bytes} {lines : List Bytes}
    (starts : dialect.startsSection (line :: lines) = true) :
    ∃ rest, Line.content line = boundaryHead ++ rest ∨ Line.content line = origHead ++ rest := by
  cases dialect with
  | git =>
      obtain ⟨rest, content⟩ := startsWith_iff.1 starts
      exact ⟨rest, .inl content⟩
  | unified =>
      cases lines with
      | nil => cases starts
      | cons next later =>
          simp only [startsSection, Bool.and_eq_true] at starts
          obtain ⟨rest, content⟩ := startsWith_iff.1 starts.1
          exact ⟨rest, .inr content⟩

/-- A line that starts with neither of two octets starts no section. -/
theorem Dialect.startsSection_cons (dialect : Dialect) {b : UInt8} {line rest : Bytes}
    (content : Line.content line = b :: rest) (notD : b ≠ 100) (notMinus : b ≠ minus)
    (lines : List Bytes) : dialect.startsSection (line :: lines) = false := by
  refine Bool.eq_false_iff.2 fun starts => ?_
  obtain ⟨tail, boundary | orig⟩ := content_of_startsSection starts
  · rw [content] at boundary
    exact notD (List.cons.inj boundary).1
  · rw [content] at orig
    exact notMinus (List.cons.inj orig).1

/-- None of these lines announces a hunk. -/
def Unannounced (lines : List Bytes) : Prop :=
  ∀ line ∈ lines, Hunk.announcedBy (Line.content line) = false

theorem unannounced_nil : Unannounced [] :=
  fun _ member => absurd member List.not_mem_nil

theorem unannounced_cons {line : Bytes} {lines : List Bytes}
    (first : Hunk.announcedBy (Line.content line) = false) (later : Unannounced lines) :
    Unannounced (line :: lines) := by
  intro other member
  rcases List.mem_cons.1 member with rfl | after
  · exact first
  · exact later other after

/-- The lines of a boundary announce no hunk. -/
theorem Dialect.unannounced_of_open? {dialect : Dialect} {lines : List Bytes} {opening : Opening}
    (opens : dialect.open? lines = .ok (some opening)) :
    Unannounced (lines.take opening.lineCount) := by
  cases dialect with
  | git =>
      cases lines with
      | nil => cases opens
      | cons line later =>
          simp only [Dialect.open?] at opens
          split at opens
          · cases opens
          · rename_i rest boundary
            split at opens
            · cases opens
              exact unannounced_cons (announcedBy_of_after? boundary (by simp)) unannounced_nil
            · cases opens
  | unified =>
      cases lines with
      | nil => cases opens
      | cons line later =>
          cases later with
          | nil => cases opens
          | cons next later =>
              simp only [Dialect.open?] at opens
              split at opens
              · rename_i orig new origLine newLine
                have pairSeen : opening.pairSeen = true := by
                  rw [← Option.some.inj (Except.ok.inj opens)]
                rw [show opening.lineCount = 2 by simp [Opening.lineCount, pairSeen]]
                exact unannounced_cons (announcedBy_of_after? origLine (by simp))
                  (unannounced_cons (announcedBy_of_after? newLine (by simp)) unannounced_nil)
              · cases opens

/-! ## The lines of the pair -/

namespace Dialect

variable {rest : Bytes}

theorem ne_tab_of_untabbed (untabbed : tab ∉ rest) : ∀ b ∈ rest, (b != tab) = true := by
  intro b member
  simp only [bne_iff_ne, ne_eq]
  rintro rfl
  exact untabbed member

theorem revisionName_of_untabbed (untabbed : tab ∉ rest) : revisionName rest = rest :=
  List.takeWhile_eq_self_iff.2 (ne_tab_of_untabbed untabbed)

/-- Without a tab there is no revision info. -/
theorem revisionInfo_of_untabbed (untabbed : tab ∉ rest) : revisionInfo rest = none := by
  rw [revisionInfo, List.dropWhile_eq_nil_iff.2 (ne_tab_of_untabbed untabbed), List.drop_nil,
    Text.lossy, Text.chars]
  rfl

/-- A line of the pair that gives a path which is there leaves the facts alone. -/
theorem addRevision_of_setPath {dialect : Dialect} {side : Side} {path : String}
    {facts : FileFacts} (untabbed : tab ∉ rest) (named : dialect.pairPath? side rest = some path)
    (same : facts.setPath path side = facts) : dialect.addRevision side rest facts = facts := by
  simp only [addRevision, revisionName_of_untabbed untabbed, named, same,
    revisionInfo_of_untabbed untabbed]

end Dialect

end DiffSections
