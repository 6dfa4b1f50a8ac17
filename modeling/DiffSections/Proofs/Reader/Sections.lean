import DiffSections.Proofs.Line
import DiffSections.Proofs.Lookahead

/-!
# DiffSections.Proofs.Reader.Sections -- sections that are read whatever stands around them

`Takes` says that a reader inside a section takes some lines, whatever follows them, and
`Dialect.ReadsSection` that it takes some lines as a section with a known record, whatever was read
before and whatever follows. A reader that knows where it stands between two such sections goes
through any number of them: a diff that consists of such sections is read into their records
(`Dialect.parse_flatten_of_readsSection`). A plain reader does so, and looking ahead changes
nothing.
-/

namespace DiffSections

set_option autoImplicit false

/-- A reader that does not look ahead takes these lines, whatever comes after them. -/
def Takes (dialect : Dialect) (before : ReaderState) (lines : List Bytes) (after : ReaderState) :
    Prop :=
  ∀ closed passed rest, Reader.Reaches dialect .never ⟨closed, before, passed, lines ++ rest⟩
    ⟨closed, after, passed + lines.length, rest⟩

namespace Takes

variable {dialect : Dialect} {before middle after : ReaderState} {first later : List Bytes}
  {draft : Draft} {place : Place} {line : Bytes}

theorem nil : Takes dialect before [] before :=
  fun _ _ _ => .refl

theorem append (takesFirst : Takes dialect before first middle)
    (takesLater : Takes dialect middle later after) :
    Takes dialect before (first ++ later) after := by
  intro closed passed rest
  have begins := takesFirst closed passed (later ++ rest)
  have ends := takesLater closed (passed + first.length) rest
  rw [List.append_assoc, List.length_append, ← Nat.add_assoc]
  exact begins.trans ends

theorem of_move (moves : ∀ lines, SectionMove dialect .never draft line lines place (.one after)) :
    Takes dialect (.reading draft place) [line] after :=
  fun _ _ rest => .single (.inside (moves rest))

theorem of_move_two {next : Bytes}
    (moves : ∀ lines, SectionMove dialect .never draft line (next :: lines) place (.two after)) :
    Takes dialect (.reading draft place) [line, next] after :=
  fun _ _ rest => .single (.inside (moves rest))

theorem cons (moves : ∀ lines, SectionMove dialect .never draft line lines place (.one middle))
    (takesLater : Takes dialect middle later after) :
    Takes dialect (.reading draft place) (line :: later) after :=
  append (of_move moves) takesLater

end Takes

/-- A boundary ends the section that is in hand, unless a hunk still owes lines. -/
theorem SectionMove.boundary {dialect : Dialect} {cuts : CutRule} {draft : Draft} {line : Bytes}
    {lines : List Bytes} {place : Place} (starts : dialect.startsSection (line :: lines) = true)
    (notHunk : ∀ left last, place ≠ .hunk left last) :
    SectionMove dialect cuts draft line lines place (.handBack draft) := by
  cases place with
  | header pairSeen => exact .headerBoundary starts
  | payload => exact .payloadBoundary starts
  | hunk left last => exact absurd rfl (notHunk left last)
  | between last =>
      obtain ⟨b, rest, content, notAt, notBackslash⟩ : ∃ b rest,
          Line.content line = b :: rest ∧ b ≠ 64 ∧ b ≠ Bytes.backslash := by
        obtain ⟨rest, boundary | orig⟩ := Dialect.content_of_startsSection starts
        · exact ⟨_, _, boundary, by decide, by decide⟩
        · exact ⟨_, _, orig, by decide, by decide⟩
      refine .afterHunks (.inr ?_) ?_
      · rw [content]
        exact fun marks => notBackslash (Option.some.inj marks)
      · rw [content, Hunk.announcedBy_cons notAt]

/-! ## Before a hunk -/

/-- A place before a hunk: after the `---`/`+++` pair, or after another hunk. -/
def Place.BeforeHunk (place : Place) : Prop :=
  place = .header true ∨ ∃ last, place = .between last

theorem Place.BeforeHunk.ne_hunk {place : Place} (ready : place.BeforeHunk) (left : Remaining)
    (last : Option BodyKind) : place ≠ .hunk left last := by
  rcases ready with rfl | ⟨last, rfl⟩ <;> simp

/-- The line that opens a hunk is taken before a hunk. -/
theorem SectionMove.opensHunk {dialect : Dialect} {cuts : CutRule} {draft : Draft} {line : Bytes}
    {place : Place} {hunk : Hunk} (ready : place.BeforeHunk)
    (opens : Hunk.ofHeader? (Line.content line) = some hunk) (lines : List Bytes) :
    SectionMove dialect cuts draft line lines place
      (.one
        (.reading ((draft.pushHunk hunk).append line) (.inHunk (Remaining.ofHunk hunk) none))) := by
  obtain ⟨rest, content, announced⟩ := Hunk.exists_of_ofHeader? opens
  rcases ready with rfl | ⟨last, rfl⟩
  · have notOrig : Bytes.after? Dialect.origHead (Line.content line) = none := by
      rw [content]
      rfl
    have notNew : (Line.content line).startsWith Dialect.newHead = false := by
      rw [content]
      rfl
    have stays := dialect.startsSection_cons content (by decide) (by decide) lines
    refine .firstHunk stays ?_ notOrig notNew announced opens
    rw [content]
    exact dialect.binaryNotice?_cons (by decide) (by decide) rest
  · exact .nextHunk announced opens

/-! ## Sections -/

/-- A draft that has read its boundary and perhaps other lines, but no hunk. -/
def Draft.beforeHunks (facts : FileFacts) (lines : List Bytes) : Draft :=
  { toFileFacts := facts, preamble := some [], pieces := lines.reverse }

/-- A new section without a preamble. -/
theorem Reader.startDraft_nil (opening : Opening) (boundary : List Bytes) :
    startDraft opening [] boundary = .beforeHunks opening.facts boundary := by
  rw [startDraft_eq]
  rfl

/-- A reader between two sections starts the next one, and closes the one before. -/
theorem Reader.Step.start_append {dialect : Dialect} {boundary rest : List Bytes}
    {opening : Opening} (cuts : CutRule) (closed : List FileRecord) (previous : Option Draft)
    (pending : List Bytes) (passed : Nat) (counted : boundary.length = opening.lineCount)
    (opens : dialect.open? (boundary ++ rest) = .ok (some opening)) :
    Reader.Step dialect cuts ⟨closed, .seeking previous pending, passed, boundary ++ rest⟩
      ⟨(previous.map Draft.close).toList ++ closed,
        .reading (startDraft opening pending boundary) (.header opening.pairSeen),
        passed + boundary.length, rest⟩ := by
  have started : Reader.start ⟨closed, .seeking previous pending, passed, boundary ++ rest⟩ opening
      previous pending = ⟨(previous.map Draft.close).toList ++ closed,
        .reading (startDraft opening pending boundary) (.header opening.pairSeen),
        passed + boundary.length, rest⟩ := by
    simp [Reader.start, take, ← counted]
  rw [← started]
  cases boundary with
  | nil => exact absurd counted (Nat.ne_of_lt (lineCount_pos opening))
  | cons line lines => exact .start opens

namespace Dialect

/-- A plain reader takes these lines as one section with this record, wherever it looks for one and
whatever comes after them. -/
structure ReadsSection (dialect : Dialect) (lines : List Bytes) (record : FileRecord) : Prop where
  starts : ∀ rest, dialect.startsSection (lines ++ rest) = true
  reaches : ∀ closed previous passed rest, ∃ draft place, draft.close = record ∧
    (∀ left last, place ≠ Place.hunk left last) ∧
    Reader.Reaches dialect .never ⟨closed, .seeking previous [], passed, lines ++ rest⟩
      ⟨(previous.map Draft.close).toList ++ closed, .reading draft place, passed + lines.length,
        rest⟩

variable {dialect : Dialect} {boundary later : List Bytes} {opening : Opening} {draft : Draft}
  {place : Place}

/-- A section is a boundary and lines that are taken after it. -/
theorem readsSection_of_takes (counted : boundary.length = opening.lineCount)
    (opens : ∀ rest, dialect.open? (boundary ++ rest) = .ok (some opening))
    (takes : Takes dialect
      (.reading (.beforeHunks opening.facts boundary) (.header opening.pairSeen)) later
      (.reading draft place))
    (notHunk : ∀ left last, place ≠ .hunk left last) :
    dialect.ReadsSection (boundary ++ later) draft.close where
  starts rest := by
    rw [List.append_assoc, ← open?_ne_none_iff, opens]
    simp
  reaches closed previous passed rest := by
    refine ⟨draft, place, rfl, notHunk, ?_⟩
    have taken := takes ((previous.map Draft.close).toList ++ closed)
      (passed + boundary.length) rest
    have started := Reader.Step.start_append .never closed previous [] passed counted
      (opens (later ++ rest))
    rw [Reader.startDraft_nil] at started
    rw [List.append_assoc, List.length_append, ← Nat.add_assoc]
    exact .head started taken

/-! ## Diffs -/

section Files

variable {File : Type} {lines : File → List Bytes} {record : File → FileRecord}

/-- A reader that stands between two sections reads the sections that follow, and closes them. -/
theorem reaches_of_readsSection {files : List File}
    (reads : ∀ file ∈ files, dialect.ReadsSection (lines file) (record file))
    (closed : List FileRecord) (previous : Option Draft) (passed : Nat) :
    ∃ final, Reader.Reaches dialect .never
        ⟨closed, .seeking previous [], passed, files.flatMap lines⟩ final ∧
      final.ahead = [] ∧
      final.close dialect =
        .ok (closed.reverse ++ (previous.map Draft.close).toList ++ files.map record) := by
  induction files generalizing closed previous passed with
  | nil =>
      refine ⟨_, .refl, rfl, ?_⟩
      cases previous with
      | none => simp [Reader.close]
      | some draft => simp [Reader.close, Draft.close_append_nil]
  | cons file files ih =>
      obtain ⟨draft, place, closes, notHunk, reaches⟩ :=
        (reads file (by simp)).reaches closed previous passed (files.flatMap lines)
      have later : ∀ file ∈ files, dialect.ReadsSection (lines file) (record file) :=
        fun other member => reads other (by simp [member])
      -- The last section is closed at the end of the input, the others at the next boundary.
      cases files with
      | nil =>
          refine ⟨_, reaches, rfl, ?_⟩
          cases place with
          | hunk left last => exact absurd rfl (notHunk left last)
          | header | payload | between => cases previous <;> simp [Reader.close, closes]
      | cons next files =>
          obtain ⟨final, rest, nothing, finalCloses⟩ :=
            ih later ((previous.map Draft.close).toList ++ closed) (some draft)
              (passed + (lines file).length)
          have starts := (later next (by simp)).starts (files.flatMap lines)
          rw [← List.flatMap_cons] at starts
          obtain ⟨line, after, ahead⟩ := exists_cons_of_startsSection starts
          rw [ahead] at starts reaches rest
          refine ⟨final, ?_, nothing, ?_⟩
          · rw [List.flatMap_cons, ahead]
            exact reaches.trans (.head (.inside (.boundary starts notHunk)) rest)
          · rw [finalCloses]
            cases previous <;> simp [closes]

/-- **Sections that are read alone are read one after the other.** -/
theorem parse_flatten_of_readsSection {files : List File}
    (reads : ∀ file ∈ files, dialect.ReadsSection (lines file) (record file))
    (ended : ∀ file ∈ files, ∀ line ∈ lines file, Line.Ended line) :
    dialect.parse (files.flatMap lines).flatten = .ok (files.map record) := by
  have split : Line.split (files.flatMap lines).flatten = files.flatMap lines := by
    refine Line.split_flatten_of_ended fun line member => ?_
    obtain ⟨file, isFile, isLine⟩ := List.mem_flatMap.1 member
    exact ended file isFile line isLine
  obtain ⟨final, reaches, nothing, closes⟩ := reaches_of_readsSection reads [] none 0
  rw [parse_eq_ok_iff_plain, parseWith_eq_ok_iff, split]
  exact ⟨final, reaches, nothing, by simpa using closes⟩

end Files

end Dialect

end DiffSections
