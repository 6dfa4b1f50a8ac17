import DiffSections.Proofs.Dialect
import DiffSections.Proofs.Hunk.Body
import DiffSections.Proofs.Reader.Runs

/-!
# DiffSections.Proofs.Reader.Locality -- how far ahead a step looks

Whether a section starts at a line is decided by this line and the one after it
(`Dialect.startsSection_congr`), and a boundary is one line or two, whatever comes after them
(`Dialect.open?_eq_some`). So a boundary that is put after some lines changes nothing about them
(`Dialect.startsSection_append`): it is not the second line of a pair. A line that a section takes
outside its hunks starts no section, whatever comes after it (`SectionMove.startsSection_eq_false`),
and a move of a section is made with other lines after the one at hand too, as long as they leave it
what it is (`SectionMove.of_lines`). The lines that are taken are there, each once
(`Reader.Reaches.passed_add_length`).
-/

namespace DiffSections

set_option autoImplicit false

theorem BodyLine.head?_of_marker {content : Bytes} (marks : ofContent? content = some .marker) :
    content.head? = some Bytes.backslash := by
  cases content with
  | nil => cases marks
  | cons b rest =>
      simp only [ofContent?] at marks
      split_ifs at marks with _ _ _ isBackslash <;> try cases marks
      rw [isBackslash, List.head?_cons]

namespace Dialect

open Bytes

variable {dialect : Dialect} {line : Bytes} {lines lines' more : List Bytes}

/-! ## A line and the one after it -/

theorem startsSection_congr (same : lines.head? = lines'.head?) :
    dialect.startsSection (line :: lines) = dialect.startsSection (line :: lines') := by
  cases dialect with
  | git => rfl
  | unified =>
      cases lines <;> cases lines' <;> cases same <;> rfl

/-- The opening that a line starts with depends on the next line only. -/
theorem open?_congr (same : lines.head? = lines'.head?) :
    dialect.open? (line :: lines) = dialect.open? (line :: lines') := by
  cases dialect with
  | git => rfl
  | unified =>
      cases lines <;> cases lines' <;> cases same <;> rfl

theorem open?_eq_none_iff :
    dialect.open? lines = .ok none ↔ dialect.startsSection lines = false := by
  rw [← Bool.not_eq_true, ← open?_ne_none_iff, ne_eq, not_not]

/-- A boundary is not the second line of a pair. -/
theorem startsSection_cons_of_startsSection (line : Bytes)
    (boundary : dialect.startsSection more = true) :
    dialect.startsSection (line :: more) = dialect.startsSection [line] := by
  cases dialect with
  | git => rfl
  | unified =>
      obtain ⟨next, later, rfl⟩ := exists_cons_of_startsSection boundary
      have notNew : (Line.content next).startsWith newHead = false := by
        refine Bool.eq_false_iff.2 fun starts => ?_
        obtain ⟨tail, isNew⟩ := startsWith_iff.1 starts
        obtain ⟨rest, git | orig⟩ := content_of_startsSection boundary
        · rw [git] at isNew
          exact absurd (List.cons.inj isNew).1 (by decide)
        · rw [orig] at isNew
          exact absurd (List.cons.inj isNew).1 (by decide)
      simp [startsSection, notNew]

/-- **A boundary that comes later changes nothing.** -/
theorem startsSection_append (line : Bytes) (lines : List Bytes)
    (boundary : dialect.startsSection more = true) :
    dialect.startsSection (line :: lines ++ more) = dialect.startsSection (line :: lines) := by
  cases lines with
  | nil => exact startsSection_cons_of_startsSection line boundary
  | cons next lines => exact startsSection_congr rfl

/-- A boundary is one line, or it is two lines of which the second one is that of a new file. What
comes after these lines does not matter. -/
theorem open?_eq_some {opening : Opening} (opens : dialect.open? lines = .ok (some opening)) :
    (∃ line later, lines = line :: later ∧ opening.lineCount = 1 ∧
      ∀ later', dialect.open? (line :: later') = .ok (some opening)) ∨
    (∃ line next later rest, lines = line :: next :: later ∧ opening.lineCount = 2 ∧
      after? newHead (Line.content next) = some rest ∧
      ∀ later', dialect.open? (line :: next :: later') = .ok (some opening)) := by
  cases dialect with
  | git =>
      cases lines with
      | nil => cases opens
      | cons line later =>
          refine .inl ⟨line, later, rfl, ?_, fun _ => opens⟩
          simp only [open?] at opens
          split at opens
          · cases opens
          · split at opens
            · cases opens
              rfl
            · cases opens
  | unified =>
      cases lines with
      | nil => cases opens
      | cons line later =>
          cases later with
          | nil => cases opens
          | cons next later =>
              have kept := opens
              simp only [open?] at opens
              split at opens
              · rename_i newLine
                refine .inr ⟨line, next, later, _, rfl, ?_, newLine, fun _ => kept⟩
                rw [← Option.some.inj (Except.ok.inj opens)]
                rfl
              · cases opens

theorem exists_boundary_of_opens {opening : Opening}
    (opens : dialect.open? lines = .ok (some opening)) :
    ∃ boundary rest, lines = boundary ++ rest ∧ boundary.length = opening.lineCount ∧
      ∀ rest', dialect.open? (boundary ++ rest') = .ok (some opening) := by
  rcases open?_eq_some opens with ⟨line, later, rfl, one, opens⟩ |
    ⟨line, next, later, _, rfl, two, -, opens⟩
  · exact ⟨[line], later, rfl, one.symm, opens⟩
  · exact ⟨[line, next], later, rfl, two.symm, opens⟩

/-! ## Lines that start no section, whatever comes after them -/

theorem startsSection_of_announced (announced : Hunk.announcedBy (Line.content line) = true)
    (lines : List Bytes) : dialect.startsSection (line :: lines) = false := by
  obtain ⟨rest, content⟩ := startsWith_iff.1 announced
  exact startsSection_cons dialect content (by decide) (by decide) lines

theorem startsSection_of_marker (marks : BodyLine.ofContent? (Line.content line) = some .marker)
    (lines : List Bytes) : dialect.startsSection (line :: lines) = false := by
  obtain ⟨rest, content⟩ := List.head?_eq_some_iff.1 (BodyLine.head?_of_marker marks)
  exact startsSection_cons dialect content (by decide) (by decide) lines

theorem startsSection_of_new {rest : Bytes}
    (newLine : Bytes.after? newHead (Line.content line) = some rest) (lines : List Bytes) :
    dialect.startsSection (line :: lines) = false :=
  startsSection_cons dialect (after?_eq_some_iff.1 newLine) (by decide) (by decide) lines

/-- The second line of a boundary starts no section itself. -/
theorem startsSection_drop_of_opens {opening : Opening} {count : Nat}
    (opens : dialect.open? lines = .ok (some opening)) (least : 0 < count)
    (most : count < opening.lineCount) : dialect.startsSection (lines.drop count) = false := by
  rcases open?_eq_some opens with ⟨line, later, -, one, -⟩ |
    ⟨line, next, later, _, rfl, two, newLine, -⟩
  · omega
  · obtain rfl : count = 1 := by omega
    exact startsSection_of_new newLine later

theorem startsSection_of_notice {notice : BinaryNotice}
    (marked : dialect.binaryNotice? (Line.content line) = some notice) (lines : List Bytes) :
    dialect.startsSection (line :: lines) = false := by
  refine Bool.eq_false_iff.2 fun starts => ?_
  have plain : dialect.binaryNotice? (Line.content line) = none := by
    obtain ⟨rest, git | orig⟩ := content_of_startsSection starts
    · rw [git]
      exact dialect.binaryNotice?_cons (by decide) (by decide) _
    · rw [orig]
      exact dialect.binaryNotice?_cons (by decide) (by decide) _
  rw [plain] at marked
  cases marked

end Dialect

namespace SectionMove

variable {dialect : Dialect} {cuts : CutRule} {draft : Draft} {line : Bytes} {lines : List Bytes}
  {place : Place} {move : Move}

/-- **A line that is taken outside hunks starts no section**, whatever comes after it. -/
theorem startsSection_eq_false (moves : SectionMove dialect cuts draft line lines place move)
    (takes : ∀ later, move ≠ .handBack later) (notHunk : ∀ left last, place ≠ .hunk left last)
    (payload : place = .payload → dialect = .git) (lines' : List Bytes) :
    dialect.startsSection (line :: lines') = false := by
  cases moves with
  | headerBoundary | text | payloadBoundary | afterHunks => exact absurd rfl (takes draft)
  | marker | change => exact absurd rfl (notHunk _ _)
  | summary _ notice | patch _ notice => exact Dialect.startsSection_of_notice notice lines'
  | firstHunk _ _ _ _ announced | nextHunk announced =>
      exact Dialect.startsSection_of_announced announced lines'
  | lateMarker marks =>
      exact Dialect.startsSection_of_marker (BodyLine.ofContent?_of_backslash marks) lines'
  | payloadLine stays =>
      cases payload rfl
      exact stays
  | extended stays _ header =>
      cases dialect with
      | unified => cases header
      | git => exact stays
  | pair stays _ _ origLine ahead newLine =>
      subst ahead
      cases dialect with
      | unified => simp [Dialect.startsSection, Bytes.startsWith, origLine, newLine] at stays
      | git => exact stays

/-- A move that takes two lines has two. -/
theorem exists_next {state : ReaderState}
    (moves : SectionMove dialect cuts draft line lines place (.two state)) :
    ∃ next later, lines = next :: later := by
  cases moves with
  | pair _ _ _ _ ahead => exact ⟨_, _, ahead⟩

/-- **A move is made with other lines ahead too**, if they leave the line at hand what it is. -/
theorem of_lines {cuts' : CutRule} {lines' : List Bytes}
    (moves : SectionMove dialect cuts draft line lines place move)
    (same : (∀ left last, place ≠ .hunk left last) →
      dialect.startsSection (line :: lines') = dialect.startsSection (line :: lines))
    (next : ∀ state, move = .two state → lines'.head? = lines.head?)
    (uncut : ∀ left last, place = .hunk left last → cuts' left (line :: lines') = false) :
    SectionMove dialect cuts' draft line lines' place move := by
  cases moves with
  | headerBoundary starts => exact .headerBoundary ((same (by simp)).trans starts)
  | summary stays notice => exact .summary ((same (by simp)).trans stays) notice
  | patch stays notice => exact .patch ((same (by simp)).trans stays) notice
  | extended stays plain header =>
      exact .extended ((same (by simp)).trans stays) plain header
  | @pair _ _ second later stays plain noHeader origLine ahead newLine =>
      have follows : lines'.head? = some second := by rw [next _ rfl, ahead, List.head?_cons]
      obtain ⟨later', ahead'⟩ := List.head?_eq_some_iff.1 follows
      exact .pair ((same (by simp)).trans stays) plain noHeader origLine ahead' newLine
  | firstHunk stays plain notOrig notNew announced opens =>
      exact .firstHunk ((same (by simp)).trans stays) plain notOrig notNew announced opens
  | text stays plain noHeader notOrig notNew notHunk =>
      exact .text ((same (by simp)).trans stays) plain noHeader notOrig notNew notHunk
  | payloadBoundary starts => exact .payloadBoundary ((same (by simp)).trans starts)
  | payloadLine stays => exact .payloadLine ((same (by simp)).trans stays)
  | marker _ body => exact .marker (uncut _ _ rfl) body
  | change _ body fits => exact .change (uncut _ _ rfl) body fits
  | lateMarker marks => exact .lateMarker marks
  | nextHunk announced opens => exact .nextHunk announced opens
  | afterHunks unmarked notHunk => exact .afterHunks unmarked notHunk

end SectionMove

/-! ## Lines are counted as they are taken -/

namespace Reader

variable {dialect : Dialect} {cuts : CutRule} {reader before after : Reader}

/-- A reader takes the lines it counts, each once. -/
theorem Step.passed_add_length (stepped : Step dialect cuts before after) :
    after.passed + after.ahead.length = before.passed + before.ahead.length := by
  cases stepped with
  | skip => simp only [List.length_cons]; omega
  | start opens =>
      obtain ⟨boundary, rest, ahead, counted, -⟩ := Dialect.exists_boundary_of_opens opens
      simp only [Reader.start, take, ahead, ← counted, List.drop_left, List.length_append]
      omega
  | @inside _ _ _ _ line lines move moves =>
      have taken : move.lineCount ≤ (line :: lines).length := by
        cases move with
        | handBack | one => simp [Move.lineCount]
        | two =>
            obtain ⟨next, later, rfl⟩ := moves.exists_next
            simp [Move.lineCount]
      rw [passed_move, ahead_move, List.length_drop]
      dsimp only
      omega

/-- No line is put back. -/
theorem Step.ahead_length_le (stepped : Step dialect cuts before after) :
    after.ahead.length ≤ before.ahead.length := by
  cases stepped with
  | skip => simp
  | start => simp [Reader.start]
  | inside => simp [ahead_move]

theorem Reaches.ahead_length_le (reaches : Reaches dialect cuts before after) :
    after.ahead.length ≤ before.ahead.length :=
  reaches.keeps (fun reader => reader.ahead.length ≤ before.ahead.length)
    (fun _ _ stepped kept => Nat.le_trans stepped.ahead_length_le kept) (Nat.le_refl _)

theorem Reaches.passed_add_length {all : List Bytes}
    (reaches : Reaches dialect cuts (ofLines all) reader) :
    reader.passed + reader.ahead.length = all.length :=
  reaches.keeps (fun reader => reader.passed + reader.ahead.length = all.length)
    (fun _ _ stepped kept => stepped.passed_add_length.trans kept) (Nat.zero_add _)

end Reader

/-! ## Payloads are a matter of the git dialect -/

namespace Reader

variable {dialect : Dialect} {cuts : CutRule} {reader before after : Reader}

theorem Step.git_of_payload (stepped : Step dialect cuts before after)
    (kept : ∀ draft, before.state = .reading draft .payload → dialect = .git) :
    ∀ draft, after.state = .reading draft .payload → dialect = .git := by
  intro draft inside
  cases stepped with
  | skip | start => cases inside
  | inside moves =>
      rw [state_move] at inside
      cases moves with
      | patch _ notice =>
          cases dialect with
          | git => rfl
          | unified =>
              simp only [Dialect.binaryNotice?] at notice
              split at notice <;> cases notice
      | payloadLine => exact kept _ rfl
      | firstHunk | change | nextHunk =>
          simp only [Move.state, ReaderState.reading.injEq, Place.inHunk] at inside
          split at inside <;> cases inside.2
      | headerBoundary | text | payloadBoundary | afterHunks | summary | extended | pair | marker
      | lateMarker => simp [Move.state] at inside

theorem Reaches.git_of_payload {lines : List Bytes} {draft : Draft}
    (reaches : Reaches dialect cuts (ofLines lines) reader)
    (inside : reader.state = .reading draft .payload) : dialect = .git :=
  reaches.keeps (fun reader => ∀ draft, reader.state = .reading draft .payload → dialect = .git)
    (fun _ _ stepped kept => stepped.git_of_payload kept) (fun _ => nofun) draft inside

end Reader

end DiffSections
