import DiffSections.Proofs.Section

/-!
# DiffSections.Proofs.Hunk.Markers -- what the markers in a body say about its hunk

A marker speaks of the body line directly before it, and the hunk notes it for the sides on which
that line stands. So a side is noted if one of its lines is followed by a marker (`Marked`), be it
the last one of the side (`LastMarked`) or one with others after it (`EarlyMarked`). The lines after
a body matter only to its last line (`marked_iff_of_rest`); where that one is not followed by a
marker, what the hunk notes can be said of the body and all lines after it (`NotedIn`). Blocks that
stand one after the other are such, for a header line is no marker (`inTurn_of_filledBy`).
-/

namespace DiffSections

set_option autoImplicit false

theorem BodyLine.ofContent?_eq_marker_iff {content : Bytes} :
    ofContent? content = some .marker ↔ content.head? = some Bytes.backslash := by
  refine ⟨fun isMarker => ?_, ofContent?_of_backslash⟩
  cases content with
  | nil => cases isMarker
  | cons b rest =>
      by_cases marks : b = Bytes.backslash
      · rw [List.head?_cons, marks]
      · simp only [ofContent?] at isMarker
        split_ifs at isMarker <;> cases isMarker

namespace Hunk

/-- A body line, as opposed to a marker. -/
def IsChange (line : Bytes) : Prop :=
  ∃ kind, BodyLine.ofContent? (Line.content line) = some (.change kind)

/-- A body line of a side. -/
def StandsOn (side : Side) (line : Bytes) : Prop :=
  ∃ kind, BodyLine.ofContent? (Line.content line) = some (.change kind) ∧
    kind.standsOn side = true

instance (side : Side) (line : Bytes) : Decidable (StandsOn side line) :=
  match read : BodyLine.ofContent? (Line.content line) with
  | some (.change kind) => decidable_of_iff (kind.standsOn side = true) (by simp [StandsOn, read])
  | some .marker => .isFalse (by simp [StandsOn, read])
  | none => .isFalse (by simp [StandsOn, read])

/-- A marker is the first of these lines. -/
def MarkerFirst (lines : List Bytes) : Prop :=
  ∃ marker ∈ lines.head?, (Line.content marker).head? = some Bytes.backslash

/-- Some line of a side in the body is followed by a marker; `rest` are the lines after the body. -/
def Marked (side : Side) (body rest : List Bytes) : Prop :=
  ∃ before line later, body = before ++ line :: later ∧ StandsOn side line ∧
    MarkerFirst (later ++ rest)

/-- The last line of a side in the body is followed by a marker. -/
def LastMarked (side : Side) (body rest : List Bytes) : Prop :=
  ∃ before line later, body = before ++ line :: later ∧ StandsOn side line ∧
    (∀ other ∈ later, ¬ StandsOn side other) ∧ MarkerFirst (later ++ rest)

/-- A line of a side in the body is followed by a marker, and later by another line of the side. -/
def EarlyMarked (side : Side) (body : List Bytes) : Prop :=
  ∃ before line later, body = before ++ line :: later ∧ StandsOn side line ∧
    MarkerFirst later ∧ ∃ other ∈ later, StandsOn side other

variable {side : Side} {body rest lines : List Bytes} {line : Bytes}

theorem markerFirst_cons :
    MarkerFirst (line :: lines) ↔ (Line.content line).head? = some Bytes.backslash := by
  simp [MarkerFirst]

theorem not_markerFirst_nil : ¬ MarkerFirst [] := by
  simp [MarkerFirst]

theorem markerFirst_append (some_line : lines ≠ []) (more : List Bytes) :
    MarkerFirst (lines ++ more) ↔ MarkerFirst lines := by
  obtain ⟨line, lines, rfl⟩ := List.exists_cons_of_ne_nil some_line
  rw [List.cons_append, markerFirst_cons, markerFirst_cons]

theorem StandsOn.isChange (stands : StandsOn side line) : IsChange line := by
  obtain ⟨kind, change, -⟩ := stands
  exact ⟨kind, change⟩

theorem IsChange.no_marker (change : IsChange line) :
    (Line.content line).head? ≠ some Bytes.backslash := by
  obtain ⟨kind, change⟩ := change
  intro marker
  rw [BodyLine.ofContent?_of_backslash marker] at change
  cases change

theorem marked_iff : Marked side body rest ↔ LastMarked side body rest ∨ EarlyMarked side body := by
  constructor
  · rintro ⟨before, line, later, rfl, stands, marker⟩
    by_cases more : ∃ other ∈ later, StandsOn side other
    · have some_line : later ≠ [] := by
        rintro rfl
        simp at more
      exact .inr ⟨before, line, later, rfl, stands, (markerFirst_append some_line rest).1 marker,
        more⟩
    · exact .inl ⟨before, line, later, rfl, stands, by simpa using more, marker⟩
  · rintro (⟨before, line, later, rfl, stands, -, marker⟩ |
      ⟨before, line, later, rfl, stands, marker, other, isLater, -⟩)
    · exact ⟨before, line, later, rfl, stands, marker⟩
    · have some_line : later ≠ [] := List.ne_nil_of_mem isLater
      exact ⟨before, line, later, rfl, stands, (markerFirst_append some_line rest).2 marker⟩

/-- A side has one last line. -/
theorem lastMarked_iff_of_last {before later : List Bytes} (stands : StandsOn side line)
    (isLast : ∀ other ∈ later, ¬ StandsOn side other) :
    LastMarked side (before ++ line :: later) rest ↔ MarkerFirst (later ++ rest) := by
  constructor
  · rintro ⟨before', line', later', same, stands', isLast', marker⟩
    rcases List.append_eq_append_iff.1 same with ⟨between, -, tails⟩ | ⟨between, -, tails⟩
    · cases between with
      | nil =>
          cases tails
          exact marker
      | cons first between =>
          cases tails
          exact absurd stands' (isLast line' (by simp))
    · cases between with
      | nil =>
          cases tails
          exact marker
      | cons first between =>
          cases tails
          exact absurd stands (isLast' line (by simp))
  · intro marker
    exact ⟨before, line, later, rfl, stands, isLast, marker⟩

/-- The lines after a body speak of its last line only. -/
theorem marked_iff_of_rest :
    Marked side body rest ↔
      Marked side body [] ∨ (∃ line ∈ body.getLast?, StandsOn side line) ∧ MarkerFirst rest := by
  constructor
  · rintro ⟨before, line, later, rfl, stands, marker⟩
    cases later with
    | nil => exact .inr ⟨⟨line, by simp, stands⟩, marker⟩
    | cons next later =>
        refine .inl ⟨before, line, next :: later, rfl, stands, ?_⟩
        rw [List.cons_append, markerFirst_cons] at marker
        rwa [List.append_nil, markerFirst_cons]
  · rintro (⟨before, line, later, rfl, stands, marker⟩ | ⟨⟨line, last, stands⟩, marker⟩)
    · have some_line : later ≠ [] := by
        rintro rfl
        exact not_markerFirst_nil marker
      rw [List.append_nil] at marker
      exact ⟨before, line, later, rfl, stands, (markerFirst_append some_line rest).2 marker⟩
    · obtain ⟨before, rfl⟩ := List.getLast?_eq_some_iff.1 last
      exact ⟨before, line, [], rfl, stands, marker⟩

theorem marked_append_line :
    Marked side (body ++ [line]) [] ↔
      Marked side body [] ∨ (∃ last ∈ body.getLast?, StandsOn side last) ∧
        (Line.content line).head? = some Bytes.backslash := by
  have isFirst : MarkerFirst [line] ↔ _ := markerFirst_cons
  rw [← isFirst, ← marked_iff_of_rest]
  constructor
  · rintro ⟨before, marked, later, same, stands, marker⟩
    rcases List.eq_nil_or_concat later with rfl | ⟨later, last, rfl⟩
    · exact absurd marker not_markerFirst_nil
    · rw [List.concat_eq_append, ← List.cons_append, ← List.append_assoc] at same
      obtain ⟨rfl, sameLine⟩ := List.append_inj' same rfl
      cases sameLine
      exact ⟨before, marked, later, rfl, stands, by simpa using marker⟩
  · rintro ⟨before, marked, later, rfl, stands, marker⟩
    exact ⟨before, marked, later ++ [line], by simp, stands, by simpa using marker⟩

/-! ## What a hunk notes is what the markers say -/

variable {opened hunk : Hunk} {left : Remaining} {last : Option BodyKind} {kind : BodyKind}

/-- A body line at the end of a body is of the kind that is kept. -/
theorem Body.standsOn_of_getLast? (body : Body opened lines hunk left last)
    (isLast : line ∈ lines.getLast?) (stands : StandsOn side line) :
    ∃ kind ∈ last, kind.standsOn side = true := by
  obtain ⟨kind, change, onSide⟩ := stands
  cases body with
  | empty => cases isLast
  | change _ isChange _ =>
      obtain rfl : _ = line := by simpa using isLast
      rw [change] at isChange
      cases isChange
      exact ⟨kind, rfl, onSide⟩
  | marker _ isMarker =>
      obtain rfl : _ = line := by simpa using isLast
      rw [change] at isMarker
      cases isMarker

/-- The line of the kind that is kept ends the body, or a marker behind it has been read. -/
theorem Body.last_or_marked (body : Body opened lines hunk left last) (isLast : kind ∈ last)
    (onSide : kind.standsOn side = true) :
    (∃ line ∈ lines.getLast?, StandsOn side line) ∨ Marked side lines [] := by
  induction body with
  | empty => cases isLast
  | @change _ _ _ _ _ line _ _ isChange _ _ =>
      cases isLast
      exact .inl ⟨line, by simp, kind, isChange, onSide⟩
  | marker _ isMarker ih =>
      rw [marked_append_line]
      rcases ih isLast with stands | marked
      · exact .inr (.inr ⟨stands, BodyLine.ofContent?_eq_marker_iff.1 isMarker⟩)
      · exact .inr (.inl marked)

/-- **A hunk notes a side exactly if a line of that side is followed by a marker.** -/
theorem Body.unended_iff (unread : opened.declared = opened)
    (body : Body opened lines hunk left last) (side : Side) :
    hunk.unended side = true ↔ Marked side lines [] := by
  induction body with
  | empty =>
      rw [← unread]
      refine iff_of_false (by cases side <;> simp [unended, declared]) ?_
      rintro ⟨before, line, later, same, -⟩
      simp at same
  | change before isChange fits ih =>
      rw [unended_count, ih, marked_append_line]
      have isChange : IsChange _ := ⟨_, isChange⟩
      simp [isChange.no_marker]
  | marker before isMarker ih =>
      rw [unended_markUnended, Bool.or_eq_true, ih, marked_append_line]
      have isMarker := BodyLine.ofContent?_eq_marker_iff.1 isMarker
      constructor
      · rintro (marked | onSide)
        · exact .inl marked
        · rcases before.last_or_marked rfl onSide with stands | marked
          · exact .inr ⟨stands, isMarker⟩
          · exact .inl marked
      · rintro (marked | ⟨⟨line, isLast, stands⟩, -⟩)
        · exact .inl marked
        · obtain ⟨kept, same, onSide⟩ := before.standsOn_of_getLast? isLast stands
          cases same
          exact .inr onSide

/-! ## Blocks one after the other -/

/-- The block is the hunk's, `rest` are the lines after it, and what the hunk notes of its sides is
what the markers in these lines say. -/
def NotedIn (hunk : Hunk) (block rest : List Bytes) : Prop :=
  ∃ header body, block = header :: body ∧
    ofHeader? (Line.content header) = some hunk.declared ∧ hunk.Accounts body ⟨0, 0⟩ ∧
    ∀ side, hunk.unended side = true ↔ LastMarked side body rest ∨ EarlyMarked side body

/-- A block for each hunk, one after the other, and `rest` after them. -/
inductive InTurn (rest : List Bytes) : List Hunk → List (List Bytes) → Prop where
  | nil : InTurn rest [] []
  | cons {hunk : Hunk} {hunks : List Hunk} {block : List Bytes} {blocks : List (List Bytes)}
      (noted : hunk.NotedIn block (blocks.flatten ++ rest)) (others : InTurn rest hunks blocks) :
      InTurn rest (hunk :: hunks) (block :: blocks)

/-- A block whose last line is not followed by a marker has all markers of its lines. -/
theorem FilledBy.notedIn {block : List Bytes} (filled : hunk.FilledBy block)
    (settled : ∀ line ∈ block.getLast?, IsChange line → ¬ MarkerFirst rest) :
    hunk.NotedIn block rest := by
  obtain ⟨last, header, opened, body, rfl, opens, read⟩ := filled
  have unread := declared_of_ofHeader? opens
  obtain ⟨same, accounts⟩ := read.accounts unread
  refine ⟨header, body, rfl, by rw [same, opens], accounts, fun side => ?_⟩
  have bySplit : Marked side body rest ↔ _ := marked_iff_of_rest
  rw [read.unended_iff unread, ← marked_iff, bySplit]
  refine (or_iff_left ?_).symm
  rintro ⟨⟨line, isLast, stands⟩, marker⟩
  refine settled line ?_ stands.isChange marker
  rw [List.getLast?_cons, Option.mem_def.1 isLast]
  rfl

theorem FilledBy.not_markerFirst {block : List Bytes} (filled : hunk.FilledBy block)
    (more : List Bytes) : block ≠ [] ∧ ¬ MarkerFirst (block ++ more) := by
  obtain ⟨last, header, opened, body, rfl, opens, -⟩ := filled
  obtain ⟨text, isHeader, -⟩ := exists_of_ofHeader? opens
  refine ⟨by simp, ?_⟩
  rw [List.cons_append, markerFirst_cons, isHeader, List.head?_cons]
  decide

/-- **Only the last line of all blocks can be followed by a marker that no block has.** -/
theorem inTurn_of_filledBy {hunks : List Hunk} {blocks : List (List Bytes)}
    (filled : List.Forall₂ FilledBy hunks blocks)
    (settled : ∀ line ∈ blocks.flatten.getLast?, IsChange line → ¬ MarkerFirst rest) :
    InTurn rest hunks blocks := by
  induction filled with
  | nil => exact .nil
  | @cons hunk block hunks blocks first others ih =>
      rw [List.flatten_cons, List.getLast?_append] at settled
      cases others with
      | nil => exact .cons (first.notedIn (by simpa using settled)) .nil
      | @cons next nextBlock _ later second others =>
          obtain ⟨some_line, noMarker⟩ := second.not_markerFirst (later.flatten ++ rest)
          refine .cons (first.notedIn fun _ _ _ => ?_) (ih fun line isLast => settled line ?_)
          · simpa using noMarker
          · rw [Option.mem_def.1 isLast]
            rfl

end Hunk

end DiffSections
