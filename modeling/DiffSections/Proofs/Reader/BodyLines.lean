import DiffSections.Proofs.Reader.Runs

/-!
# DiffSections.Proofs.Reader.BodyLines -- which lines of a diff are taken as body lines of hunks

Whether a line belongs to the body of a hunk is not a matter of the line alone: in a plain unified
diff the lines of a boundary read as a removed and an added line. It depends on where the reader
stands when it comes to the line (`Dialect.TakesBodyAt`). A reader passes each line once. So there
is one reader at most that stands before a line inside a hunk (`Reaches.eq_of_passed`), and what
else is known of the reader there decides whether the line is a body line.
-/

namespace DiffSections

set_option autoImplicit false

namespace Reader

variable {dialect : Dialect} {cuts : CutRule} {start reader before after first second : Reader}

/-- The reader is in a hunk that owes lines, and a context, removed or added line is at hand. -/
def AtBodyLine (reader : Reader) : Prop :=
  ∃ draft left last line lines kind, reader.state = .reading draft (.hunk left last) ∧
    reader.ahead = line :: lines ∧
    BodyLine.ofContent? (Line.content line) = some (.change kind)

/-! ## A reader passes each line once -/

theorem Step.rightUnique : Relator.RightUnique (Step dialect cuts) := by
  intro before first second toFirst toSecond
  obtain ⟨line, lines, ahead⟩ := toFirst.exists_cons
  have stepped := (step_eq_ok_iff ahead).2 toFirst
  rw [(step_eq_ok_iff ahead).2 toSecond] at stepped
  exact (Except.ok.inj stepped).symm

theorem Step.passed_le (stepped : Step dialect cuts before after) :
    before.passed ≤ after.passed := by
  cases stepped with
  | skip | start => exact Nat.le_add_right _ _
  | @inside _ _ _ _ _ _ move _ =>
      cases move with
      | one | two => exact Nat.le_add_right _ _
      | handBack => exact Nat.le_refl _

theorem Reaches.passed_le (reaches : Reaches dialect cuts before after) :
    before.passed ≤ after.passed :=
  reaches.keeps (fun reader => before.passed ≤ reader.passed)
    (fun _ _ stepped kept => Nat.le_trans kept stepped.passed_le) (Nat.le_refl _)

/-- A step into or inside a section takes a line. -/
theorem Step.passed_lt_of_reading {draft : Draft} {place : Place}
    (stepped : Step dialect cuts before after) (inside : after.state = .reading draft place) :
    before.passed < after.passed := by
  cases stepped with
  | skip => exact Nat.lt_add_one _
  | start => exact Nat.lt_add_of_pos_right (lineCount_pos _)
  | @inside _ _ _ _ _ _ move _ =>
      cases move with
      | one | two => exact Nat.lt_add_of_pos_right (by decide)
      | handBack => cases inside

/-- A hunk that owes lines hands none back. -/
theorem Step.passed_lt_of_hunk {draft : Draft} {left : Remaining} {last : Option BodyKind}
    (stepped : Step dialect cuts before after)
    (inHunk : before.state = .reading draft (.hunk left last)) : before.passed < after.passed := by
  cases stepped with
  | skip | start => cases inHunk
  | inside moves =>
      cases inHunk
      cases moves <;> exact Nat.lt_add_one _

/-- A hunk that owes lines was come to by one line. -/
theorem Step.passed_eq_of_hunk {draft : Draft} {left : Remaining} {last : Option BodyKind}
    (stepped : Step dialect cuts before after)
    (inHunk : after.state = .reading draft (.hunk left last)) :
    after.passed = before.passed + 1 := by
  cases stepped with
  | skip | start => cases inHunk
  | inside moves =>
      rw [state_move] at inHunk
      cases moves with
      | headerBoundary | text | payloadBoundary | afterHunks | pair => simp [Move.state] at inHunk
      | _ => rfl

/-- An open hunk owes lines. -/
theorem Step.owes (stepped : Step dialect cuts before after)
    (kept : ∀ draft left last, before.state = .reading draft (.hunk left last) →
      left.isDone = false) :
    ∀ draft left last, after.state = .reading draft (.hunk left last) → left.isDone = false := by
  intro draft left last inHunk
  cases stepped with
  | skip | start => cases inHunk
  | inside moves =>
      rw [state_move] at inHunk
      cases moves with
      | marker =>
          cases inHunk
          exact kept _ _ _ rfl
      | firstHunk | change | nextHunk =>
          simp only [Move.state, ReaderState.reading.injEq, Place.inHunk] at inHunk
          split at inHunk
          · cases inHunk.2
          · rename_i owes
            cases inHunk.2
            exact Bool.eq_false_iff.2 owes
      | headerBoundary | text | payloadBoundary | afterHunks | summary | patch | extended | pair
      | payloadLine | lateMarker => simp [Move.state] at inHunk

theorem Reaches.owes {lines : List Bytes} (reaches : Reaches dialect cuts (ofLines lines) reader) :
    ∀ draft left last, reader.state = .reading draft (.hunk left last) → left.isDone = false :=
  reaches.keeps (fun reader =>
      ∀ draft left last, reader.state = .reading draft (.hunk left last) → left.isDone = false)
    (fun _ _ stepped kept => stepped.owes kept) (fun _ _ _ => nofun)

/-- A hunk that owes lines was just opened by its header, or owed lines before. -/
theorem Step.announced_or_inHunk {draft : Draft} {left : Remaining} {last : Option BodyKind}
    (stepped : Step dialect cuts before after)
    (inHunk : after.state = .reading draft (.hunk left last)) :
    (∃ line lines, before.ahead = line :: lines ∧ Hunk.announcedBy (Line.content line) = true) ∨
      ∃ draft left last, before.state = .reading draft (.hunk left last) := by
  cases stepped with
  | skip | start => cases inHunk
  | inside moves =>
      rw [state_move] at inHunk
      cases moves with
      | firstHunk _ _ _ _ announced | nextHunk announced => exact .inl ⟨_, _, rfl, announced⟩
      | marker | change => exact .inr ⟨_, _, _, rfl⟩
      | headerBoundary | text | payloadBoundary | afterHunks | summary | patch | extended | pair
      | payloadLine | lateMarker => simp [Move.state] at inHunk

/-- **Only one reader stands before a line inside a hunk.** -/
theorem Reaches.eq_of_passed {draft : Draft} {left : Remaining} {last : Option BodyKind}
    (reachesFirst : Reaches dialect cuts start first)
    (reachesSecond : Reaches dialect cuts start second) (same : first.passed = second.passed)
    (inHunk : first.state = .reading draft (.hunk left last)) : first = second := by
  rcases Relation.ReflTransGen.total_of_right_unique Step.rightUnique reachesFirst reachesSecond
    with later | earlier
  · cases later using Relation.ReflTransGen.head_induction_on with
    | refl => rfl
    | head stepped rest =>
        have passes := stepped.passed_lt_of_hunk inHunk
        have goesOn := Reaches.passed_le rest
        omega
  · cases earlier with
    | refl => rfl
    | tail rest stepped =>
        have comes := Reaches.passed_le rest
        have passes := stepped.passed_lt_of_reading inHunk
        omega

end Reader

/-! ## Body lines of a diff -/

/-- From here on, the line with this index is taken as a body line of a hunk. -/
def Reader.TakesBodyAt (dialect : Dialect) (reader : Reader) (index : Nat) : Prop :=
  ∃ before after, Reader.Reaches dialect dialect.cutRule reader before ∧ before.passed = index ∧
    before.AtBodyLine ∧ Reader.Step dialect dialect.cutRule before after

/-- Reading `data`, the line with this index (from zero) is taken as a body line of a hunk. -/
def Dialect.TakesBodyAt (dialect : Dialect) (data : Bytes) (index : Nat) : Prop :=
  (Reader.ofLines (Line.split data)).TakesBodyAt dialect index

namespace Reader

/-! ## The body lines can be listed -/

section Listed

variable {dialect : Dialect} {reader next : Reader} {index : Nat}

instance (reader : Reader) : Decidable reader.AtBodyLine :=
  match state : reader.state, ahead : reader.ahead with
  | .reading draft (.hunk left last), line :: lines =>
      match body : BodyLine.ofContent? (Line.content line) with
      | some (.change kind) => .isTrue ⟨draft, left, last, line, lines, kind, state, ahead, body⟩
      | some .marker | none => .isFalse (by simp [AtBodyLine, ahead, body])
  | .reading draft (.hunk left last), [] => .isFalse (by simp [AtBodyLine, ahead])
  | .reading draft (.header _), _ | .reading draft .payload, _ | .reading draft (.between _), _
  | .seeking _ _, _ => .isFalse (by simp [AtBodyLine, state])

/-- The indices of the lines that are taken as body lines from here on. -/
def bodyIndices (dialect : Dialect) (reader : Reader) : List Nat :=
  match _ahead : reader.ahead with
  | [] => []
  | line :: lines =>
      match _stepped : reader.step dialect dialect.cutRule line lines with
      | .error _ => []
      | .ok next =>
          if reader.AtBodyLine then reader.passed :: next.bodyIndices dialect
          else next.bodyIndices dialect
termination_by reader.debt
decreasing_by all_goals exact debt_step_lt _ahead _stepped

theorem takesBodyAt_of_step (stepped : Step dialect dialect.cutRule reader next) :
    reader.TakesBodyAt dialect index ↔
      reader.passed = index ∧ reader.AtBodyLine ∨ next.TakesBodyAt dialect index := by
  constructor
  · rintro ⟨before, after, reaches, passed, atBody, taken⟩
    rcases reaches.cases_head with rfl | ⟨other, toOther, rest⟩
    · exact .inl ⟨passed, atBody⟩
    · rw [Step.rightUnique toOther stepped] at rest
      exact .inr ⟨before, after, rest, passed, atBody, taken⟩
  · rintro (⟨passed, atBody⟩ | ⟨before, after, reaches, passed, atBody, taken⟩)
    · exact ⟨reader, next, .refl, passed, atBody, stepped⟩
    · exact ⟨before, after, .head stepped reaches, passed, atBody, taken⟩

theorem not_takesBodyAt (stops : ∀ next, ¬ Step dialect dialect.cutRule reader next) :
    ¬ reader.TakesBodyAt dialect index := by
  rintro ⟨before, after, reaches, -, -, taken⟩
  rcases reaches.cases_head with rfl | ⟨other, toOther, -⟩
  · exact stops after taken
  · exact stops other toOther

theorem mem_bodyIndices_iff :
    index ∈ reader.bodyIndices dialect ↔ reader.TakesBodyAt dialect index := by
  fun_induction bodyIndices dialect reader with
  | case1 reader nothing =>
      simp only [List.not_mem_nil, false_iff]
      refine not_takesBodyAt fun next stepped => ?_
      cases stepped <;> cases nothing
  | case2 reader line lines ahead error failed =>
      simp only [List.not_mem_nil, false_iff]
      refine not_takesBodyAt fun next stepped => ?_
      rw [(step_eq_ok_iff ahead).2 stepped] at failed
      cases failed
  | case3 reader line lines ahead next stepped atBody ih =>
      rw [List.mem_cons, takesBodyAt_of_step ((step_eq_ok_iff ahead).1 stepped), ih]
      simp [atBody, eq_comm]
  | case4 reader line lines ahead next stepped other ih =>
      rw [takesBodyAt_of_step ((step_eq_ok_iff ahead).1 stepped), ih]
      simp [other]

instance (dialect : Dialect) (data : Bytes) (index : Nat) :
    Decidable (dialect.TakesBodyAt data index) :=
  decidable_of_iff _ mem_bodyIndices_iff

end Listed

variable {dialect : Dialect} {data : Bytes} {reader before after : Reader} {index : Nat}

/-! ## What is known where a body line is taken -/

/-- Where a body line is taken, the reader is at a body line. -/
theorem Reaches.atBodyLine
    (reaches : Reaches dialect dialect.cutRule (ofLines (Line.split data)) reader)
    (taken : dialect.TakesBodyAt data reader.passed) : reader.AtBodyLine := by
  obtain ⟨taker, _, reachesTaker, same, atBody, -⟩ := taken
  have inHunk := atBody
  obtain ⟨draft, left, last, -, -, -, inHunk, -, -⟩ := inHunk
  rwa [← reachesTaker.eq_of_passed reaches same inHunk]

/-- The line before a body line is the header of its hunk, or stands in the hunk itself. -/
theorem Reaches.announced_or_inHunk
    (reaches : Reaches dialect dialect.cutRule (ofLines (Line.split data)) reader)
    (taken : dialect.TakesBodyAt data (reader.passed + 1)) :
    (∃ line lines, reader.ahead = line :: lines ∧ Hunk.announcedBy (Line.content line) = true) ∨
      ∃ draft left last, reader.state = .reading draft (.hunk left last) := by
  obtain ⟨taker, _, reachesTaker, passed, ⟨draft, left, last, -, -, -, inHunk, -, -⟩, -⟩ := taken
  rcases Relation.ReflTransGen.total_of_right_unique Step.rightUnique reaches reachesTaker
    with later | earlier
  · cases later with
    | refl => omega
    | @tail before _ rest stepped =>
        have reachesBefore : Reaches dialect dialect.cutRule _ before := reaches.trans rest
        have comes := Reaches.passed_le rest
        have passes := stepped.passed_lt_of_reading inHunk
        have same : before.passed = reader.passed := by omega
        rcases stepped.announced_or_inHunk inHunk with ⟨line, lines, ahead, announced⟩ | inside
        · rw [reachesBefore.ahead_eq_drop, same, ← reaches.ahead_eq_drop] at ahead
          exact .inl ⟨line, lines, ahead, announced⟩
        · obtain ⟨draft, left, last, inside⟩ := inside
          rw [← reachesBefore.eq_of_passed reaches same inside]
          exact .inr ⟨draft, left, last, inside⟩
  · have comes := Reaches.passed_le earlier
    omega

/-- Of the lines that one step takes, only the first one can be a body line. -/
theorem Step.eq_passed_of_takesBodyAt
    (reaches : Reaches dialect dialect.cutRule (ofLines (Line.split data)) before)
    (stepped : Step dialect dialect.cutRule before after) (least : before.passed ≤ index)
    (most : index < after.passed) (taken : dialect.TakesBodyAt data index) :
    before.passed = index := by
  obtain ⟨taker, _, reachesTaker, rfl, -, -⟩ := taken
  rcases Relation.ReflTransGen.total_of_right_unique Step.rightUnique reachesTaker reaches
    with later | earlier
  · exact Nat.le_antisymm least (Reaches.passed_le later)
  · cases earlier using Relation.ReflTransGen.head_induction_on with
    | refl => rfl
    | head other rest =>
        have comes := Reaches.passed_le rest
        rw [Step.rightUnique other stepped] at comes
        omega

end Reader

end DiffSections
