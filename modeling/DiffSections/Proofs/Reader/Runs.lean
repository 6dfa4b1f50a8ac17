import DiffSections.Proofs.Reader.Moves
import Mathlib.Logic.Relation

/-!
# DiffSections.Proofs.Reader.Runs -- a reading as a sequence of steps

`Reader.Step` is one successful step, `Reader.Reaches` any number of them. A run that succeeds is a
sequence of steps to a reader with nothing ahead (`run_eq_ok_iff`), so what every step keeps holds
at the end of a run (`Reaches.keeps`), and a run can be followed step by step through a known text
(`Reaches.run_eq`).
-/

namespace DiffSections

set_option autoImplicit false

theorem Draft.foldl_append (lines : List Bytes) (draft : Draft) :
    lines.foldl Draft.append draft = { draft with pieces := lines.reverse ++ draft.pieces } := by
  induction lines generalizing draft with
  | nil => rfl
  | cons line lines ih => simp [ih, Draft.append]

theorem Draft.close_append_nil (draft : Draft) : (draft.append []).close = draft.close := by
  simp [Draft.close, Draft.append, Draft.text]

/-- The section in hand. -/
def ReaderState.inHand : ReaderState → Option Draft
  | .seeking previous _ => previous
  | .reading draft _ => some draft

@[simp] theorem ReaderState.inHand_seeking (previous : Option Draft) (pending : List Bytes) :
    (seeking previous pending).inHand = previous := rfl

@[simp] theorem ReaderState.inHand_reading (draft : Draft) (place : Place) :
    (reading draft place).inHand = some draft := rfl

/-- How many lines a move takes. -/
def Move.lineCount : Move → Nat
  | .one _ => 1
  | .two _ => 2
  | .handBack _ => 0

namespace Reader

/-- A new section has its boundary's facts and lines, and the pending text as its preamble. -/
theorem startDraft_eq (opening : Opening) (pending lines : List Bytes) :
    startDraft opening pending lines =
      { toFileFacts := opening.facts
        preamble := some pending.reverse.flatten
        pieces := lines.reverse } := by
  simp [startDraft, Draft.foldl_append, Draft.prepend?, Draft.ofFacts]

/-! ## What taking lines does to a reader -/

@[simp] theorem move_one (reader : Reader) (state : ReaderState) :
    reader.move (.one state) = reader.take 1 state := rfl

@[simp] theorem move_two (reader : Reader) (state : ReaderState) :
    reader.move (.two state) = reader.take 2 state := rfl

@[simp] theorem move_handBack (reader : Reader) (draft : Draft) :
    reader.move (.handBack draft) = { reader with state := .seeking (some draft) [] } := rfl

@[simp] theorem closed_take (reader : Reader) (count : Nat) (state : ReaderState) :
    (reader.take count state).closed = reader.closed := rfl

@[simp] theorem state_take (reader : Reader) (count : Nat) (state : ReaderState) :
    (reader.take count state).state = state := rfl

@[simp] theorem passed_take (reader : Reader) (count : Nat) (state : ReaderState) :
    (reader.take count state).passed = reader.passed + count := rfl

@[simp] theorem ahead_take (reader : Reader) (count : Nat) (state : ReaderState) :
    (reader.take count state).ahead = reader.ahead.drop count := rfl

@[simp] theorem state_move (reader : Reader) (move : Move) :
    (reader.move move).state = move.state := by
  cases move <;> rfl

@[simp] theorem closed_move (reader : Reader) (move : Move) :
    (reader.move move).closed = reader.closed := by
  cases move <;> rfl

theorem passed_move (reader : Reader) (move : Move) :
    (reader.move move).passed = reader.passed + move.lineCount := by
  cases move <;> rfl

theorem ahead_move (reader : Reader) (move : Move) :
    (reader.move move).ahead = reader.ahead.drop move.lineCount := by
  cases move <;> rfl

/-! ## Steps -/

/-- The ways a reader can step: over text between sections, into a section, or inside one. -/
inductive Step (dialect : Dialect) (cuts : CutRule) : Reader → Reader → Prop where
  | skip {closed : List FileRecord} {previous : Option Draft} {pending : List Bytes} {passed : Nat}
      {line : Bytes} {lines : List Bytes}
      (closedSection : dialect.open? (line :: lines) = .ok none) :
      Step dialect cuts ⟨closed, .seeking previous pending, passed, line :: lines⟩
        ⟨closed, .seeking previous (line :: pending), passed + 1, lines⟩
  | start {closed : List FileRecord} {previous : Option Draft} {pending : List Bytes} {passed : Nat}
      {line : Bytes} {lines : List Bytes} {opening : Opening}
      (opens : dialect.open? (line :: lines) = .ok (some opening)) :
      Step dialect cuts ⟨closed, .seeking previous pending, passed, line :: lines⟩
        (start ⟨closed, .seeking previous pending, passed, line :: lines⟩ opening previous pending)
  | inside {closed : List FileRecord} {draft : Draft} {place : Place} {passed : Nat}
      {line : Bytes} {lines : List Bytes} {move : Move}
      (moves : SectionMove dialect cuts draft line lines place move) :
      Step dialect cuts ⟨closed, .reading draft place, passed, line :: lines⟩
        (Reader.move ⟨closed, .reading draft place, passed, line :: lines⟩ move)

variable {dialect : Dialect} {cuts : CutRule} {reader next final : Reader}

theorem step_eq_ok_iff {line : Bytes} {lines : List Bytes} (ahead : reader.ahead = line :: lines) :
    reader.step dialect cuts line lines = .ok next ↔ Step dialect cuts reader next := by
  obtain ⟨closed, state, passed, ahead⟩ := reader
  subst ahead
  cases state with
  | seeking previous pending =>
      simp only [step]
      constructor
      · intro stepped
        split at stepped
        · cases stepped
        · rename_i closedSection
          cases stepped
          exact .skip closedSection
        · rename_i opening opens
          cases stepped
          exact .start opens
      · intro stepped
        cases stepped with
        | skip closedSection => rw [closedSection]; rfl
        | start opens => rw [opens]
  | reading draft place =>
      simp only [step]
      constructor
      · intro stepped
        split at stepped
        · cases stepped
        · rename_i move moved
          cases stepped
          exact .inside (sectionStep_eq_ok_iff.1 moved)
      · intro stepped
        cases stepped with
        | inside moves => rw [moves.sectionStep passed]

/-- Any number of steps. -/
abbrev Reaches (dialect : Dialect) (cuts : CutRule) : Reader → Reader → Prop :=
  Relation.ReflTransGen (Step dialect cuts)

theorem run_nil (ahead : reader.ahead = []) : reader.run dialect cuts = .ok reader := by
  unfold run
  split
  · rfl
  · rename_i some_ahead
    rw [ahead] at some_ahead
    cases some_ahead

theorem run_cons {line : Bytes} {lines : List Bytes} (ahead : reader.ahead = line :: lines) :
    reader.run dialect cuts =
      match reader.step dialect cuts line lines with
      | .error error => .error error
      | .ok next => next.run dialect cuts := by
  rw [run]
  split
  · rename_i none_ahead
    rw [ahead] at none_ahead
    cases none_ahead
  · rename_i line' lines' ahead'
    rw [ahead] at ahead'
    cases ahead'
    split <;> rename_i stepped <;> rw [stepped]

/-- Steps are made at a line. -/
theorem Step.exists_cons (stepped : Step dialect cuts reader next) :
    ∃ line lines, reader.ahead = line :: lines := by
  cases stepped <;> exact ⟨_, _, rfl⟩

theorem Step.run_eq (stepped : Step dialect cuts reader next) :
    reader.run dialect cuts = next.run dialect cuts := by
  obtain ⟨line, lines, ahead⟩ := stepped.exists_cons
  rw [run_cons ahead, (step_eq_ok_iff ahead).2 stepped]

/-- A run goes on from wherever its steps lead. -/
theorem Reaches.run_eq (reaches : Reaches dialect cuts reader next) :
    reader.run dialect cuts = next.run dialect cuts := by
  induction reaches with
  | refl => rfl
  | tail _ stepped ih => rw [ih, stepped.run_eq]

/-- A run that succeeds is a sequence of steps to a reader with nothing ahead. -/
theorem run_eq_ok_iff :
    reader.run dialect cuts = .ok final ↔ Reaches dialect cuts reader final ∧ final.ahead = [] := by
  constructor
  · intro finished
    fun_induction run dialect cuts reader with
    | case1 reader nothing =>
        cases finished
        exact ⟨.refl, nothing⟩
    | case2 => cases finished
    | case3 reader line lines ahead next stepped ih =>
        obtain ⟨reaches, nothing⟩ := ih finished
        exact ⟨.head ((step_eq_ok_iff ahead).1 stepped) reaches, nothing⟩
  · rintro ⟨reaches, nothing⟩
    rw [reaches.run_eq, run_nil nothing]

/-- What every step keeps, every sequence of steps keeps. -/
theorem Reaches.keeps (Inv : Reader → Prop) (reaches : Reaches dialect cuts reader next)
    (stepKeeps : ∀ before after, Step dialect cuts before after → Inv before → Inv after)
    (holds : Inv reader) : Inv next := by
  induction reaches with
  | refl => exact holds
  | tail _ stepped ih => exact stepKeeps _ _ stepped ih

/-- A step takes the lines it counts. -/
theorem Step.ahead_eq_drop {lines : List Bytes} {before after : Reader}
    (stepped : Step dialect cuts before after) (kept : before.ahead = lines.drop before.passed) :
    after.ahead = lines.drop after.passed := by
  cases stepped with
  | skip =>
      dsimp only at kept ⊢
      rw [← List.drop_drop, ← kept, List.drop_one, List.tail_cons]
  | start =>
      dsimp only [Reader.start, take] at kept ⊢
      rw [← List.drop_drop, ← kept]
  | @inside _ _ _ _ _ _ move _ =>
      cases move with
      | handBack draft => exact kept
      | one state | two state =>
          simp only [move_one, move_two, ahead_take, passed_take] at kept ⊢
          rw [← List.drop_drop, ← kept]

/-- The lines ahead are those that were not counted yet. -/
theorem Reaches.ahead_eq_drop {lines : List Bytes}
    (reaches : Reaches dialect cuts (ofLines lines) reader) :
    reader.ahead = lines.drop reader.passed :=
  reaches.keeps (fun reader => reader.ahead = lines.drop reader.passed)
    (fun _ _ stepped kept => stepped.ahead_eq_drop kept) rfl

/-- A section in hand has taken its boundary. -/
theorem Step.passed_pos {before after : Reader} (stepped : Step dialect cuts before after)
    (kept : ∀ draft place, before.state = .reading draft place → 0 < before.passed) :
    ∀ draft place, after.state = .reading draft place → 0 < after.passed := by
  intro draft place inside
  cases stepped with
  | skip => cases inside
  | start => exact Nat.lt_of_lt_of_le (lineCount_pos _) (Nat.le_add_left _ _)
  | @inside _ _ _ _ _ _ move _ =>
      cases move with
      | handBack => cases inside
      | one | two => exact Nat.lt_of_lt_of_le (by decide) (Nat.le_add_left _ _)

theorem Reaches.passed_pos {lines : List Bytes} {draft : Draft} {place : Place}
    (reaches : Reaches dialect cuts (ofLines lines) reader)
    (inside : reader.state = .reading draft place) : 0 < reader.passed :=
  reaches.keeps (fun reader =>
      ∀ draft place, reader.state = .reading draft place → 0 < reader.passed)
    (fun _ _ stepped kept => stepped.passed_pos kept) (fun _ _ => nofun) draft place inside

/-- Sections are closed only when another one is in hand. -/
theorem Step.closed_eq_nil {before after : Reader} (stepped : Step dialect cuts before after)
    (kept : ∀ pending, before.state = .seeking none pending → before.closed = []) :
    ∀ pending, after.state = .seeking none pending → after.closed = [] := by
  intro pending seeking
  cases stepped with
  | skip =>
      cases seeking
      exact kept _ rfl
  | start => cases seeking
  | inside moves => cases moves <;> cases seeking

theorem Reaches.closed_eq_nil {lines : List Bytes} {pending : List Bytes}
    (reaches : Reaches dialect cuts (ofLines lines) reader)
    (seeking : reader.state = .seeking none pending) : reader.closed = [] :=
  reaches.keeps (fun reader =>
      ∀ pending, reader.state = .seeking none pending → reader.closed = [])
    (fun _ _ stepped kept => stepped.closed_eq_nil kept) (fun _ _ => rfl) pending seeking

/-- Inside a section, but in no hunk, the section is closed as it is. -/
theorem close_reading {draft : Draft} {place : Place}
    (notHunk : ∀ left last, place ≠ .hunk left last) (closed : List FileRecord) (passed : Nat)
    (ahead : List Bytes) :
    Reader.close dialect ⟨closed, .reading draft place, passed, ahead⟩ =
      .ok (draft.close :: closed).reverse := by
  cases place with
  | hunk left last => exact absurd rfl (notHunk left last)
  | header | payload | between => rfl

/-- The ways to close at the end of the input: inside a section but not in a hunk, in the text after
a section, and in a blank text without sections. -/
theorem close_eq_ok {records : List FileRecord} (closes : reader.close dialect = .ok records) :
    (∃ draft place, reader.state = .reading draft place ∧ (∀ left last, place ≠ .hunk left last) ∧
      records = reader.closed.reverse ++ [draft.close]) ∨
    (∃ draft pending, reader.state = .seeking (some draft) pending ∧
      records = reader.closed.reverse ++ [(draft.append pending.reverse.flatten).close]) ∨
    (∃ pending, reader.state = .seeking none pending ∧
      pending.all (·.all Bytes.isBlank) = true ∧ records = reader.closed.reverse) := by
  unfold close at closes
  split at closes
  · cases closes
  · rename_i draft place notHunk inside
    cases closes
    exact .inl ⟨draft, place, inside, notHunk, by simp⟩
  · rename_i draft pending seeking
    cases closes
    exact .inr (.inl ⟨draft, pending, seeking, by simp⟩)
  · rename_i pending seeking
    split at closes
    · rename_i blank
      cases closes
      exact .inr (.inr ⟨pending, seeking, blank, rfl⟩)
    · cases closes

end Reader

namespace Dialect

variable {dialect : Dialect} {cuts : CutRule} {data : Bytes} {records : List FileRecord}

theorem parseWith_eq_bind (dialect : Dialect) (cuts : CutRule) (data : Bytes) :
    dialect.parseWith cuts data =
      ((Reader.ofLines (Line.split data)).run dialect cuts).bind (Reader.close dialect) := by
  unfold parseWith
  cases (Reader.ofLines (Line.split data)).run dialect cuts <;> rfl

/-- A diff is read into `records` when the reader gets through its lines and can close there. -/
theorem parseWith_eq_ok_iff :
    dialect.parseWith cuts data = .ok records ↔
      ∃ final, Reader.Reaches dialect cuts (Reader.ofLines (Line.split data)) final ∧
        final.ahead = [] ∧ final.close dialect = .ok records := by
  unfold parseWith
  constructor
  · intro parsed
    split at parsed
    · cases parsed
    · rename_i final finished
      obtain ⟨reaches, nothing⟩ := Reader.run_eq_ok_iff.1 finished
      exact ⟨final, reaches, nothing, parsed⟩
  · rintro ⟨final, reaches, nothing, closes⟩
    rw [Reader.run_eq_ok_iff.2 ⟨reaches, nothing⟩]
    exact closes

/-- A diff whose records look some way is read. -/
theorem exists_parse_of_look {α : Type} (dialect : Dialect) (data : Bytes)
    (look : List FileRecord → α) (found : α)
    (read : (dialect.parse data).toOption.map look = some found) :
    ∃ records, dialect.parse data = .ok records ∧ look records = found := by
  cases parsed : dialect.parse data with
  | error error =>
      rw [parsed] at read
      cases read
  | ok records =>
      rw [parsed] at read
      exact ⟨records, rfl, Option.some.inj read⟩

/-- A diff that is read into some number of records is read. -/
theorem exists_parse_of_length (dialect : Dialect) (data : Bytes) (count : Nat)
    (read : (dialect.parse data).toOption.map List.length = some count) :
    ∃ records, dialect.parse data = .ok records ∧ records.length = count :=
  dialect.exists_parse_of_look data List.length count read

end Dialect

end DiffSections
