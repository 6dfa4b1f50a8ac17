import DiffSections.Proofs.Loop.Simulation

/-!
# DiffSections.Proofs.Loop.Turns -- how many turns a loop makes

Nothing in the registers says that a loop comes to an end: it goes on as long as a line is at hand,
and some turns take no line. But where such a turn leaves the line the loop is inside a section, and
from there it goes on to look for one (`Loop.Advances`). A loop that looks for a section takes a
line or halts. So no two turns in a row leave the index where it is, and the turns that are owed,
two for each line and one more inside a section, grow fewer with every turn (`Advances.debt_lt`).

`Loop.runFor` makes so many turns at most, the one that halts included. `Loop.runFor_twice` says
that two for each line are enough for every diff, and that what then comes of the loop is what comes
of the reader.
-/

namespace DiffSections

set_option autoImplicit false

namespace Loop

variable {dialect : Dialect} {lines : List Bytes} {data : Bytes} {loop next later : Loop}

/-! ## What a turn takes -/

/-- A turn goes past a line, or leaves a section with the line at hand still to be read. -/
def Advances (loop next : Loop) : Prop :=
  loop.index < next.index ∨
    (next.index = loop.index ∧ loop.phase ≠ .seeking ∧ next.phase = .seeking)

/-- Two turns in a row go past a line. -/
theorem Advances.index_lt (first : Advances loop next) (second : Advances next later) :
    loop.index < later.index := by
  rcases first with taken | ⟨same, -, seeking⟩
  · rcases second with more | ⟨same, -, -⟩ <;> omega
  · rcases second with taken | ⟨-, inside, -⟩
    · omega
    · exact absurd seeking inside

/-- The turns still owed, at most: two for each line ahead, and one more inside a section. -/
def debt (lines : List Bytes) (loop : Loop) : Nat :=
  2 * (lines.length - loop.index) + if loop.phase = .seeking then 0 else 1

/-- **Every turn pays.** -/
theorem Advances.debt_lt (advances : Advances loop next) (ahead : loop.index < lines.length) :
    next.debt lines < loop.debt lines := by
  rcases advances with taken | ⟨same, inside, seeking⟩
  · unfold debt
    split <;> split <;> omega
  · simp [debt, same, inside, seeking]

/-! ## Every turn advances -/

theorem phase_loop_ne_seeking {draft : Draft} {place : Place} (closed : List FileRecord)
    (passed : Nat) (ahead : List Bytes) (stale : Option BodyKind) :
    (Reader.loop ⟨closed, .reading draft place, passed, ahead⟩ stale).phase ≠ .seeking := by
  cases place <;> nofun

/-- A step of the reader takes a line, unless it hands it back. -/
theorem advances_of_step {reader after : Reader}
    (stepped : Reader.Step dialect dialect.cutRule reader after) (stale stale' : Option BodyKind) :
    Advances (reader.loop stale) (after.loop stale') := by
  rw [Advances, index_loop, index_loop]
  cases stepped with
  | skip => exact .inl (Nat.lt_succ_self _)
  | start => exact .inl (Nat.lt_add_of_pos_right (Reader.lineCount_pos _))
  | @inside _ _ _ _ _ _ move _ =>
      rw [Reader.passed_move]
      cases move with
      | one => exact .inl (Nat.lt_add_of_pos_right Nat.one_pos)
      | two => exact .inl (Nat.lt_add_of_pos_right Nat.two_pos)
      | handBack => exact .inr ⟨rfl, phase_loop_ne_seeking _ _ _ stale, rfl⟩

/-- **Every turn advances**, wherever the loop has come to. -/
theorem Turns.advances (turns : Turns dialect (Line.split data) initial loop)
    (turn : Turn dialect (Line.split data) loop next) : Advances loop next := by
  obtain ⟨reader, stale, rfl, reaches⟩ := turns.exists_reaches
  obtain ⟨after, stale', rfl, stepped⟩ := turn.exists_step reaches
  exact advances_of_step stepped stale stale'

/-! ## So many turns -/

/-- What comes of a loop that makes at most `limit` turns, the one that halts included. Nothing
comes of it if a line is at hand after them. -/
def runFor (dialect : Dialect) (lines : List Bytes) (limit : Nat) (loop : Loop) :
    Option (Except Halt (List FileRecord)) :=
  if lines.length ≤ loop.index then some (loop.finish dialect lines)
  else
    match limit with
    | 0 => none
    | limit + 1 =>
        match loop.step dialect lines with
        | .error halt => some (.error halt)
        | .ok next => runFor dialect lines limit next

/-- What comes of so many turns comes of the loop. -/
theorem ends_of_runFor {limit : Nat} {outcome : Except Halt (List FileRecord)}
    (runs : runFor dialect lines limit loop = some outcome) : Ends dialect lines loop outcome := by
  fun_induction runFor dialect lines limit loop with
  | case1 limit loop past =>
      cases runs
      exact .finish past
  | case2 => cases runs
  | case3 loop ahead limit halt halts =>
      cases runs
      exact .halt (Nat.lt_of_not_le ahead) halts
  | case4 loop ahead limit next steps ih => exact .turn ⟨Nat.lt_of_not_le ahead, steps⟩ (ih runs)

/-- As many turns as are owed are enough. -/
theorem exists_runFor_of_debt_le {limit : Nat}
    (turns : Turns dialect (Line.split data) initial loop)
    (enough : loop.debt (Line.split data) ≤ limit) :
    ∃ outcome, runFor dialect (Line.split data) limit loop = some outcome := by
  induction limit generalizing loop with
  | zero =>
      have past : (Line.split data).length ≤ loop.index := by
        unfold debt at enough
        omega
      rw [runFor, if_pos past]
      exact ⟨_, rfl⟩
  | succ limit ih =>
      rw [runFor]
      split
      case isTrue past => exact ⟨_, rfl⟩
      case isFalse notPast =>
        have ahead := Nat.lt_of_not_le notPast
        cases steps : loop.step dialect (Line.split data) with
        | error halt => exact ⟨_, rfl⟩
        | ok next =>
            have turn : Turn dialect (Line.split data) loop next := ⟨ahead, steps⟩
            have paid := (turns.advances turn).debt_lt ahead
            exact ih (turns.tail turn) (by omega)

/-- **A loop makes two turns for each line at most.** Wherever it has come to, a turn takes a line
or goes from inside a section to look for one with the line at hand, and no two turns in a row take
none. So after two turns for each line the loop has ended, at the end of the lines or where one is
refused, as the reader does. -/
theorem runFor_twice (dialect : Dialect) (data : Bytes) :
    let lines := Line.split data
    (∀ loop next, Turns dialect lines initial loop → Turn dialect lines loop next →
      loop.index < next.index ∨
        (next.index = loop.index ∧ loop.phase ≠ .seeking ∧ next.phase = .seeking)) ∧
    (∀ loop next later, Turns dialect lines initial loop → Turn dialect lines loop next →
      Turn dialect lines next later → loop.index < later.index) ∧
    runFor dialect lines (2 * lines.length) initial =
      some ((dialect.parse data).mapError .refused) := by
  intro lines
  refine ⟨fun loop next turns turn => turns.advances turn, ?_, ?_⟩
  · intro loop next later turns first second
    have further : Turns dialect lines initial next := turns.tail first
    exact (turns.advances first).index_lt (further.advances second)
  · have start : Turns dialect lines initial initial := .refl
    obtain ⟨outcome, runs⟩ := exists_runFor_of_debt_le start (Nat.le_refl (2 * lines.length))
    rw [runs, ends_iff.1 (ends_of_runFor runs)]

/-- A line after a section's boundary: one turn leaves it where it is, and the next one takes it. -/
theorem runFor_twice_handed_back :
    let data := Bytes.ofAscii "diff --git a/x b/x\nnote\n"
    let lines := Line.split data
    ∃ loop next later, Turns .git lines initial loop ∧ Turn .git lines loop next ∧
      Turn .git lines next later ∧ loop.index = 1 ∧ next.index = 1 ∧ next.phase = .seeking ∧
      later.index = 2 ∧ loop.index < later.index ∧
      (loop.index < next.index ∨
        (next.index = loop.index ∧ loop.phase ≠ .seeking ∧ next.phase = .seeking)) ∧
      runFor .git lines 4 initial = some ((Dialect.git.parse data).mapError .refused) := by
  intro data lines
  let boundary : Builder :=
    { Builder.ofFacts (Dialect.factsOfPaths "x" "x") with
      data := Bytes.ofAscii "diff --git a/x b/x\n"
      prepended := true }
  let inside := within [] boundary 1 none (.header false)
  let outside := within [] boundary 1 none .seeking
  let past : Loop := { outside with pending := Bytes.ofAscii "note\n", index := 2 }
  have starts : Turn .git lines initial inside := by decide +kernel
  have leaves : Turn .git lines inside outside := by decide +kernel
  have takes : Turn .git lines outside past := by decide +kernel
  have turns : Turns .git lines initial inside := .single starts
  obtain ⟨advances, goesOn, ends⟩ := runFor_twice .git data
  exact ⟨inside, outside, past, turns, leaves, takes, rfl, rfl, rfl, rfl,
    goesOn inside outside past turns leaves takes, advances inside outside turns leaves, ends⟩

end Loop

end DiffSections
