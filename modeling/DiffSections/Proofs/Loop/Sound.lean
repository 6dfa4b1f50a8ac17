import DiffSections.Proofs.HunkAccounting
import DiffSections.Proofs.Loop.Simulation
import DiffSections.Proofs.Reader.BodyLines

/-!
# DiffSections.Proofs.Loop.Sound -- the registers of a loop fit each other

The registers of a loop could be at odds: a hunk without a section, text that waits inside a
section, a preamble longer than its buffer. Where the loop comes to they are not (`Loop.Sound`).
Inside a section there is one, so no line is passed over for want of it, and the lines before the
one at hand are all held, octet for octet. A hunk owes lines, and what it declares are these and the
lines after its header. The section in hand was given its preamble, which is not all of its buffer.

The registers are those of a reader (`Loop.Turns.exists_reaches`), so what they have in common is
what was shown of readers: of their lines, their hunks and what they have taken. With that
`Dialect.loop_sound` says that a loop ends as the reader does and never with a panic, and that both
questions about a boundary have the same answer.
-/

namespace DiffSections

set_option autoImplicit false

namespace Loop

/-- What the registers hold, in the order of the diff: the closed sections, the one in hand, and the
text after it. -/
def held (loop : Loop) : Bytes :=
  loop.closed.reverse.flatMap FileRecord.data ++ (loop.current.map (·.data)).getD [] ++ loop.pending

/-- A hunk that owes `left` is the newest of the section in hand. What it declares and does not owe
are the lines after its header, the last that were taken. -/
def InHunk (lines : List Bytes) (loop : Loop) (left : Remaining) : Prop :=
  ∃ builder hunk older header body, loop.current = some builder ∧
    builder.hunks = hunk :: older ∧ header :: body <:+ lines.take loop.index ∧
    Hunk.ofHeader? (Line.content header) = some hunk.declared ∧ hunk.Accounts body left

/-- What holds of the registers whenever the loop asks whether a line is at hand. -/
structure Sound (lines : List Bytes) (loop : Loop) : Prop where
  /-- Inside a section there is one, and no text waits for the next. -/
  within : loop.phase ≠ .seeking → loop.current ≠ none ∧ loop.pending = []
  index_le : loop.index ≤ lines.length
  inHunk : ∀ left, loop.phase = .hunk left → left.isDone = false ∧ loop.InHunk lines left
  /-- The section in hand has had its preamble, and lines after it. -/
  current : ∀ builder, loop.current = some builder →
    builder.prepended = true ∧ builder.preambleLen < builder.data.length
  /-- The lines before the one at hand are all there. -/
  held : loop.held = (lines.take loop.index).flatten

/-! ## The registers of a reader are sound -/

variable {dialect : Dialect} {data : Bytes} {reader : Reader}

/-- The lines that are not ahead were taken. -/
theorem take_passed {lines : List Bytes}
    (reaches : Reader.Reaches dialect dialect.cutRule (Reader.ofLines lines) reader)
    {earlier : List Bytes} (split : earlier ++ reader.ahead = lines) :
    lines.take reader.passed = earlier := by
  have kept := reaches.ahead_eq_drop
  have halves := List.take_append_drop reader.passed lines
  rw [← kept, ← split] at halves
  rw [← split]
  exact List.append_cancel_right halves

theorem held_loop (reader : Reader) (stale : Option BodyKind) :
    (reader.loop stale).held = reader.taken := by
  obtain ⟨closed, state, passed, ahead⟩ := reader
  cases state with
  | seeking previous pending =>
      cases previous <;> simp [held, Reader.loop, Reader.taken, ReaderState.held, Draft.builder]
  | reading draft place =>
      simp [held, Reader.loop, Reader.taken, ReaderState.held, Draft.builder]

theorem current_loop {builder : Builder} {stale : Option BodyKind}
    (current : (reader.loop stale).current = some builder) :
    ∃ draft, reader.state.inHand = some draft ∧ builder = draft.builder := by
  obtain ⟨closed, state, passed, ahead⟩ := reader
  cases state with
  | seeking previous pending =>
      obtain ⟨draft, inHand, rfl⟩ := Option.map_eq_some_iff.1 current
      exact ⟨draft, inHand, rfl⟩
  | reading draft place => exact ⟨draft, rfl, (Option.some.inj current).symm⟩

theorem within_loop {stale : Option BodyKind} (inside : (reader.loop stale).phase ≠ .seeking) :
    ∃ draft place, reader.state = .reading draft place := by
  obtain ⟨closed, state, passed, ahead⟩ := reader
  cases state with
  | seeking => exact absurd rfl inside
  | reading draft place => exact ⟨draft, place, rfl⟩

theorem inHunk_loop {left : Remaining} {stale : Option BodyKind}
    (reaches : Reader.Reaches dialect dialect.cutRule (Reader.ofLines (Line.split data)) reader)
    (phase : (reader.loop stale).phase = .hunk left) :
    left.isDone = false ∧ (reader.loop stale).InHunk (Line.split data) left := by
  have notSeeking : (reader.loop stale).phase ≠ .seeking := by
    rw [phase]
    nofun
  obtain ⟨draft, place, inside⟩ := within_loop notSeeking
  have same : (reader.loop stale).phase = place.phase := by simp [Reader.loop, inside]
  obtain ⟨last, rfl⟩ := Place.eq_hunk_of_phase (same.symm.trans phase)
  refine ⟨reaches.owes draft left last inside, ?_⟩
  have laidOut := reaches.laidOut.state
  obtain ⟨earlier, split⟩ := reaches.follows
  rw [inside] at laidOut split
  obtain ⟨hunk, older, lead, blocks, block, hunks, pieces, -, -, read⟩ := laidOut.2
  obtain ⟨header, opened, body, rfl, opens, read⟩ := read
  obtain ⟨rfl, accounts⟩ := read.accounts (Hunk.declared_of_ofHeader? opens)
  refine ⟨draft.builder, hunk, older, header, body, by simp [Reader.loop, inside], hunks, ?_, opens,
    accounts⟩
  have taken : (Line.split data).take reader.passed = earlier ++ draft.pieces.reverse :=
    take_passed reaches (by rw [List.append_assoc]; exact split)
  rw [index_loop, taken, pieces, ← List.append_assoc]
  exact List.suffix_append _ _

theorem sound_of_reaches
    (reaches : Reader.Reaches dialect dialect.cutRule (Reader.ofLines (Line.split data)) reader)
    (stale : Option BodyKind) : (reader.loop stale).Sound (Line.split data) where
  within inside := by
    obtain ⟨draft, place, state⟩ := within_loop inside
    simp [Reader.loop, state]
  index_le := by
    rw [index_loop, ← reaches.passed_add_length]
    exact Nat.le_add_right _ _
  inHunk left := inHunk_loop reaches
  current builder current := by
    obtain ⟨draft, inHand, rfl⟩ := current_loop current
    refine ⟨Option.isSome_iff_ne_none.2 (reaches.preamble_ne_none inHand), ?_⟩
    have filled : 0 < draft.text.length := List.length_pos_iff.2 (reaches.text_ne_nil inHand)
    simpa [Draft.builder, Draft.data] using filled
  held := by
    rw [held_loop, index_loop]
    have kept := reaches.taken_append_ahead
    rw [Reader.taken_ofLines, List.nil_append, reaches.ahead_eq_drop] at kept
    refine List.append_cancel_right (kept.trans ?_)
    rw [← List.flatten_append, List.take_append_drop]
    rfl

end Loop

/-! ## No panic -/

namespace Dialect

/-- Both questions about a boundary have the same answer, and its lines are there. -/
theorem startsAt_iff (dialect : Dialect) (lines : List Bytes) (index : Nat) :
    dialect.startsAt lines index = true ↔ dialect.begin? lines index ≠ .ok none := by
  rw [startsAt_eq, ← open?_ne_none_iff, begin?_eq]
  cases dialect.open? (lines.drop index) <;> simp [Except.mapError]

theorem begin?_ne_panicked (dialect : Dialect) (lines : List Bytes) (index : Nat) (panic : Panic) :
    dialect.begin? lines index ≠ .error (.panicked panic) := by
  rw [begin?_eq]
  cases dialect.open? (lines.drop index) <;> simp [Except.mapError]

theorem lineCount_of_begin? {dialect : Dialect} {lines : List Bytes} {index : Nat}
    {opening : Opening} (begins : dialect.begin? lines index = .ok (some opening)) :
    index + opening.lineCount ≤ lines.length := by
  rw [begin?_eq] at begins
  cases opens : dialect.open? (lines.drop index) with
  | error fault =>
      rw [opens] at begins
      cases begins
  | ok answer =>
      rw [opens] at begins
      cases begins
      obtain ⟨boundary, rest, split, counted, -⟩ := exists_boundary_of_opens opens
      have lengths := congrArg List.length split
      have some_line := Reader.lineCount_pos opening
      rw [List.length_drop, List.length_append, counted] at lengths
      omega

/-- **A loop never panics, and never wants for a section.** It ends as the reader does. Where it
comes to the registers fit each other, and it does not panic from there on; wherever a boundary is
asked for, it starts a section or is refused, and its lines are there. -/
theorem loop_sound (dialect : Dialect) (data : Bytes) :
    let lines := Line.split data
    (∀ outcome, Loop.Ends dialect lines .initial outcome ↔
      outcome = (dialect.parse data).mapError .refused) ∧
    (∀ loop, Loop.Turns dialect lines .initial loop →
      loop.Sound lines ∧
        ∀ panic, ¬ Loop.Ends dialect lines loop (.error (.panicked panic))) ∧
    (∀ index,
      (dialect.startsAt lines index = true ↔ dialect.begin? lines index ≠ .ok none) ∧
      (∀ panic, dialect.begin? lines index ≠ .error (.panicked panic)) ∧
      ∀ opening, dialect.begin? lines index = .ok (some opening) →
        index + opening.lineCount ≤ lines.length) := by
  intro lines
  refine ⟨fun outcome => Loop.ends_iff, fun loop turns => ⟨?_, fun panic ends => ?_⟩,
    fun index => ⟨startsAt_iff dialect lines index, begin?_ne_panicked dialect lines index,
      fun opening => lineCount_of_begin?⟩⟩
  · obtain ⟨reader, stale, rfl, reaches⟩ := turns.exists_reaches
    exact Loop.sound_of_reaches reaches stale
  · have answered := Loop.ends_iff.1 (turns.ends ends)
    cases parsed : dialect.parse data <;> rw [parsed] at answered <;> cases answered

/-- Three turns into a section: the hunk has a line, and owes another on either side. -/
theorem loop_sound_open_hunk :
    let data := Bytes.ofAscii "--- a\n+++ b\n@@ -1,2 +1 @@\n-p\n+q\n"
    let lines := Line.split data
    ∃ loop, Loop.Turns .unified lines .initial loop ∧ loop.phase = .hunk ⟨1, 1⟩ ∧
      loop.Sound lines ∧ (∀ panic, ¬ Loop.Ends .unified lines loop (.error (.panicked panic))) ∧
      (unified.startsAt lines 0 = true ↔ unified.begin? lines 0 ≠ .ok none) := by
  intro data lines
  let pair : Builder :=
    { Builder.ofFacts (factsOfPaths "a" "b") with
      data := Bytes.ofAscii "--- a\n+++ b\n"
      prepended := true }
  let hunk : Hunk := { origStart := 1, origLen := 2, newStart := 1, newLen := 1 }
  let opened := (pair.pushHunk hunk).append (Bytes.ofAscii "@@ -1,2 +1 @@\n")
  let counted := (opened.count .removed).append (Bytes.ofAscii "-p\n")
  have starts : Loop.Turn .unified lines .initial (.within [] pair 2 none (.header true)) := by
    decide +kernel
  have opens : Loop.Turn .unified lines (.within [] pair 2 none (.header true))
      (.within [] opened 3 none (.hunk ⟨2, 1⟩)) := by
    decide +kernel
  have takes : Loop.Turn .unified lines (.within [] opened 3 none (.hunk ⟨2, 1⟩))
      (.within [] counted 4 (some .removed) (.hunk ⟨1, 1⟩)) := by
    decide +kernel
  have turns : Loop.Turns .unified lines .initial
      (.within [] counted 4 (some .removed) (.hunk ⟨1, 1⟩)) :=
    ((Relation.ReflTransGen.single starts).tail opens).tail takes
  obtain ⟨-, reached, boundary⟩ := loop_sound .unified data
  obtain ⟨sound, noPanic⟩ := reached _ turns
  exact ⟨_, turns, rfl, sound, noPanic, (boundary 0).1⟩

end Dialect

end DiffSections
