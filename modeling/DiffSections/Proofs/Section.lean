import DiffSections.Proofs.Dialect
import DiffSections.Proofs.Hunk.Body
import DiffSections.Proofs.Line
import DiffSections.Proofs.Reader.Runs
import Mathlib.Algebra.Order.Ring.Nat
import Mathlib.Data.List.Forall2

/-!
# DiffSections.Proofs.Section -- how the lines of a section are laid out

The lines of a section are a lead, in which no line announces a hunk, then one block of lines for
each hunk, then a tail. A block is the hunk's header and its body, and the hunk is what they make of
it (`Hunk.FilledBy`). While a hunk is open its block is the last one and still owes lines
(`Draft.InHunk`). Every move keeps this (`SectionMove.laidOut`).

The lines in hand are always those of the diff just before the lines ahead
(`Reader.Reaches.follows`), so what is said of the lines of a draft can be said of its text.
-/

namespace DiffSections

set_option autoImplicit false

/-! ## Layouts -/

namespace Hunk

/-- These lines are the header of the hunk and the body that was read of it. -/
def ReadFrom (hunk : Hunk) (left : Remaining) (last : Option BodyKind) (block : List Bytes) :
    Prop :=
  ∃ header opened body, block = header :: body ∧
    ofHeader? (Line.content header) = some opened ∧ Body opened body hunk left last

/-- These lines are the header of the hunk and its whole body. -/
def FilledBy (hunk : Hunk) (block : List Bytes) : Prop :=
  ∃ last, hunk.ReadFrom ⟨0, 0⟩ last block

theorem readFrom_header {line : Bytes} {hunk : Hunk}
    (opens : ofHeader? (Line.content line) = some hunk) :
    hunk.ReadFrom (Remaining.ofHunk hunk) none [line] :=
  ⟨line, hunk, [], rfl, opens, .empty⟩

theorem ReadFrom.change {hunk : Hunk} {left after : Remaining} {last : Option BodyKind}
    {block : List Bytes} {line : Bytes} {kind : BodyKind} (read : hunk.ReadFrom left last block)
    (body : BodyLine.ofContent? (Line.content line) = some (.change kind))
    (fits : left.take? kind = some after) :
    (hunk.count kind).ReadFrom after (some kind) (block ++ [line]) := by
  obtain ⟨header, opened, lines, rfl, opens, before⟩ := read
  exact ⟨header, opened, lines ++ [line], rfl, opens, before.change body fits⟩

theorem ReadFrom.marker {hunk : Hunk} {left : Remaining} {block : List Bytes} {line : Bytes}
    {kind : BodyKind} (read : hunk.ReadFrom left (some kind) block)
    (body : BodyLine.ofContent? (Line.content line) = some .marker) :
    (hunk.markUnended kind).ReadFrom left (some kind) (block ++ [line]) := by
  obtain ⟨header, opened, lines, rfl, opens, before⟩ := read
  exact ⟨header, opened, lines ++ [line], rfl, opens, before.marker body⟩

end Hunk

/-- A lead, one block for each hunk, and a tail. -/
def Layout (hunks : List Hunk) (lines : List Bytes) : Prop :=
  ∃ lead blocks tail, lines = lead ++ blocks.flatten ++ tail ∧ Unannounced lead ∧
    List.Forall₂ Hunk.FilledBy hunks blocks

theorem Layout.append {hunks : List Hunk} {lines : List Bytes} (layout : Layout hunks lines)
    (more : List Bytes) : Layout hunks (lines ++ more) := by
  obtain ⟨lead, blocks, tail, rfl, unannounced, filled⟩ := layout
  exact ⟨lead, blocks, tail ++ more, by simp, unannounced, filled⟩

theorem layout_nil (lines : List Bytes) : Layout [] lines :=
  ⟨[], [], lines, rfl, nofun, .nil⟩

namespace Draft

/-- The newest hunk owes `left`; the ones before it are complete. -/
def InHunk (draft : Draft) (left : Remaining) (last : Option BodyKind) : Prop :=
  ∃ hunk older lead blocks block, draft.hunks = hunk :: older ∧
    draft.pieces.reverse = lead ++ blocks.flatten ++ block ∧ Unannounced lead ∧
    List.Forall₂ Hunk.FilledBy older.reverse blocks ∧ hunk.ReadFrom left last block

/-- What a section in hand has taken, by where the reader stands in it. -/
def LaidOut (draft : Draft) : Place → Prop
  | .header _ => draft.hunks = [] ∧ Unannounced draft.pieces
  | .payload => draft.hunks = []
  | .hunk left last => draft.InHunk left last
  | .between last => ∃ kind, draft.InHunk ⟨0, 0⟩ kind ∧ (last = none ∨ last = kind)

/-- The counts of the section are those of its hunks. -/
structure Balanced (draft : Draft) : Prop where
  insertions : draft.insertions = (draft.hunks.map (·.insertions)).sum
  deletions : draft.deletions = (draft.hunks.map (·.deletions)).sum

/-! ## What the operations of the reader do to hunks and lines -/

theorem hunks_count {draft : Draft} {hunk : Hunk} {older : List Hunk} (kind : BodyKind)
    (hunks : draft.hunks = hunk :: older) :
    (draft.count kind).hunks = hunk.count kind :: older := by
  cases kind <;> simp [count, mapOpenHunk, hunks]

theorem hunks_markUnended {draft : Draft} {hunk : Hunk} {older : List Hunk} (kind : BodyKind)
    (hunks : draft.hunks = hunk :: older) :
    (draft.markUnended kind).hunks = hunk.markUnended kind :: older := by
  simp [markUnended, mapOpenHunk, hunks]

@[simp] theorem hunks_append (draft : Draft) (piece : Bytes) :
    (draft.append piece).hunks = draft.hunks := rfl

@[simp] theorem hunks_withFacts (draft : Draft) (facts : FileFacts) :
    (draft.withFacts facts).hunks = draft.hunks := rfl

@[simp] theorem pieces_withFacts (draft : Draft) (facts : FileFacts) :
    (draft.withFacts facts).pieces = draft.pieces := rfl

@[simp] theorem pieces_markBinary (draft : Draft) : draft.markBinary.pieces = draft.pieces := rfl

@[simp] theorem pieces_pushHunk (draft : Draft) (hunk : Hunk) :
    (draft.pushHunk hunk).pieces = draft.pieces := rfl

@[simp] theorem pieces_append (draft : Draft) (piece : Bytes) :
    (draft.append piece).pieces = piece :: draft.pieces := rfl

@[simp] theorem pieces_mapOpenHunk (draft : Draft) (change : Hunk → Hunk) :
    (draft.mapOpenHunk change).pieces = draft.pieces := by
  unfold mapOpenHunk; split <;> rfl

@[simp] theorem pieces_count (draft : Draft) (kind : BodyKind) :
    (draft.count kind).pieces = draft.pieces := by
  cases kind <;> exact pieces_mapOpenHunk draft _

@[simp] theorem pieces_markUnended (draft : Draft) (kind : BodyKind) :
    (draft.markUnended kind).pieces = draft.pieces :=
  pieces_mapOpenHunk draft _

@[simp] theorem preamble_append (draft : Draft) (piece : Bytes) :
    (draft.append piece).preamble = draft.preamble := rfl

@[simp] theorem preamble_withFacts (draft : Draft) (facts : FileFacts) :
    (draft.withFacts facts).preamble = draft.preamble := rfl

@[simp] theorem preamble_markBinary (draft : Draft) :
    draft.markBinary.preamble = draft.preamble := rfl

@[simp] theorem preamble_pushHunk (draft : Draft) (hunk : Hunk) :
    (draft.pushHunk hunk).preamble = draft.preamble := rfl

@[simp] theorem preamble_mapOpenHunk (draft : Draft) (change : Hunk → Hunk) :
    (draft.mapOpenHunk change).preamble = draft.preamble := by
  unfold mapOpenHunk; split <;> rfl

@[simp] theorem preamble_count (draft : Draft) (kind : BodyKind) :
    (draft.count kind).preamble = draft.preamble := by
  cases kind <;> exact preamble_mapOpenHunk draft _

@[simp] theorem preamble_markUnended (draft : Draft) (kind : BodyKind) :
    (draft.markUnended kind).preamble = draft.preamble :=
  preamble_mapOpenHunk draft _

@[simp] theorem toFileFacts_mapOpenHunk (draft : Draft) (change : Hunk → Hunk) :
    (draft.mapOpenHunk change).toFileFacts = draft.toFileFacts := by
  unfold mapOpenHunk; split <;> rfl

@[simp] theorem toFileFacts_count (draft : Draft) (kind : BodyKind) :
    (draft.count kind).toFileFacts = draft.toFileFacts := by
  cases kind <;> exact toFileFacts_mapOpenHunk draft _

@[simp] theorem toFileFacts_markUnended (draft : Draft) (kind : BodyKind) :
    (draft.markUnended kind).toFileFacts = draft.toFileFacts :=
  toFileFacts_mapOpenHunk draft _

theorem insertions_count (draft : Draft) (kind : BodyKind) :
    (draft.count kind).insertions = draft.insertions + if kind = .added then 1 else 0 := by
  have same : ∀ change, (draft.mapOpenHunk change).insertions = draft.insertions := by
    intro change
    unfold mapOpenHunk; split <;> rfl
  cases kind <;> simp [count, same]

theorem deletions_count (draft : Draft) (kind : BodyKind) :
    (draft.count kind).deletions = draft.deletions + if kind = .removed then 1 else 0 := by
  have same : ∀ change, (draft.mapOpenHunk change).deletions = draft.deletions := by
    intro change
    unfold mapOpenHunk; split <;> rfl
  cases kind <;> simp [count, same]

theorem counts_markUnended (draft : Draft) (kind : BodyKind) :
    (draft.markUnended kind).insertions = draft.insertions ∧
      (draft.markUnended kind).deletions = draft.deletions := by
  unfold markUnended mapOpenHunk
  split <;> exact ⟨rfl, rfl⟩

/-! ## The counts stay balanced -/

theorem Balanced.append {draft : Draft} (balanced : draft.Balanced) (piece : Bytes) :
    (draft.append piece).Balanced :=
  ⟨balanced.insertions, balanced.deletions⟩

theorem Balanced.withFacts {draft : Draft} (balanced : draft.Balanced) (facts : FileFacts) :
    (draft.withFacts facts).Balanced :=
  ⟨balanced.insertions, balanced.deletions⟩

theorem Balanced.markBinary {draft : Draft} (balanced : draft.Balanced) :
    draft.markBinary.Balanced :=
  ⟨balanced.insertions, balanced.deletions⟩

theorem Balanced.count {draft : Draft} (balanced : draft.Balanced) (opened : draft.hunks ≠ [])
    (kind : BodyKind) : (draft.count kind).Balanced := by
  obtain ⟨hunk, older, hunks⟩ := List.exists_cons_of_ne_nil opened
  have insertions := balanced.insertions
  have deletions := balanced.deletions
  simp only [hunks, List.map_cons, List.sum_cons] at insertions deletions
  refine ⟨?_, ?_⟩
  · rw [hunks_count kind hunks, insertions_count, insertions, List.map_cons, List.sum_cons,
      Hunk.insertions_count]
    omega
  · rw [hunks_count kind hunks, deletions_count, deletions, List.map_cons, List.sum_cons,
      Hunk.deletions_count]
    omega

theorem Balanced.markUnended {draft : Draft} (balanced : draft.Balanced)
    (opened : draft.hunks ≠ []) (kind : BodyKind) : (draft.markUnended kind).Balanced := by
  obtain ⟨hunk, older, hunks⟩ := List.exists_cons_of_ne_nil opened
  have insertions := balanced.insertions
  have deletions := balanced.deletions
  obtain ⟨sameInsertions, sameDeletions⟩ := counts_markUnended draft kind
  simp only [hunks, List.map_cons, List.sum_cons] at insertions deletions
  refine ⟨?_, ?_⟩
  · rw [hunks_markUnended kind hunks, sameInsertions, insertions, List.map_cons, List.sum_cons,
      Hunk.insertions_markUnended]
  · rw [hunks_markUnended kind hunks, sameDeletions, deletions, List.map_cons, List.sum_cons,
      Hunk.deletions_markUnended]

/-- A hunk that was just opened counts nothing. -/
theorem Balanced.pushHunk {draft : Draft} (balanced : draft.Balanced) {line : Bytes} {hunk : Hunk}
    (opens : Hunk.ofHeader? line = some hunk) : (draft.pushHunk hunk).Balanced := by
  have unread := Hunk.declared_of_ofHeader? opens
  have insertions : hunk.insertions = 0 := by rw [← unread]; rfl
  have deletions : hunk.deletions = 0 := by rw [← unread]; rfl
  exact ⟨by simp [Draft.pushHunk, insertions, balanced.insertions],
    by simp [Draft.pushHunk, deletions, balanced.deletions]⟩

/-! ## The lines stay laid out -/

variable {draft : Draft} {left after : Remaining} {last : Option BodyKind} {line : Bytes}
  {kind : BodyKind} {hunk : Hunk}

theorem InHunk.hunks_ne_nil (inHunk : draft.InHunk left last) : draft.hunks ≠ [] := by
  obtain ⟨hunk, older, _, _, _, hunks, -⟩ := inHunk
  simp [hunks]

theorem InHunk.change (inHunk : draft.InHunk left last)
    (body : BodyLine.ofContent? (Line.content line) = some (.change kind))
    (fits : left.take? kind = some after) :
    ((draft.count kind).append line).InHunk after (some kind) := by
  obtain ⟨hunk, older, lead, blocks, block, hunks, pieces, unannounced, filled, read⟩ := inHunk
  refine ⟨hunk.count kind, older, lead, blocks, block ++ [line], hunks_count kind hunks, ?_,
    unannounced, filled, read.change body fits⟩
  simp [pieces]

theorem InHunk.marker (inHunk : draft.InHunk left (some kind))
    (body : BodyLine.ofContent? (Line.content line) = some .marker) :
    ((draft.markUnended kind).append line).InHunk left (some kind) := by
  obtain ⟨hunk, older, lead, blocks, block, hunks, pieces, unannounced, filled, read⟩ := inHunk
  refine ⟨hunk.markUnended kind, older, lead, blocks, block ++ [line],
    hunks_markUnended kind hunks, ?_, unannounced, filled, read.marker body⟩
  simp [pieces]

/-- The first hunk ends the lead. -/
theorem inHunk_of_header (hunks : draft.hunks = []) (unannounced : Unannounced draft.pieces)
    (opens : Hunk.ofHeader? (Line.content line) = some hunk) :
    ((draft.pushHunk hunk).append line).InHunk (Remaining.ofHunk hunk) none := by
  refine ⟨hunk, [], draft.pieces.reverse, [], [line], by simp [append, pushHunk, hunks], ?_, ?_,
    .nil, Hunk.readFrom_header opens⟩
  · simp [pushHunk]
  · intro other member
    exact unannounced other (List.mem_reverse.1 member)

/-- A later hunk follows the block of the one before it. -/
theorem InHunk.next (inHunk : draft.InHunk ⟨0, 0⟩ last)
    (opens : Hunk.ofHeader? (Line.content line) = some hunk) :
    ((draft.pushHunk hunk).append line).InHunk (Remaining.ofHunk hunk) none := by
  obtain ⟨newest, older, lead, blocks, block, hunks, pieces, unannounced, filled, read⟩ := inHunk
  refine ⟨hunk, newest :: older, lead, blocks ++ [block], [line],
    by simp [append, pushHunk, hunks], ?_, unannounced, ?_, Hunk.readFrom_header opens⟩
  · simp [pushHunk, pieces]
  · rw [List.reverse_cons]
    exact List.rel_append filled (.cons ⟨last, read⟩ .nil)

/-- A hunk that owes nothing is closed. -/
theorem laidOut_inHunk (inHunk : draft.InHunk left last) :
    draft.LaidOut (.inHunk left last) := by
  unfold Place.inHunk
  split
  · rename_i done
    rw [Remaining.isDone_iff.1 done] at inHunk
    exact ⟨last, inHunk, .inr rfl⟩
  · exact inHunk

theorem InHunk.layout (inHunk : draft.InHunk ⟨0, 0⟩ last) :
    Layout draft.hunks.reverse draft.pieces.reverse := by
  obtain ⟨newest, older, lead, blocks, block, hunks, pieces, unannounced, filled, read⟩ := inHunk
  refine ⟨lead, blocks ++ [block], [], by simp [pieces], unannounced, ?_⟩
  rw [hunks, List.reverse_cons]
  exact List.rel_append filled (.cons ⟨last, read⟩ .nil)

theorem layout_of_hunks_eq_nil (hunks : draft.hunks = []) :
    Layout draft.hunks.reverse draft.pieces.reverse := by
  rw [hunks]
  exact layout_nil _

/-- Outside a hunk that owes lines, the lines of a section are laid out. -/
theorem LaidOut.layout {place : Place} (laidOut : draft.LaidOut place)
    (notHunk : ∀ left last, place ≠ .hunk left last) :
    Layout draft.hunks.reverse draft.pieces.reverse := by
  cases place with
  | header => exact layout_of_hunks_eq_nil laidOut.1
  | payload => exact layout_of_hunks_eq_nil laidOut
  | hunk left last => exact absurd rfl (notHunk left last)
  | between last =>
      obtain ⟨kind, inHunk, -⟩ := laidOut
      exact inHunk.layout

end Draft

/-! ## Every step keeps the layout -/

/-- The sections in hand are laid out and balanced. -/
def ReaderState.LaidOut : ReaderState → Prop
  | .seeking previous _ =>
      ∀ draft ∈ previous, draft.Balanced ∧ Layout draft.hunks.reverse draft.pieces.reverse
  | .reading draft place => draft.Balanced ∧ draft.LaidOut place

/-- **A move keeps the layout.** -/
theorem SectionMove.laidOut {dialect : Dialect} {cuts : CutRule} {draft : Draft} {line : Bytes}
    {lines : List Bytes} {place : Place} {move : Move}
    (moves : SectionMove dialect cuts draft line lines place move) (balanced : draft.Balanced)
    (laidOut : draft.LaidOut place) : move.state.LaidOut := by
  cases moves with
  | headerBoundary | text | payloadBoundary | afterHunks =>
      rintro _ ⟨⟩
      exact ⟨balanced, laidOut.layout (by simp)⟩
  | summary =>
      rintro _ ⟨⟩
      exact ⟨balanced.markBinary.append line, Draft.layout_of_hunks_eq_nil laidOut.1⟩
  | patch => exact ⟨balanced.markBinary.append line, laidOut.1⟩
  | extended _ _ header =>
      exact ⟨(balanced.withFacts _).append line, laidOut.1,
        unannounced_cons (Dialect.announcedBy_of_readHeader header) laidOut.2⟩
  | pair _ _ _ origLine _ newLine =>
      refine ⟨((balanced.withFacts _).append _).append _, ?_, ?_⟩
      · simpa using laidOut.1
      · simp only [Draft.pieces_append, Draft.pieces_withFacts]
        exact unannounced_cons (Dialect.announcedBy_of_after? newLine (by simp))
          (unannounced_cons (Dialect.announcedBy_of_after? origLine (by simp)) laidOut.2)
  | payloadLine => exact ⟨balanced.append line, laidOut⟩
  | firstHunk _ _ _ _ _ opens =>
      exact ⟨(balanced.pushHunk opens).append line,
        Draft.laidOut_inHunk (Draft.inHunk_of_header laidOut.1 laidOut.2 opens)⟩
  | nextHunk _ opens =>
      obtain ⟨last, inHunk, -⟩ := laidOut
      exact ⟨(balanced.pushHunk opens).append line, Draft.laidOut_inHunk (inHunk.next opens)⟩
  | change _ body fits =>
      have inHunk : draft.InHunk _ _ := laidOut
      exact ⟨(balanced.count inHunk.hunks_ne_nil _).append line,
        Draft.laidOut_inHunk (inHunk.change body fits)⟩
  | marker _ body =>
      have inHunk : draft.InHunk _ _ := laidOut
      exact ⟨(balanced.markUnended inHunk.hunks_ne_nil _).append line, inHunk.marker body⟩
  | @lateMarker kind marks =>
      obtain ⟨last, inHunk, same⟩ := laidOut
      obtain rfl : last = some kind := by simpa [eq_comm] using same
      exact ⟨(balanced.markUnended inHunk.hunks_ne_nil kind).append line, some kind,
        inHunk.marker (BodyLine.ofContent?_of_backslash marks), .inl rfl⟩

/-! ## The lines of a section are lines of the diff -/

/-- The lines of the section in hand and of the text after it. -/
def ReaderState.lines : ReaderState → List Bytes
  | .seeking previous pending =>
      (previous.map fun draft => draft.pieces.reverse).getD [] ++ pending.reverse
  | .reading draft _ => draft.pieces.reverse

theorem SectionMove.pieces_ne_nil {dialect : Dialect} {cuts : CutRule} {draft : Draft}
    {line : Bytes} {lines : List Bytes} {place : Place} {move : Move}
    (moves : SectionMove dialect cuts draft line lines place move) (pieces : draft.pieces ≠ []) :
    ∃ later, move.state.inHand = some later ∧ later.pieces ≠ [] := by
  cases moves <;> exact ⟨_, rfl, by simp [pieces]⟩

/-- A section keeps the preamble it started with. -/
theorem SectionMove.preamble_eq {dialect : Dialect} {cuts : CutRule} {draft : Draft}
    {line : Bytes} {lines : List Bytes} {place : Place} {move : Move}
    (moves : SectionMove dialect cuts draft line lines place move) :
    ∃ later, move.state.inHand = some later ∧ later.preamble = draft.preamble := by
  cases moves <;> exact ⟨_, rfl, by simp⟩

namespace Reader

theorem laidOut_startDraft {dialect : Dialect} {lines : List Bytes} {opening : Opening}
    (opens : dialect.open? lines = .ok (some opening)) (pending : List Bytes) :
    ReaderState.LaidOut (.reading
      (startDraft opening pending (lines.take opening.lineCount)) (.header opening.pairSeen)) := by
  rw [startDraft_eq]
  exact ⟨⟨rfl, rfl⟩, rfl, fun line member =>
    Dialect.unannounced_of_open? opens line (List.mem_reverse.1 member)⟩

variable {dialect : Dialect} {cuts : CutRule} {lines : List Bytes} {before after : Reader}

/-- The section in hand and the text after it stand just before the lines ahead. -/
def Follows (lines : List Bytes) (reader : Reader) : Prop :=
  ∃ earlier, earlier ++ (reader.state.lines ++ reader.ahead) = lines

/-- What a move adds to the lines in hand is what it takes from those ahead. -/
theorem lines_move {closed : List FileRecord} {draft : Draft} {place : Place} {passed : Nat}
    {line : Bytes} {lines : List Bytes} {move : Move}
    (moves : SectionMove dialect cuts draft line lines place move) {next : Reader}
    (moved : next = Reader.move ⟨closed, .reading draft place, passed, line :: lines⟩ move) :
    next.state.lines ++ next.ahead = draft.pieces.reverse ++ line :: lines := by
  subst moved
  cases moves with
  | headerBoundary | payloadBoundary | text | afterHunks =>
      simp [ReaderState.lines]
  | pair _ _ _ _ ahead =>
      subst ahead
      simp [ReaderState.lines]
  | summary | patch | extended | firstHunk | payloadLine | marker | change | lateMarker
  | nextHunk =>
      simp [ReaderState.lines]

theorem Step.follows (stepped : Step dialect cuts before after) (follows : before.Follows lines) :
    after.Follows lines := by
  obtain ⟨earlier, same⟩ := follows
  cases stepped with
  | skip => exact ⟨earlier, by simpa [ReaderState.lines] using same⟩
  | @start closed previous pending passed line later opening _ =>
      refine ⟨earlier ++ (ReaderState.seeking previous pending).lines, ?_⟩
      rw [← same]
      simp only [Reader.start, take, ReaderState.lines, startDraft_eq, List.reverse_reverse,
        List.take_append_drop, List.append_assoc]
  | inside moves =>
      exact ⟨earlier, by rw [lines_move moves rfl]; exact same⟩

theorem Reaches.follows {reader : Reader} (reaches : Reaches dialect cuts (ofLines lines) reader) :
    reader.Follows lines :=
  reaches.keeps _ (fun _ _ stepped kept => stepped.follows kept) ⟨[], rfl⟩

theorem Follows.lines_isInfix {reader : Reader} (follows : reader.Follows lines) :
    reader.state.lines <:+: lines := by
  obtain ⟨earlier, same⟩ := follows
  exact ⟨earlier, reader.ahead, by simpa using same⟩

theorem Follows.ahead_isInfix {reader : Reader} (follows : reader.Follows lines) :
    reader.ahead <:+: lines := by
  obtain ⟨earlier, same⟩ := follows
  exact ⟨earlier ++ reader.state.lines, [], by simpa using same⟩

/-- The lines of the section in hand are lines of the diff. -/
theorem Reaches.pieces_isInfix {reader : Reader} {draft : Draft}
    (reaches : Reaches dialect cuts (ofLines lines) reader)
    (inHand : reader.state.inHand = some draft) : draft.pieces.reverse <:+: lines := by
  refine .trans ?_ (Reaches.follows reaches).lines_isInfix
  cases state : reader.state with
  | reading _ _ =>
      rw [state] at inHand
      cases inHand
      exact List.infix_rfl
  | seeking _ pending =>
      rw [state] at inHand
      cases inHand
      exact ⟨[], pending.reverse, rfl⟩

/-- A section in hand has lines: it starts with some, and goes on with more. -/
theorem Step.pieces_ne_nil (stepped : Step dialect cuts before after)
    (kept : ∀ draft, before.state.inHand = some draft → draft.pieces ≠ []) :
    ∀ draft, after.state.inHand = some draft → draft.pieces ≠ [] := by
  intro draft inHand
  cases stepped with
  | skip => exact kept draft inHand
  | @start _ _ _ _ _ _ opening _ =>
      obtain ⟨count, isSucc⟩ := Nat.exists_eq_add_one.2 (lineCount_pos opening)
      rw [← Option.some.inj inHand, startDraft_eq, isSucc]
      simp
  | inside moves =>
      obtain ⟨later, isLater, some_piece⟩ := moves.pieces_ne_nil (kept _ rfl)
      rw [state_move, isLater] at inHand
      rwa [← Option.some.inj inHand]

/-- A section in hand was given a preamble, if only an empty one. -/
theorem Step.preamble_ne_none (stepped : Step dialect cuts before after)
    (kept : ∀ draft, before.state.inHand = some draft → draft.preamble ≠ none) :
    ∀ draft, after.state.inHand = some draft → draft.preamble ≠ none := by
  intro draft inHand
  cases stepped with
  | skip => exact kept draft inHand
  | start =>
      rw [← Option.some.inj inHand, startDraft_eq]
      simp
  | inside moves =>
      obtain ⟨later, isLater, same⟩ := moves.preamble_eq
      rw [state_move, isLater] at inHand
      rw [← Option.some.inj inHand, same]
      exact kept _ rfl

theorem Reaches.preamble_ne_none {reader : Reader} {draft : Draft}
    (reaches : Reaches dialect cuts (ofLines lines) reader)
    (inHand : reader.state.inHand = some draft) : draft.preamble ≠ none :=
  reaches.keeps (fun reader => ∀ draft, reader.state.inHand = some draft → draft.preamble ≠ none)
    (fun _ _ stepped kept => stepped.preamble_ne_none kept) (by simp [ofLines]) draft inHand

theorem Reaches.text_ne_nil {reader : Reader} {draft : Draft} {data : Bytes}
    (reaches : Reaches dialect cuts (ofLines (Line.split data)) reader)
    (inHand : reader.state.inHand = some draft) : draft.text ≠ [] := by
  have pieces : draft.pieces ≠ [] :=
    reaches.keeps (fun reader => ∀ draft, reader.state.inHand = some draft → draft.pieces ≠ [])
      (fun _ _ stepped kept => stepped.pieces_ne_nil kept) (by simp [ofLines]) draft inHand
  have within := reaches.pieces_isInfix inHand
  intro empty
  have none : draft.pieces.reverse = [] := by
    rw [← Line.split_flatten_of_stretch within]
    exact congrArg Line.split empty
  exact pieces (List.reverse_eq_nil_iff.1 none)

end Reader

end DiffSections
