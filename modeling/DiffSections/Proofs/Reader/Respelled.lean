import DiffSections.Proofs.Reader.Alike
import DiffSections.Proofs.Section

/-!
# DiffSections.Proofs.Reader.Respelled -- the same lines, spelled in another way

What is matched of a line is its content, and what is kept is the line as it stands. So a diff whose
lines are spelled in another way that reads the same (`Line.Respells`) is read in the same way: the
same error at the same line, or the same records with the new spelling in their texts
(`Dialect.parse_of_respells`). At each step both readers do the same
(`Reader.Follows.step_mapLines`); a text that a reader puts together from lines can be spelled as a
whole, since these lines are always a stretch of those of the diff.
-/

namespace DiffSections

set_option autoImplicit false

open Bytes

/-! ## Spellings of the lines of a text -/

namespace Line

/-- A spelling of texts that spells each line of `data` as a line that reads the same. -/
structure Respells (spell : Bytes → Bytes) (data : Bytes) : Prop where
  flatten : ∀ lines, lines <:+: split data → spell lines.flatten = (lines.map spell).flatten
  isLine : ∀ line ∈ split data, IsLine (spell line)
  ended : ∀ line ∈ split data, line.getLast? = some lf → (spell line).getLast? = some lf
  readsAs : ∀ line ∈ split data, ReadsAs line (spell line)

theorem Respells.split {spell : Bytes → Bytes} {data : Bytes} (respells : Respells spell data) :
    split (spell data) = (split data).map spell := by
  refine split_eq_iff.2 ⟨?_, fun line member => ?_, fun line early => ?_⟩
  · rw [← respells.flatten _ List.infix_rfl, flatten_split]
  · obtain ⟨old, within, rfl⟩ := List.mem_map.1 member
    exact respells.isLine old within
  · rw [← List.map_dropLast] at early
    obtain ⟨old, within, rfl⟩ := List.mem_map.1 early
    exact respells.ended old (List.dropLast_subset _ within) ((isCut_split data).ended old within)

/-- A line, and its spelling that reads the same. -/
def Spelled (spell : Bytes → Bytes) (line line' : Bytes) : Prop :=
  line' = spell line ∧ ReadsAs line line'

/-- What is stripped of a line is blank. -/
theorem all_isBlank_content (line : Bytes) :
    (content line).all isBlank = line.all isBlank := by
  have strip : ∀ {b : UInt8} (text : Bytes), isBlank b = true →
      (stripLast b text).all isBlank = text.all isBlank := by
    intro b text blank
    unfold stripLast
    split
    · rename_i last
      conv_rhs => rw [← List.dropLast_append_getLast? b last]
      simp [blank]
    · rfl
  rw [content, strip _ (by decide), strip _ (by decide)]

end Line

/-! ## Texts in another spelling -/

/-- The record with its texts spelled in another way. -/
def FileRecord.mapText (spell : Bytes → Bytes) (record : FileRecord) : FileRecord :=
  { record with preamble := spell record.preamble, body := spell record.body }

namespace Draft

/-- The draft with its lines spelled in another way. -/
def mapLines (spell : Bytes → Bytes) (draft : Draft) : Draft :=
  { draft with preamble := draft.preamble.map spell, pieces := draft.pieces.map spell }

abbrev Spelled (spell : Bytes → Bytes) (draft draft' : Draft) : Prop :=
  draft' = draft.mapLines spell

variable {spell : Bytes → Bytes}

theorem mapLines_mapOpenHunk (draft : Draft) (change : Hunk → Hunk) :
    (draft.mapLines spell).mapOpenHunk change = (draft.mapOpenHunk change).mapLines spell := by
  obtain ⟨facts, hunks, insertions, deletions, preamble, pieces⟩ := draft
  cases hunks <;> rfl

theorem mapLines_count (draft : Draft) (kind : BodyKind) :
    (draft.mapLines spell).count kind = (draft.count kind).mapLines spell := by
  cases kind <;> simp only [count, mapLines_mapOpenHunk] <;> rfl

theorem congruence_mapLines (spell : Bytes → Bytes) :
    Congruence (Line.Spelled spell) (Spelled spell) where
  readsAs same := same.2
  facts same := by rw [same]; rfl
  append sameLine same := by rw [sameLine.1, same]; rfl
  withFacts facts same := by rw [same]; rfl
  markBinary same := by rw [same]; rfl
  pushHunk hunk same := by rw [same]; rfl
  count kind same := by rw [same, mapLines_count]
  markUnended kind same := by rw [same]; exact mapLines_mapOpenHunk _ _

end Draft

/-- The state with its lines spelled in another way. -/
def ReaderState.mapLines (spell : Bytes → Bytes) : ReaderState → ReaderState
  | .seeking previous pending => .seeking (previous.map (Draft.mapLines spell)) (pending.map spell)
  | .reading draft place => .reading (draft.mapLines spell) place

def Move.mapLines (spell : Bytes → Bytes) : Move → Move
  | .one state => .one (state.mapLines spell)
  | .two state => .two (state.mapLines spell)
  | .handBack draft => .handBack (draft.mapLines spell)

namespace Reader

/-- The reader of the same lines in another spelling. -/
def mapLines (spell : Bytes → Bytes) (reader : Reader) : Reader where
  closed := reader.closed.map (FileRecord.mapText spell)
  state := reader.state.mapLines spell
  passed := reader.passed
  ahead := reader.ahead.map spell

end Reader

/-! ## The two readings go in step -/

section Steps

variable {spell : Bytes → Bytes} {data : Bytes} {dialect : Dialect}

theorem map_of_spelled {lines lines' : List Bytes}
    (spelled : List.Forall₂ (Line.Spelled spell) lines lines') : lines' = lines.map spell := by
  induction spelled with
  | nil => rfl
  | cons first _ ih => rw [ih, first.1, List.map_cons]

theorem ReaderState.Alike.eq_mapLines {state state' : ReaderState}
    (alike : state.Alike (Line.Spelled spell) (Draft.Spelled spell) state') :
    state' = state.mapLines spell := by
  cases alike with
  | seeking waiting related =>
      rw [map_of_spelled waiting]
      cases related with
      | none => rfl
      | some related => rw [related]; rfl
  | reading place related => rw [related]; rfl

theorem Move.Alike.eq_mapLines {move move' : Move}
    (alike : move.Alike (Line.Spelled spell) (Draft.Spelled spell) move') :
    move' = move.mapLines spell := by
  cases alike with
  | one alike | two alike => rw [alike.eq_mapLines]; rfl
  | handBack related => rw [related]; rfl

theorem SameOutcome.eq_mapLines {α : Type} {checked checked' : Except α Move}
    (same : SameOutcome (Line.Spelled spell) (Draft.Spelled spell) checked checked') :
    checked' = checked.map (Move.mapLines spell) := by
  cases same with
  | error cause => rfl
  | ok alike => rw [alike.eq_mapLines]; rfl

theorem spelled_of_respells (respells : Line.Respells spell data) {lines : List Bytes}
    (within : lines <:+: Line.split data) :
    List.Forall₂ (Line.Spelled spell) lines (lines.map spell) := by
  rw [List.forall₂_map_right_iff, List.forall₂_same]
  exact fun line member => ⟨rfl, respells.readsAs line (within.mem member)⟩

/-- **A step inside a section does the same in both spellings.** -/
theorem Dialect.sectionStep_mapLines (respells : Line.Respells spell data) {line : Bytes}
    {lines : List Bytes} (within : line :: lines <:+: Line.split data) (passed : Nat)
    (draft : Draft) (place : Place) :
    dialect.sectionStep dialect.cutRule passed (draft.mapLines spell) place (spell line)
        (lines.map spell) =
      (dialect.sectionStep dialect.cutRule passed draft place line lines).map
        (Move.mapLines spell) := by
  have spelled := spelled_of_respells respells within
  obtain ⟨first, later⟩ := List.forall₂_cons.1 spelled
  exact (sectionStep_alike dialect (Draft.congruence_mapLines spell) rfl passed place first later
    (cutRule_of_readsAs (spelled.imp fun _ _ same => same.2))).eq_mapLines

/-- A section that is closed with lines of the diff after it is closed alike in both spellings. -/
theorem Draft.close_append_mapLines (respells : Line.Respells spell data) {draft : Draft}
    {pending : List Bytes} (within : draft.pieces.reverse ++ pending <:+: Line.split data) :
    ((draft.mapLines spell).append (pending.map spell).flatten).close =
      (draft.append pending.flatten).close.mapText spell := by
  have empty : spell [] = [] := respells.flatten [] List.nil_infix
  have preamble : (draft.preamble.map spell).getD [] = spell (draft.preamble.getD []) := by
    cases draft.preamble with
    | none => exact empty.symm
    | some text => rfl
  have body : ((draft.mapLines spell).append (pending.map spell).flatten).text =
      spell (draft.append pending.flatten).text := by
    have joined := respells.flatten _ within
    rw [List.map_append, List.flatten_append, List.flatten_append, List.map_reverse] at joined
    rw [text_append, text_append, text, text, joined]
    rfl
  simp only [close, body]
  simp only [append, mapLines, FileRecord.mapText, preamble]

theorem Draft.close_mapLines (respells : Line.Respells spell data) {draft : Draft}
    (within : draft.pieces.reverse <:+: Line.split data) :
    (draft.mapLines spell).close = draft.close.mapText spell := by
  have within : draft.pieces.reverse ++ [] <:+: Line.split data := by rwa [List.append_nil]
  have closes := close_append_mapLines respells within
  rwa [List.map_nil, List.flatten_nil, close_append_nil, close_append_nil] at closes

namespace Reader

variable {reader : Reader}

theorem mapLines_move (reader : Reader) (move : Move) :
    (reader.move move).mapLines spell = (reader.mapLines spell).move (move.mapLines spell) := by
  cases move <;> simp [move, mapLines, take, Move.mapLines, ReaderState.mapLines]

/-- A section that is closed, and the text before the next one, are stretches of the diff. -/
theorem mapLines_start (respells : Line.Respells spell data) {closed : List FileRecord}
    {previous : Option Draft} {pending ahead : List Bytes} {passed : Nat} (opening : Opening)
    (within : (ReaderState.seeking previous pending).lines <:+: Line.split data) :
    (start ⟨closed, .seeking previous pending, passed, ahead⟩ opening previous pending).mapLines
        spell =
      ((⟨closed, .seeking previous pending, passed, ahead⟩ : Reader).mapLines spell).start opening
        (previous.map (Draft.mapLines spell)) (pending.map spell) := by
  have waiting : spell pending.reverse.flatten = (pending.map spell).reverse.flatten := by
    rw [respells.flatten _ (.trans ⟨_, [], List.append_nil _⟩ within), List.map_reverse]
  have closes : (previous.map Draft.close).map (FileRecord.mapText spell) =
      (previous.map (Draft.mapLines spell)).map Draft.close := by
    cases previous with
    | none => rfl
    | some draft =>
        have stretch : draft.pieces.reverse <:+: Line.split data :=
          .trans ⟨[], pending.reverse, rfl⟩ within
        simp [Draft.close_mapLines respells stretch]
  simp [start, mapLines, take, ReaderState.mapLines, startDraft_eq, Draft.mapLines, waiting,
    ← closes, Option.toList_map]

/-- **Both readers make the same step.** -/
theorem Follows.step_mapLines (follows : reader.Follows (Line.split data))
    (respells : Line.Respells spell data) {line : Bytes} {lines : List Bytes}
    (ahead : reader.ahead = line :: lines) :
    (reader.mapLines spell).step dialect dialect.cutRule (spell line) (lines.map spell) =
      (reader.step dialect dialect.cutRule line lines).map (mapLines spell) := by
  have within := follows.ahead_isInfix
  have inHand := follows.lines_isInfix
  obtain ⟨closed, state, passed, ahead⟩ := reader
  subst ahead
  cases state with
  | reading draft place =>
      simp only [step, mapLines, ReaderState.mapLines,
        Dialect.sectionStep_mapLines respells within]
      cases dialect.sectionStep dialect.cutRule passed draft place line lines with
      | error error => rfl
      | ok move =>
          exact congrArg Except.ok
            (mapLines_move ⟨closed, .reading draft place, passed, line :: lines⟩ move).symm
  | seeking previous pending =>
      have opened : dialect.open? (spell line :: lines.map spell) = dialect.open? (line :: lines) :=
        Dialect.open?_of_readsAs ((spelled_of_respells respells within).imp fun _ _ same => same.2)
      simp only [step, mapLines, ReaderState.mapLines, opened]
      cases dialect.open? (line :: lines) with
      | error fault => rfl
      | ok opening =>
          cases opening with
          | none => rfl
          | some opening => exact congrArg Except.ok (mapLines_start respells opening inHand).symm

variable (dialect) in
/-- **Both readers come to the same end.** -/
theorem Follows.run_mapLines (follows : reader.Follows (Line.split data))
    (respells : Line.Respells spell data) :
    (reader.mapLines spell).run dialect dialect.cutRule =
      (reader.run dialect dialect.cutRule).map (mapLines spell) := by
  fun_induction run dialect dialect.cutRule reader with
  | case1 reader nothing =>
      have nothing' : (reader.mapLines spell).ahead = [] := by rw [mapLines, nothing, List.map_nil]
      rw [run_nil nothing']
      rfl
  | case2 reader line lines ahead error failed =>
      have ahead' : (reader.mapLines spell).ahead = spell line :: lines.map spell := by
        rw [mapLines, ahead, List.map_cons]
      rw [run_cons ahead', follows.step_mapLines respells ahead, failed]
      rfl
  | case3 reader line lines ahead next stepped ih =>
      have ahead' : (reader.mapLines spell).ahead = spell line :: lines.map spell := by
        rw [mapLines, ahead, List.map_cons]
      rw [run_cons ahead', follows.step_mapLines respells ahead, stepped]
      exact ih (((step_eq_ok_iff ahead).1 stepped).follows follows)

/-- Lines are blank in both spellings, or in none. -/
theorem all_isBlank_map (respells : Line.Respells spell data) {lines : List Bytes}
    (within : lines <:+: Line.split data) :
    (lines.map spell).all (·.all isBlank) = lines.all (·.all isBlank) := by
  rw [List.all_map, Bool.eq_iff_iff, List.all_eq_true, List.all_eq_true]
  refine forall₂_congr fun line member => ?_
  rw [Function.comp_apply, ← Line.all_isBlank_content, ← Line.all_isBlank_content line,
    respells.readsAs line (within.mem member)]

/-- **Both readers close alike.** -/
theorem Follows.close_mapLines (follows : reader.Follows (Line.split data))
    (respells : Line.Respells spell data) :
    (reader.mapLines spell).close dialect =
      (reader.close dialect).map (List.map (FileRecord.mapText spell)) := by
  have inHand := follows.lines_isInfix
  obtain ⟨closed, state, passed, ahead⟩ := reader
  cases state with
  | reading draft place =>
      have closes := Draft.close_mapLines respells inHand
      cases place with
      | hunk => rfl
      | header | payload | between =>
          simp [mapLines, ReaderState.mapLines, close, closes, Except.map]
  | seeking previous pending =>
      cases previous with
      | some draft =>
          have closes := Draft.close_append_mapLines respells inHand
          rw [List.map_reverse] at closes
          simp [mapLines, ReaderState.mapLines, close, closes, Except.map]
      | none =>
          have stretch : pending.reverse <:+: Line.split data := inHand
          have blanks := all_isBlank_map respells stretch
          rw [List.map_reverse, List.all_reverse, List.all_reverse] at blanks
          simp only [mapLines, ReaderState.mapLines, close, Option.map_none, blanks]
          split <;> simp [Except.map]

end Reader

variable (dialect) in
/-- **A diff in another spelling that reads the same is read in the same way.** -/
theorem Dialect.parse_of_respells (respells : Line.Respells spell data) :
    dialect.parse (spell data) =
      (dialect.parse data).map (List.map (FileRecord.mapText spell)) := by
  have start : (Reader.ofLines (Line.split data)).Follows (Line.split data) := ⟨[], rfl⟩
  have ran := start.run_mapLines dialect respells
  rw [parse, parse, parseWith_eq_bind, parseWith_eq_bind, respells.split]
  change Except.bind (((Reader.ofLines (Line.split data)).mapLines spell).run _ _) _ = _
  rw [ran]
  cases finished : (Reader.ofLines (Line.split data)).run dialect dialect.cutRule with
  | error error => rfl
  | ok final =>
      obtain ⟨reaches, -⟩ := Reader.run_eq_ok_iff.1 finished
      exact reaches.follows.close_mapLines respells

end Steps

end DiffSections
