import DiffSections.Proofs.Loop.Registers
import DiffSections.Proofs.Reader.Locality

/-!
# DiffSections.Proofs.Loop.Simulation -- the loop and the reader go in step

`Reader.loop` gives the registers of a reader. A reader has no place for the kind of the last body
line outside hunks, where the loop keeps an old one that nothing asks for; so the registers are
given with it (`stale`). Every function of the loop does to these registers what the reader does
(`Loop.step_eq`): what is looked up by index is what is ahead, and each branch for a section that is
not there is passed by. So the loop comes only to the registers of readers
(`Loop.Turns.exists_reaches`), and it ends, as the reader does and in no other way
(`Loop.ends_iff`).
-/

namespace DiffSections

set_option autoImplicit false

open Bytes

/-! ## Lines by index are the lines ahead -/

section Lookup

variable {lines : List Bytes} {index : Nat}

theorem getElem?_eq_drop (lines : List Bytes) (index offset : Nat) :
    lines[index + offset]? = (lines.drop index)[offset]? :=
  List.getElem?_drop.symm

theorem rawAt_eq {line : Bytes} {later : List Bytes} (ahead : lines.drop index = line :: later) :
    rawAt lines index = line := by
  have found := getElem?_eq_drop lines index 0
  rw [Nat.add_zero, ahead] at found
  rw [rawAt, found]
  rfl

theorem Dialect.startsAt_eq (dialect : Dialect) (lines : List Bytes) (index : Nat) :
    dialect.startsAt lines index = dialect.startsSection (lines.drop index) := by
  have first := getElem?_eq_drop lines index 0
  have second := getElem?_eq_drop lines index 1
  rw [Nat.add_zero] at first
  cases dialect <;> simp only [startsAt, headedAt, first, second]
  · cases lines.drop index <;> rfl
  · rcases lines.drop index with _ | ⟨line, _ | ⟨next, later⟩⟩ <;> simp [startsSection]

theorem Dialect.cutsAt_eq (dialect : Dialect) (lines : List Bytes) (left : Remaining)
    (index : Nat) : dialect.cutsAt lines left index = dialect.cutRule left (lines.drop index) := by
  rw [cutsAt, startsAt_eq, cutRule]

theorem Dialect.begin?_eq (dialect : Dialect) (lines : List Bytes) (index : Nat) :
    dialect.begin? lines index =
      (dialect.open? (lines.drop index)).mapError fun fault =>
        .refused ⟨fault, Line.number index⟩ := by
  have first := getElem?_eq_drop lines index 0
  have second := getElem?_eq_drop lines index 1
  rw [Nat.add_zero] at first
  cases dialect with
  | git =>
      simp only [begin?, first]
      cases lines.drop index with
      | nil => rfl
      | cons line later =>
          simp only [List.getElem?_cons_zero, Option.bind_some, open?]
          cases after? boundaryHead (Line.content line) with
          | none => rfl
          | some rest =>
              simp only [Boundary.splitAt?_eq, Boundary.paths?]
              cases Boundary.split? rest <;> rfl
  | unified =>
      simp only [begin?, startsAt_eq, rawAt, first, second]
      rcases lines.drop index with _ | ⟨line, _ | ⟨next, later⟩⟩
      · rfl
      · rfl
      · simp only [startsSection, startsWith, List.getElem?_cons_zero, List.getElem?_cons_succ,
          Option.getD_some, open?]
        obtain plain | ⟨orig, origLine⟩ := (after? origHead (Line.content line)).eq_none_or_eq_some
        · simp only [plain]
          rfl
        obtain plain | ⟨new, newLine⟩ := (after? newHead (Line.content next)).eq_none_or_eq_some
        · simp only [origLine, plain]
          rfl
        · have origSlice : slice (Line.content line) 4 (Line.content line).length = .ok orig :=
            slice_after? origLine
          have newSlice : slice (Line.content next) 4 (Line.content next).length = .ok new :=
            slice_after? newLine
          simp only [origLine, newLine, origSlice, newSlice, Option.isSome_some, Bool.and_self,
            if_true]
          rfl

end Lookup

/-! ## Registers of a reader -/

namespace Place

/-- What the loop does where the reader stands. -/
def phase : Place → Phase
  | .header pairSeen => .header pairSeen
  | .payload => .payload
  | .hunk left _ => .hunk left
  | .between _ => .between

/-- The kind of the last body line, where a marker may need it; elsewhere the register is stale. -/
def last (stale : Option BodyKind) : Place → Option BodyKind
  | .hunk _ last | .between last => last
  | .header _ | .payload => stale

@[simp] theorem phase_inHunk (left : Remaining) (last : Option BodyKind) :
    (Place.inHunk left last).phase = if left.isDone then .between else .hunk left := by
  unfold inHunk; split <;> rfl

@[simp] theorem last_inHunk (left : Remaining) (last stale : Option BodyKind) :
    (Place.inHunk left last).last stale = last := by
  unfold inHunk; split <;> rfl

theorem eq_hunk_of_phase {place : Place} {left : Remaining} (phase : place.phase = .hunk left) :
    ∃ last, place = .hunk left last := by
  cases place with
  | hunk left last =>
      cases phase
      exact ⟨last, rfl⟩
  | header | payload | between => cases phase

end Place

namespace Loop

/-- The registers at a section in hand. -/
@[simps]
def within (closed : List FileRecord) (builder : Builder) (index : Nat) (last : Option BodyKind)
    (phase : Phase) : Loop :=
  { closed, current := some builder, pending := [], index, last, phase }

end Loop

/-- The registers of a reader. -/
def Reader.loop (reader : Reader) (stale : Option BodyKind) : Loop :=
  match reader.state with
  | .seeking previous pending =>
      { closed := reader.closed
        current := previous.map Draft.builder
        pending := pending.reverse.flatten
        index := reader.passed
        last := stale
        phase := .seeking }
  | .reading draft place =>
      .within reader.closed draft.builder reader.passed (place.last stale) place.phase

namespace Loop

variable {dialect : Dialect} {lines : List Bytes} {closed : List FileRecord} {builder : Builder}
  {draft : Draft} {passed : Nat} {last : Option BodyKind} {phase : Phase} {line : Bytes}
  {later : List Bytes} {pairSeen : Bool}

/-- The registers after a move of a section, unless there was a fault. -/
def ofMove (closed : List FileRecord) (passed : Nat) (stale : Option BodyKind) :
    Except Fault Move → Except Halt Loop
  | .error fault => refuse fault passed
  | .ok move => .ok ((Reader.move ⟨closed, .seeking none [], passed, []⟩ move).loop stale)

@[simp] theorem ofMove_error {fault : Fault} :
    ofMove closed passed last (.error fault) = refuse fault passed := rfl

@[simp] theorem ofMove_handBack :
    ofMove closed passed last (.ok (.handBack draft)) =
      .ok (within closed draft.builder passed last .seeking) := rfl

@[simp] theorem ofMove_seeking :
    ofMove closed passed last (.ok (.one (.seeking (some draft) []))) =
      .ok (within closed draft.builder (passed + 1) last .seeking) := rfl

@[simp] theorem ofMove_one {place : Place} :
    ofMove closed passed last (.ok (.one (.reading draft place))) =
      .ok (within closed draft.builder (passed + 1) (place.last last) place.phase) := rfl

@[simp] theorem ofMove_two {place : Place} :
    ofMove closed passed last (.ok (.two (.reading draft place))) =
      .ok (within closed draft.builder (passed + 2) (place.last last) place.phase) := rfl

@[simp] theorem enter_within (next : Phase) :
    (within closed builder passed last phase).enter next =
      within closed builder passed last next := rfl

@[simp] theorem remember_within (next : Option BodyKind) :
    (within closed builder passed last phase).remember next =
      within closed builder passed next phase := rfl

@[simp] theorem takeLine_within (change : Builder → Builder) :
    (within closed builder passed last phase).takeLine lines change =
      within closed ((change builder).append (rawAt lines passed)) (passed + 1) last phase := rfl

theorem openHunk_eq (raw : rawAt lines passed = line) :
    openHunk lines (within closed draft.builder passed last phase) =
      ofMove closed passed last (Dialect.startHunk draft line) := by
  cases opens : Hunk.ofHeader? (Line.content line) with
  | none => simp [openHunk, raw, Dialect.startHunk, opens]
  | some hunk => simp [openHunk, raw, startHunk_of_opens opens, opens]

theorem parseBetweenHunks_eq (raw : rawAt lines passed = line) :
    parseBetweenHunks lines (within closed draft.builder passed last .between) =
      ofMove closed passed last (Dialect.betweenStep draft last line) := by
  have next : (if Hunk.announcedBy (Line.content line) then
        openHunk lines (within closed draft.builder passed last .between)
      else .ok (within closed draft.builder passed last .seeking)) =
      ofMove closed passed last (Dialect.nextHunk draft line) := by
    rw [Dialect.nextHunk]
    split
    · exact openHunk_eq raw
    · rfl
  cases last with
  | none => simp [parseBetweenHunks, raw, Dialect.betweenStep, next]
  | some kind =>
      by_cases marks : (Line.content line).head? = some backslash
      · simp [parseBetweenHunks, raw, Dialect.betweenStep, marks, Place.last, Place.phase]
      · simp [parseBetweenHunks, raw, Dialect.betweenStep, marks, next]

theorem parsePayload_eq (raw : rawAt lines passed = line)
    (ahead : lines.drop passed = line :: later) :
    parsePayload dialect lines (within closed draft.builder passed last .payload) =
      ofMove closed passed last (.ok (dialect.payloadStep draft line later)) := by
  simp only [parsePayload, within_index, Dialect.startsAt_eq, ahead, Dialect.payloadStep]
  split <;> simp [raw, Place.last, Place.phase]

theorem parseHunkLine_of_cut {left : Remaining} (cut : dialect.cutsAt lines left passed = true) :
    parseHunkLine dialect lines (within closed builder passed last phase) left =
      .error (.refused ⟨.truncated left, passed⟩) :=
  if_pos cut

theorem parseHunkLine_eq (raw : rawAt lines passed = line) {left : Remaining}
    (uncut : dialect.cutsAt lines left passed = false) :
    parseHunkLine dialect lines (within closed draft.builder passed last (.hunk left)) left =
      ofMove closed passed last (Dialect.hunkStep draft left last line) := by
  simp only [parseHunkLine, within_index, within_last, uncut, Bool.false_eq_true, if_false, raw,
    Dialect.hunkStep]
  cases BodyLine.ofContent? (Line.content line) with
  | none => rfl
  | some body =>
      cases body with
      | marker =>
          cases last with
          | none => rfl
          | some kind => simp [raw, Place.last, Place.phase]
      | change kind =>
          cases fits : left.take? kind with
          | none => simp [fits]
          | some after =>
              cases owes : after.isDone <;> simp [raw, fits, owes, Place.last, Place.phase]

theorem applyPair_eq {orig : Bytes} (raw : rawAt lines passed = line)
    (ahead : lines.drop passed = line :: later)
    (origLine : after? Dialect.origHead (Line.content line) = some orig) :
    applyPair dialect lines (within closed draft.builder passed last phase) =
      ofMove closed passed last (dialect.readPair draft orig line later) := by
  have rest : (Line.content line).drop 4 = orig := by
    rw [after?_eq_some_iff.1 origLine]
    rfl
  have raws : rawAt lines (passed + 1) = later.head?.getD [] := by
    rw [rawAt, getElem?_eq_drop, ahead, List.getElem?_cons_succ, List.head?_eq_getElem?]
  simp only [applyPair, within_index, within_current, raw, rest, raws, Dialect.readPair]
  cases later with
  | nil => rfl
  | cons next later =>
      simp only [List.head?_cons, Option.getD_some]
      cases after? Dialect.newHead (Line.content next) with
      | none => rfl
      | some new =>
          let facts := dialect.addPair orig new draft.toFileFacts
          show _ = Except.ok (within closed
            (((draft.withFacts facts).append line).append next).builder (passed + 2) last
            (.header true))
          simp [within, facts]

theorem pairOrHunk_eq (raw : rawAt lines passed = line)
    (ahead : lines.drop passed = line :: later) :
    pairOrHunk dialect lines (within closed draft.builder passed last phase) pairSeen =
      ofMove closed passed last (dialect.readPairOrHunk draft pairSeen line later) := by
  simp only [pairOrHunk, within_index, raw, Dialect.readPairOrHunk]
  cases origLine : after? Dialect.origHead (Line.content line) with
  | some orig =>
      have headed : (Line.content line).startsWith Dialect.origHead = true := by
        simp [startsWith, origLine]
      rw [if_pos headed]
      cases pairSeen with
      | true => rfl
      | false => exact applyPair_eq raw ahead origLine
  | none =>
      have headless : ¬ (Line.content line).startsWith Dialect.origHead = true := by
        simp [startsWith, origLine]
      rw [if_neg headless]
      by_cases newLine : (Line.content line).startsWith Dialect.newHead = true
      · simp [newLine]
      by_cases announced : Hunk.announcedBy (Line.content line) = true
      · cases pairSeen with
        | true => simpa [newLine, announced] using openHunk_eq raw
        | false => simp [newLine, announced]
      · simp [newLine, announced]

theorem parseHeader_eq (raw : rawAt lines passed = line)
    (ahead : lines.drop passed = line :: later) :
    parseHeader dialect lines (within closed draft.builder passed last phase) pairSeen =
      ofMove closed passed last (dialect.headerStep draft pairSeen line later) := by
  simp only [parseHeader, within_index, within_current, Dialect.startsAt_eq, ahead, raw,
    pairOrHunk_eq raw ahead, Dialect.headerStep]
  cases dialect.startsSection (line :: later) with
  | true => rfl
  | false =>
      cases dialect.binaryNotice? (Line.content line) with
      | some notice => cases notice <;> simp [raw] <;> rfl
      | none =>
          cases pairSeen with
          | true => rfl
          | false =>
              have facts : draft.builder.toFileFacts = draft.toFileFacts := rfl
              rw [facts]
              cases dialect.readHeader (Line.content line) draft.toFileFacts with
              | error fault => rfl
              | ok header =>
                  cases header with
                  | none => rfl
                  | some facts =>
                      simp [raw]
                      rfl

/-! ## Steps between sections -/

/-- Closing a section that has text does not panic. -/
theorem closeCurrent_eq {loop : Loop} {previous : Option Draft}
    (current : loop.current = previous.map Draft.builder)
    (filled : ∀ draft, previous = some draft → draft.text ≠ []) :
    loop.closeCurrent = .ok ((previous.map Draft.close).toList ++ loop.closed) := by
  cases previous with
  | none => simp [closeCurrent, current]
  | some draft =>
      have closes := Draft.finalize_builder (filled draft rfl)
      simp [closeCurrent, current, closes]

/-- The lines of a boundary, looked up one by one. -/
theorem map_rawAt {index count : Nat} (within : count ≤ (lines.drop index).length) :
    (List.range count).map (fun offset => rawAt lines (index + offset)) =
      (lines.drop index).take count := by
  refine List.ext_getElem (by simpa using within) fun offset here there => ?_
  have bound : index + offset < lines.length := by
    simp only [List.length_take, List.length_drop] at there
    omega
  simp [rawAt, bound]

theorem foldl_append_builder (pieces : List Bytes) (draft : Draft) :
    pieces.foldl Builder.append draft.builder = (pieces.foldl Draft.append draft).builder := by
  induction pieces generalizing draft with
  | nil => rfl
  | cons piece pieces ih => rw [List.foldl_cons, List.foldl_cons, ← ih, Draft.builder_append]

theorem startFile_eq {opening : Opening} {previous : Option Draft} {pending ahead : List Bytes}
    (kept : ahead = lines.drop passed) (opens : dialect.open? ahead = .ok (some opening))
    (filled : ∀ draft, previous = some draft → draft.text ≠ []) :
    startFile (Reader.loop ⟨closed, .seeking previous pending, passed, ahead⟩ last) lines opening =
      .ok ((Reader.start ⟨closed, .seeking previous pending, passed, ahead⟩ opening previous
        pending).loop last) := by
  subst kept
  obtain ⟨boundary, rest, split, counted, -⟩ := Dialect.exists_boundary_of_opens opens
  have within : opening.lineCount ≤ (lines.drop passed).length := by
    rw [split, List.length_append, counted]
    exact Nat.le_add_right _ _
  let reader : Reader := ⟨closed, .seeking previous pending, passed, lines.drop passed⟩
  have closes : (reader.loop last).closeCurrent =
      .ok ((previous.map Draft.close).toList ++ closed) := closeCurrent_eq rfl filled
  have bare : (Draft.ofFacts opening.facts).preamble = none := rfl
  have prepends := Draft.prepend_builder bare pending.reverse.flatten
  rw [startFile, closes, ← Draft.builder_ofFacts]
  simp only [Reader.loop, prepends, ← List.foldl_map, map_rawAt within, foldl_append_builder,
    orPanic_ok, ok_bind, pure_eq_ok]
  rfl

/-! ## Every step -/

/-- What the loop makes of a step of the reader. -/
def ofStep (stale : Option BodyKind) : Except ParseError Reader → Except Halt Loop
  | .error error => .error (.refused error)
  | .ok next => .ok (next.loop stale)

theorem ofMove_eq (checked : Except Fault Move) (reader : Reader) (stale : Option BodyKind) :
    ofMove reader.closed reader.passed stale checked =
      ofStep stale ((atLine (Line.number reader.passed) checked).map reader.move) := by
  cases checked with
  | error => rfl
  | ok move => cases move <;> rfl

theorem seekBoundary_eq {previous : Option Draft} {pending : List Bytes}
    (ahead : lines.drop passed = line :: later)
    (filled : ∀ draft, previous = some draft → draft.text ≠ []) :
    seekBoundary dialect lines
        (Reader.loop ⟨closed, .seeking previous pending, passed, line :: later⟩ last) =
      ofStep last (Reader.step dialect dialect.cutRule
        ⟨closed, .seeking previous pending, passed, line :: later⟩ line later) := by
  have begins := dialect.begin?_eq lines passed
  rw [ahead] at begins
  simp only [seekBoundary, Reader.loop, begins, Reader.step]
  cases opens : dialect.open? (line :: later) with
  | error fault => rfl
  | ok opening =>
      cases opening with
      | none => simp [ofStep, Reader.loop, rawAt_eq ahead]
      | some opening => exact startFile_eq ahead.symm opens filled

/-- **A step of the loop is a step of the reader.** Neither the section that is not there nor any of
the panics comes up. -/
theorem step_eq {reader : Reader} (stale : Option BodyKind) (ahead : reader.ahead = line :: later)
    (kept : lines.drop reader.passed = reader.ahead)
    (filled : ∀ draft, reader.state.inHand = some draft → draft.text ≠ []) :
    (reader.loop stale).step dialect lines =
      ofStep (reader.loop stale).last (reader.step dialect dialect.cutRule line later) := by
  obtain ⟨closed, state, passed, _⟩ := reader
  subst ahead
  have raw := rawAt_eq kept
  cases state with
  | seeking previous pending => exact seekBoundary_eq kept filled
  | reading draft place =>
      have moves (checked : Except Fault Move) (stale : Option BodyKind) :=
        ofMove_eq checked ⟨closed, .reading draft place, passed, line :: later⟩ stale
      have steps : Reader.step dialect dialect.cutRule
          ⟨closed, .reading draft place, passed, line :: later⟩ line later =
          (dialect.sectionStep dialect.cutRule passed draft place line later).map
            (Reader.move ⟨closed, .reading draft place, passed, line :: later⟩) := by
        simp only [Reader.step]
        cases dialect.sectionStep dialect.cutRule passed draft place line later <;> rfl
      rw [steps]
      cases place with
      | header pairSeen =>
          exact (parseHeader_eq raw kept).trans (moves _ _)
      | payload => exact (parsePayload_eq raw kept).trans (moves _ _)
      | between last => exact (parseBetweenHunks_eq raw).trans (moves _ _)
      | hunk left last =>
          have cuts := dialect.cutsAt_eq lines left passed
          rw [show lines.drop passed = line :: later from kept] at cuts
          cases cut : dialect.cutRule left (line :: later) with
          | true =>
              rw [Dialect.sectionStep, if_pos cut]
              exact parseHunkLine_of_cut (cuts.trans cut)
          | false =>
              rw [Dialect.sectionStep, if_neg (Bool.eq_false_iff.1 cut)]
              exact (parseHunkLine_eq raw (cuts.trans cut)).trans (moves _ _)

/-- Text after the last section goes to it; an empty one changes nothing. -/
theorem finish_seeking (closed : List FileRecord) (builder : Builder) (pending : Bytes)
    (index : Nat) (last : Option BodyKind) :
    finish dialect lines ⟨closed, some builder, pending, index, last, .seeking⟩ =
      (orPanic (builder.append pending).finalize).map fun record => (record :: closed).reverse := by
  cases pending with
  | nil => rw [Builder.append_nil]; rfl
  | cons => rfl

/-- **The loop ends as the reader does**, when no line is ahead. -/
theorem finish_eq {reader : Reader} (stale : Option BodyKind) (past : reader.passed = lines.length)
    (filled : ∀ draft, reader.state.inHand = some draft → draft.text ≠ []) :
    (reader.loop stale).finish dialect lines = (reader.close dialect).mapError .refused := by
  obtain ⟨closed, state, passed, ahead⟩ := reader
  dsimp only at past filled
  subst past
  cases state with
  | reading draft place =>
      have closes := Draft.finalize_builder (filled draft rfl)
      cases place with
      | hunk left last => rfl
      | header | payload | between =>
          simp [finish, Reader.loop, within, Place.phase, closes, Reader.close]
  | seeking previous pending =>
      cases previous with
      | none =>
          simp only [finish, Reader.loop, Option.map_none, Reader.close, List.all_flatten,
            List.all_reverse, pure_eq_ok]
          split <;> rfl
      | some draft =>
          have text : (draft.append pending.reverse.flatten).text ≠ [] := by
            simp [filled draft rfl]
          refine (finish_seeking closed draft.builder _ _ stale).trans ?_
          rw [← Draft.builder_append, Draft.finalize_builder text]
          rfl

/-! ## Runs -/

variable {data : Bytes} {loop : Loop} {outcome : Except Halt (List FileRecord)}

theorem index_loop (reader : Reader) (stale : Option BodyKind) :
    (reader.loop stale).index = reader.passed := by
  unfold Reader.loop
  split <;> rfl

theorem ofStep_eq_ok {stale : Option BodyKind} {answer : Except ParseError Reader}
    (stepped : ofStep stale answer = .ok loop) :
    ∃ next, answer = .ok next ∧ loop = next.loop stale := by
  cases answer with
  | error => cases stepped
  | ok next =>
      cases stepped
      exact ⟨next, rfl, rfl⟩

/-- Whether a line is at hand, by index or ahead. -/
theorem index_lt_iff {reader : Reader} (stale : Option BodyKind)
    (reaches : Reader.Reaches dialect dialect.cutRule (Reader.ofLines lines) reader) :
    (reader.loop stale).index < lines.length ↔ ∃ line later, reader.ahead = line :: later := by
  have counted := reaches.passed_add_length
  rw [index_loop, ← List.ne_nil_iff_exists_cons, ← List.length_pos_iff]
  omega

theorem step_of_reaches {reader : Reader} (stale : Option BodyKind)
    (reaches : Reader.Reaches dialect dialect.cutRule (Reader.ofLines (Line.split data)) reader)
    (ahead : reader.ahead = line :: later) :
    (reader.loop stale).step dialect (Line.split data) =
      ofStep (reader.loop stale).last (reader.step dialect dialect.cutRule line later) :=
  step_eq stale ahead reaches.ahead_eq_drop.symm fun _ => reaches.text_ne_nil

/-- A turn from the registers of a reader leads to those that a step of the reader leads to. -/
theorem Turn.exists_step {reader : Reader} {stale : Option BodyKind}
    (turn : Turn dialect (Line.split data) (reader.loop stale) loop)
    (reaches : Reader.Reaches dialect dialect.cutRule (Reader.ofLines (Line.split data)) reader) :
    ∃ next stale, loop = next.loop stale ∧ Reader.Step dialect dialect.cutRule reader next := by
  obtain ⟨before, stepped⟩ := turn
  obtain ⟨line, later, ahead⟩ := (index_lt_iff stale reaches).1 before
  rw [step_of_reaches stale reaches ahead] at stepped
  obtain ⟨next, answer, rfl⟩ := ofStep_eq_ok stepped
  exact ⟨next, _, rfl, (Reader.step_eq_ok_iff ahead).1 answer⟩

/-- The registers that the loop comes to are those of a reader. -/
theorem Turns.exists_reaches (turns : Turns dialect (Line.split data) initial loop) :
    ∃ reader stale, loop = reader.loop stale ∧
      Reader.Reaches dialect dialect.cutRule (Reader.ofLines (Line.split data)) reader := by
  induction turns with
  | refl => exact ⟨Reader.ofLines (Line.split data), none, rfl, .refl⟩
  | tail _ turn ih =>
      obtain ⟨reader, stale, rfl, reaches⟩ := ih
      obtain ⟨next, stale', rfl, stepped⟩ := turn.exists_step reaches
      exact ⟨next, stale', rfl, reaches.tail stepped⟩

/-- From the registers of a reader on, the loop ends as the reader does. -/
theorem ends_of_reaches {reader : Reader} (stale : Option BodyKind)
    (reaches : Reader.Reaches dialect dialect.cutRule (Reader.ofLines (Line.split data)) reader) :
    Ends dialect (Line.split data) (reader.loop stale)
      (((reader.run dialect dialect.cutRule).bind (Reader.close dialect)).mapError .refused) := by
  fun_induction Reader.run dialect dialect.cutRule reader generalizing stale with
  | case1 reader nothing =>
      have past : reader.passed = (Line.split data).length := by
        simpa [nothing] using reaches.passed_add_length
      have finishes : (reader.loop stale).finish dialect (Line.split data) = _ :=
        finish_eq stale past fun _ => reaches.text_ne_nil
      show Ends _ _ _ ((reader.close dialect).mapError .refused)
      rw [← finishes]
      exact .finish (by rw [index_loop, past])
  | case2 reader line later ahead error failed =>
      have steps := step_of_reaches stale reaches ahead
      rw [failed] at steps
      exact .halt ((index_lt_iff stale reaches).2 ⟨line, later, ahead⟩) steps
  | case3 reader line later ahead next stepped ih =>
      have steps := step_of_reaches stale reaches ahead
      rw [stepped] at steps
      have further := reaches.tail ((Reader.step_eq_ok_iff ahead).1 stepped)
      exact .turn ⟨(index_lt_iff stale reaches).2 ⟨line, later, ahead⟩, steps⟩ (ih _ further)

/-- Where a loop ends after some turns, it ends from the start. -/
theorem Turns.ends {start : Loop} (turns : Turns dialect lines start loop)
    (ends : Ends dialect lines loop outcome) : Ends dialect lines start outcome := by
  induction turns using Relation.ReflTransGen.head_induction_on with
  | refl => exact ends
  | head turn _ ih => exact .turn turn ih

/-- A loop ends in one way only. -/
theorem Ends.eq {other : Except Halt (List FileRecord)} (ends : Ends dialect lines loop outcome)
    (ends' : Ends dialect lines loop other) : outcome = other := by
  induction ends with
  | finish past =>
      cases ends' with
      | finish => rfl
      | halt ahead => exact absurd past (Nat.not_le.2 ahead)
      | turn turn => exact absurd past (Nat.not_le.2 turn.1)
  | halt ahead halts =>
      cases ends' with
      | finish past => exact absurd past (Nat.not_le.2 ahead)
      | halt _ halts' =>
          rw [halts] at halts'
          cases halts'
          rfl
      | turn turn =>
          have stepped := turn.2
          rw [halts] at stepped
          cases stepped
  | turn turn _ ih =>
      cases ends' with
      | finish past => exact absurd past (Nat.not_le.2 turn.1)
      | halt _ halts =>
          rw [turn.2] at halts
          cases halts
      | turn turn' ends' =>
          have stepped := turn'.2
          rw [turn.2] at stepped
          cases stepped
          exact ih ends'

/-- **The loop ends, and as the reader does.** -/
theorem ends_iff :
    Ends dialect (Line.split data) initial outcome ↔
      outcome = (dialect.parse data).mapError .refused := by
  have ends : Ends dialect (Line.split data) initial ((dialect.parse data).mapError .refused) := by
    rw [Dialect.parse, Dialect.parseWith_eq_bind]
    exact ends_of_reaches none .refl
  constructor
  · exact fun ends' => ends'.eq ends
  · rintro rfl
    exact ends

end Loop

end DiffSections
