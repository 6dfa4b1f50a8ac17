import DiffSections.Proofs.Reader.BodyLines
import DiffSections.Proofs.Reader.Faults
import DiffSections.Proofs.SelfContained

/-!
# DiffSections.Proofs.SectionStarts -- no section is lost, and none is invented

The sections of a diff that is read start at its boundaries, all of them but those that are body
lines of a hunk (`Dialect.OpensAt`). Each step keeps this for the lines it takes
(`Reader.Step.sectionStarts_records`): in a section no boundary is taken outside hunks, the second
line of a pair starts nothing, and a reader between sections starts one at the first boundary. So an
input has no sections when it has no boundaries, and is then blank or not recognized.
-/

namespace DiffSections

set_option autoImplicit false

theorem filter_range_of_le {holds : Nat → Bool} {few many : Nat} (le : few ≤ many)
    (none : ∀ index, few ≤ index → index < many → holds index = false) :
    (List.range many).filter holds = (List.range few).filter holds := by
  induction many, le using Nat.le_induction with
  | base => rfl
  | succ many le ih =>
      have last := none many le (Nat.lt_add_one many)
      rw [List.range_succ, List.filter_append, ih fun index least most =>
        none index least (Nat.lt_succ_of_lt most)]
      simp [last]

/-! ## Where sections start -/

/-- The indices of the lines that the sections of these records start at, if `passed` lines come
before them. -/
def sectionStarts (passed : Nat) : List FileRecord → List Nat
  | [] => []
  | record :: later =>
      (passed + (Line.split record.preamble).length) ::
        sectionStarts (passed + record.lines.length) later

theorem length_sectionStarts (passed : Nat) (records : List FileRecord) :
    (sectionStarts passed records).length = records.length := by
  induction records generalizing passed with
  | nil => rfl
  | cons record later ih => rw [sectionStarts, List.length_cons, ih, List.length_cons]

theorem sectionStarts_append_singleton (passed : Nat) (records : List FileRecord)
    (record : FileRecord) :
    sectionStarts passed (records ++ [record]) = sectionStarts passed records ++
      [passed + (records.flatMap FileRecord.lines).length +
        (Line.split record.preamble).length] := by
  induction records generalizing passed with
  | nil => rfl
  | cons first later ih =>
      simp only [List.cons_append, sectionStarts, ih, List.flatMap_cons, List.length_append,
        Nat.add_assoc]

namespace Dialect

/-- In `data` a boundary starts at the line with this index, and it is no body line of a hunk. -/
def OpensAt (dialect : Dialect) (data : Bytes) (index : Nat) : Prop :=
  dialect.startsSection ((Line.split data).drop index) = true ∧ ¬ dialect.TakesBodyAt data index

instance (dialect : Dialect) (data : Bytes) (index : Nat) :
    Decidable (dialect.OpensAt data index) :=
  inferInstanceAs (Decidable (_ ∧ _))

variable {dialect : Dialect} {data : Bytes} {index : Nat}

/-- After the last line nothing starts. -/
theorem not_opensAt_of_length_le (past : (Line.split data).length ≤ index) :
    ¬ dialect.OpensAt data index := by
  rintro ⟨starts, -⟩
  rw [List.drop_of_length_le past] at starts
  cases dialect <;> cases starts

end Dialect

/-! ## Each step -/

namespace Reader

/-- The records of the sections found so far, oldest first. -/
def records (reader : Reader) : List FileRecord :=
  reader.closed.reverse ++ (reader.state.inHand.map Draft.close).toList

variable {dialect : Dialect} {data : Bytes} {reader before after : Reader}
  {closed : List FileRecord} {draft : Draft} {place : Place} {passed index : Nat} {line : Bytes}
  {lines : List Bytes} {move : Move}

/-- **No section starts at the line that a section takes**: it is a body line of a hunk, or no
boundary. -/
theorem not_opensAt_passed
    (reaches : Reaches dialect dialect.cutRule (ofLines (Line.split data))
      ⟨closed, .reading draft place, passed, line :: lines⟩)
    (moves : SectionMove dialect dialect.cutRule draft line lines place move)
    (takes : ∀ later, move ≠ .handBack later) : ¬ dialect.OpensAt data passed := by
  rintro ⟨starts, notBody⟩
  rw [← reaches.ahead_eq_drop] at starts
  have stepped : Step dialect dialect.cutRule
      ⟨closed, .reading draft place, passed, line :: lines⟩ _ := .inside moves
  by_cases inHunk : ∃ left last, place = .hunk left last
  · obtain ⟨left, last, rfl⟩ := inHunk
    cases moves with
    | marker _ body =>
        rw [Dialect.startsSection_of_marker body] at starts
        cases starts
    | change _ body =>
        exact notBody ⟨_, _, reaches, rfl, ⟨_, _, _, _, _, _, rfl, rfl, body⟩, stepped⟩
  · have notHunk : ∀ left last, place ≠ .hunk left last :=
      fun left last isHunk => inHunk ⟨left, last, isHunk⟩
    have git : place = .payload → dialect = .git := by
      rintro rfl
      exact reaches.git_of_payload rfl
    rw [moves.startsSection_eq_false takes notHunk git] at starts
    cases starts

/-- Nor at the second line of a pair. -/
theorem not_opensAt_succ {state : ReaderState}
    (reaches : Reaches dialect dialect.cutRule (ofLines (Line.split data))
      ⟨closed, .reading draft place, passed, line :: lines⟩)
    (moves : SectionMove dialect dialect.cutRule draft line lines place (.two state)) :
    ¬ dialect.OpensAt data (passed + 1) := by
  rintro ⟨starts, -⟩
  rw [← List.drop_drop, ← reaches.ahead_eq_drop] at starts
  cases moves with
  | pair _ _ _ _ ahead newLine =>
      subst ahead
      rw [List.drop_one, List.tail_cons, Dialect.startsSection_of_new newLine] at starts
      cases starts

/-- No section starts at any line that a section takes. -/
theorem not_opensAt_of_moves
    (reaches : Reaches dialect dialect.cutRule (ofLines (Line.split data))
      ⟨closed, .reading draft place, passed, line :: lines⟩)
    (moves : SectionMove dialect dialect.cutRule draft line lines place move)
    (least : passed ≤ index)
    (most : index <
      (Reader.move ⟨closed, .reading draft place, passed, line :: lines⟩ move).passed) :
    ¬ dialect.OpensAt data index := by
  cases move with
  | handBack => exact absurd most (Nat.not_lt.2 least)
  | one state =>
      obtain rfl : passed = index := Nat.le_antisymm least (Nat.le_of_lt_succ most)
      exact not_opensAt_passed reaches moves (by simp)
  | two state =>
      rcases Nat.lt_or_eq_of_le least with later | rfl
      · obtain rfl : passed + 1 = index := Nat.le_antisymm later (Nat.le_of_lt_succ most)
        exact not_opensAt_succ reaches moves
      · exact not_opensAt_passed reaches moves (by simp)

/-- What a reader between sections has taken are the lines of its records, and those pending. -/
theorem length_records {previous : Option Draft} {pending ahead : List Bytes}
    (reaches : Reaches dialect dialect.cutRule (ofLines (Line.split data))
      ⟨closed, .seeking previous pending, passed, ahead⟩) :
    ((records ⟨closed, .seeking previous pending, passed, ahead⟩).flatMap
      FileRecord.lines).length + (Line.split pending.reverse.flatten).length = passed := by
  have cut := Line.isCut_split data
  have retraced := Reaches.retraced cut reaches.plain
  have within : pending.reverse <:+: Line.split data :=
    .trans ⟨(previous.map Draft.lines).getD [], [], by simp [ReaderState.allLines]⟩
      retraced.within
  have lines := (retraced.closed_start cut).2
  have whole := congrArg List.length retraced.whole
  have counted := reaches.passed_add_length
  have same : records ⟨closed, .seeking previous pending, passed, ahead⟩ =
      ((previous.map Draft.close).toList ++ closed).reverse := by
    cases previous <;> simp [records, ReaderState.inHand]
  rw [same, lines, Line.split_flatten (cut.of_stretch within)]
  simp only [ReaderState.allLines, List.length_append] at whole counted ⊢
  omega

theorem records_start {previous : Option Draft} {pending ahead : List Bytes} (opening : Opening) :
    records (Reader.start ⟨closed, .seeking previous pending, passed, ahead⟩ opening previous
      pending) = records ⟨closed, .seeking previous pending, passed, ahead⟩ ++
        [(startDraft opening pending (ahead.take opening.lineCount)).close] := by
  cases previous <;> simp [records, Reader.start, take]

theorem preamble_close_startDraft (opening : Opening) (pending lines : List Bytes) :
    (startDraft opening pending lines).close.preamble = pending.reverse.flatten := by
  rw [startDraft_eq]
  rfl

/-- Where a reader starts a section, one opens, and none at the second line of the boundary. -/
theorem filter_opensAt_start {previous : Option Draft} {pending : List Bytes} {opening : Opening}
    (reaches : Reaches dialect dialect.cutRule (ofLines (Line.split data))
      ⟨closed, .seeking previous pending, passed, line :: lines⟩)
    (opens : dialect.open? (line :: lines) = .ok (some opening)) :
    (List.range (passed + opening.lineCount)).filter (dialect.OpensAt data ·) =
      (List.range passed).filter (dialect.OpensAt data ·) ++ [passed] := by
  have ahead : line :: lines = (Line.split data).drop passed := reaches.ahead_eq_drop
  have starts : dialect.startsSection (line :: lines) = true :=
    (Dialect.open?_ne_none_iff dialect _).1 (by simp [opens])
  have here : dialect.OpensAt data passed := by
    refine ⟨ahead ▸ starts, fun taken => ?_⟩
    obtain ⟨_, _, _, _, _, _, inHunk, -⟩ := reaches.atBodyLine taken
    cases inHunk
  -- The boundary may span a second line.
  have second : ∀ index, passed + 1 ≤ index → index < passed + opening.lineCount →
      decide (dialect.OpensAt data index) = false := by
    intro index least most
    obtain ⟨count, rfl⟩ := Nat.exists_eq_add_of_le (Nat.le_of_succ_le least)
    have quiet := Dialect.startsSection_drop_of_opens opens (Nat.lt_add_right_iff_pos.1 least)
      (Nat.lt_of_add_lt_add_left most)
    rw [ahead, List.drop_drop] at quiet
    simp [Dialect.OpensAt, quiet]
  rw [filter_range_of_le (Nat.add_le_add_left (lineCount_pos opening) passed) second,
    List.range_succ, List.filter_append]
  simp [here]

/-- **A step starts a section exactly where one opens.** -/
theorem Step.sectionStarts_records
    (reaches : Reaches dialect dialect.cutRule (ofLines (Line.split data)) before)
    (stepped : Step dialect dialect.cutRule before after)
    (listed : sectionStarts 0 before.records =
      (List.range before.passed).filter (dialect.OpensAt data ·)) :
    sectionStarts 0 after.records =
      (List.range after.passed).filter (dialect.OpensAt data ·) := by
  cases stepped with
  | @skip closed previous pending passed line lines closedSection =>
      refine listed.trans (filter_range_of_le (Nat.le_succ _) fun index least most => ?_).symm
      obtain rfl : passed = index := Nat.le_antisymm least (Nat.le_of_lt_succ most)
      have stays := Dialect.open?_eq_none_iff.1 closedSection
      have ahead : line :: lines = (Line.split data).drop passed := reaches.ahead_eq_drop
      rw [ahead] at stays
      simp [Dialect.OpensAt, stays]
  | @start closed previous pending passed line lines opening opens =>
      rw [records_start, sectionStarts_append_singleton, listed, preamble_close_startDraft,
        Nat.zero_add, length_records reaches]
      exact (filter_opensAt_start reaches opens).symm
  | @inside closed draft place passed line lines move moves =>
      obtain ⟨later, inHand, preamble⟩ := moves.preamble_eq
      have same : sectionStarts 0 (records (Reader.move
          ⟨closed, .reading draft place, passed, line :: lines⟩ move)) =
          sectionStarts 0 (records ⟨closed, .reading draft place, passed, line :: lines⟩) := by
        simp [records, inHand, sectionStarts_append_singleton, Draft.close, preamble]
      rw [same, listed]
      refine (filter_range_of_le ?_ fun index least most => ?_).symm
      · exact (Step.inside moves).passed_le
      · simpa using not_opensAt_of_moves reaches moves least most

theorem Reaches.sectionStarts_records
    (reaches : Reaches dialect dialect.cutRule (ofLines (Line.split data)) reader) :
    sectionStarts 0 reader.records =
      (List.range reader.passed).filter (dialect.OpensAt data ·) := by
  induction reaches with
  | refl => rfl
  | tail reaches stepped ih => exact stepped.sectionStarts_records reaches ih

/-- Text after the last section moves no section. -/
theorem sectionStarts_of_close {records : List FileRecord}
    (closes : reader.close dialect = .ok records) :
    sectionStarts 0 records = sectionStarts 0 reader.records := by
  obtain ⟨closed, state, passed, ahead⟩ := reader
  rcases close_eq_ok closes with ⟨draft, place, rfl, -, rfl⟩ | ⟨draft, pending, rfl, rfl⟩ |
    ⟨pending, rfl, -, rfl⟩
  · simp [Reader.records]
  · simp [Reader.records, sectionStarts_append_singleton, Draft.close]
  · simp [Reader.records]

end Reader

/-! ## Inputs without sections -/

namespace Dialect

variable {dialect : Dialect} {data line : Bytes} {lines : List Bytes} {index : Nat}

theorem quiet_nil_iff :
    dialect.Quiet lines [] ↔ ∀ index, dialect.startsSection (lines.drop index) = false := by
  induction lines with
  | nil =>
      simp only [List.drop_nil]
      exact ⟨fun _ _ => by cases dialect <;> rfl, fun _ => trivial⟩
  | cons line lines ih =>
      simp only [Quiet, List.append_nil, ih]
      constructor
      · rintro ⟨here, later⟩ (_ | index)
        · exact here
        · exact later index
      · exact fun quiet => ⟨quiet 0, fun index => quiet (index + 1)⟩

theorem startsSection_of_blank (blank : line.all Bytes.isBlank = true) (lines : List Bytes) :
    dialect.startsSection (line :: lines) = false := by
  refine Bool.eq_false_iff.2 fun starts => ?_
  obtain ⟨b, rest, content, inked⟩ : ∃ b rest,
      Line.content line = b :: rest ∧ Bytes.isBlank b = false := by
    obtain ⟨rest, boundary | orig⟩ := content_of_startsSection starts
    · exact ⟨_, _, boundary, by decide⟩
    · exact ⟨_, _, orig, by decide⟩
  have member : b ∈ line := (Line.content_isPrefix line).mem (content ▸ List.mem_cons_self)
  rw [List.all_eq_true.1 blank b member] at inked
  cases inked

theorem all_isBlank_split (data : Bytes) :
    (Line.split data).all (·.all Bytes.isBlank) = data.all Bytes.isBlank := by
  conv_rhs => rw [← Line.flatten_split data]
  rw [List.all_flatten]

theorem quiet_of_blank (blank : data.all Bytes.isBlank = true) (index : Nat) :
    dialect.startsSection ((Line.split data).drop index) = false := by
  rw [← all_isBlank_split] at blank
  cases rest : (Line.split data).drop index with
  | nil => cases dialect <;> rfl
  | cons line lines =>
      have member : line ∈ (Line.split data).drop index := by simp [rest]
      have isBlank := List.all_eq_true.1 blank line (List.mem_of_mem_drop member)
      exact startsSection_of_blank isBlank lines

/-- Without boundaries all lines are pending at the end. -/
theorem parse_of_quiet
    (quiet : ∀ index, dialect.startsSection ((Line.split data).drop index) = false) :
    dialect.parse data =
      if data.all Bytes.isBlank then .ok [] else .error ⟨.noSection dialect, 0⟩ := by
  have reaches := (quiet_nil_iff.2 quiet).reaches dialect.cutRule [] none [] 0
  rw [List.append_nil, List.append_nil] at reaches
  have finished : (Reader.ofLines (Line.split data)).run dialect dialect.cutRule = _ :=
    Reader.run_eq_ok_iff.2 ⟨reaches, rfl⟩
  simp only [parse, parseWith, finished, Reader.close, List.all_reverse, all_isBlank_split,
    List.reverse_nil]

/-- A reader that comes to the end without a section has passed all lines, and no boundary. -/
theorem quiet_of_seeking {final : Reader} {pending : List Bytes}
    (reaches : Reader.Reaches dialect dialect.cutRule (Reader.ofLines (Line.split data)) final)
    (nothing : final.ahead = []) (seeking : final.state = .seeking none pending) :
    pending.reverse = Line.split data ∧
      ∀ index, dialect.startsSection ((Line.split data).drop index) = false := by
  have none : final.closed = [] := reaches.closed_eq_nil seeking
  have retraced := Reader.Reaches.retraced (Line.isCut_split data) reaches.plain
  obtain ⟨closed, state, passed, ahead⟩ := final
  subst nothing seeking none
  have whole : pending.reverse = Line.split data := by
    simpa [ReaderState.allLines] using retraced.whole
  have quiet : dialect.Quiet pending.reverse [] := retraced.state
  exact ⟨whole, quiet_nil_iff.1 (whole ▸ quiet)⟩

theorem parse_eq_ok_nil_iff :
    dialect.parse data = .ok [] ↔ data.all Bytes.isBlank = true := by
  constructor
  · intro parsed
    obtain ⟨final, reaches, nothing, closes⟩ := parseWith_eq_ok_iff.1 parsed
    rcases Reader.close_eq_ok closes with ⟨_, _, _, _, found⟩ | ⟨_, _, _, found⟩ |
      ⟨pending, seeking, blank, -⟩
    · simp at found
    · simp at found
    · rw [← all_isBlank_split, ← (quiet_of_seeking reaches nothing seeking).1, List.all_reverse]
      exact blank
  · intro blank
    rw [parse_of_quiet (quiet_of_blank blank), if_pos blank]

theorem parse_eq_noSection_iff :
    dialect.parse data = .error ⟨.noSection dialect, 0⟩ ↔ data.all Bytes.isBlank = false ∧
      ∀ index, dialect.startsSection ((Line.split data).drop index) = false := by
  constructor
  · intro failed
    obtain ⟨-, final, pending, reaches, nothing, seeking, inked⟩ :=
      exists_of_notRecognized failed rfl
    obtain ⟨whole, quiet⟩ := quiet_of_seeking reaches nothing seeking
    refine ⟨?_, quiet⟩
    rw [← all_isBlank_split, ← whole, List.all_reverse]
    exact inked
  · rintro ⟨inked, quiet⟩
    rw [parse_of_quiet quiet, inked]
    rfl

/-! ## Boundaries of the git dialect -/

/-- A boundary of the git dialect reads as no line of a hunk. -/
theorem not_takesBodyAt_git (starts : git.startsSection ((Line.split data).drop index) = true) :
    ¬ git.TakesBodyAt data index := by
  rintro ⟨before, _, reaches, rfl, ⟨_, _, _, line, lines, kind, -, ahead, body⟩, -⟩
  rw [← reaches.ahead_eq_drop, ahead] at starts
  obtain ⟨rest, content⟩ := Bytes.startsWith_iff.1 starts
  rw [content] at body
  cases body

theorem countP_startsSection_git (lines : List Bytes) :
    (List.range lines.length).countP (fun index => git.startsSection (lines.drop index)) =
      lines.countP fun line => (Line.content line).startsWith boundaryHead := by
  induction lines with
  | nil => rfl
  | cons line lines ih =>
      rw [List.length_cons, List.range_succ_eq_map, List.countP_cons, List.countP_map,
        List.countP_cons, ← ih]
      rfl

/-! ## Every input -/

section Parsed

variable {records : List FileRecord}

/-- The sections start at the boundaries that are no body lines. -/
theorem sectionStarts_eq_filter (parsed : dialect.parse data = .ok records) :
    sectionStarts 0 records =
      (List.range (Line.split data).length).filter (dialect.OpensAt data ·) := by
  obtain ⟨final, reaches, nothing, closes⟩ := parseWith_eq_ok_iff.1 parsed
  have passed : final.passed = (Line.split data).length := by
    simpa [nothing] using reaches.passed_add_length
  rw [Reader.sectionStarts_of_close closes, reaches.sectionStarts_records, passed]

theorem mem_sectionStarts_of_opensAt (parsed : dialect.parse data = .ok records)
    (opens : dialect.OpensAt data index) : index ∈ sectionStarts 0 records := by
  have within : index < (Line.split data).length :=
    Nat.lt_of_not_le fun past => not_opensAt_of_length_le past opens
  rw [sectionStarts_eq_filter parsed, List.mem_filter]
  exact ⟨List.mem_range.2 within, decide_eq_true opens⟩

/-- In the git dialect there are as many records as boundary lines. -/
theorem length_of_parse_git (parsed : git.parse data = .ok records) :
    records.length =
      (Line.split data).countP fun line => (Line.content line).startsWith boundaryHead := by
  have same : ∀ index, decide (git.OpensAt data index) =
      git.startsSection ((Line.split data).drop index) := by
    intro index
    cases starts : git.startsSection ((Line.split data).drop index) with
    | false => simp [OpensAt, starts]
    | true => simp [OpensAt, starts, not_takesBodyAt_git starts]
  rw [← length_sectionStarts 0, sectionStarts_eq_filter parsed, ← List.countP_eq_length_filter,
    ← countP_startsSection_git]
  simp only [same]

end Parsed

/-- **No section is lost, and none is invented.** The sections of a diff that is read start in order
at exactly the boundaries that are no body lines of a hunk. A boundary of the git dialect is none,
so there are as many records as boundary lines. There is no record exactly when the input is blank;
an input is not recognized exactly when it is not blank and has no boundary. -/
theorem sectionStarts_of_parse (dialect : Dialect) (data : Bytes) :
    (∀ records, dialect.parse data = .ok records →
      sectionStarts 0 records =
        (List.range (Line.split data).length).filter (dialect.OpensAt data ·) ∧
      (records ≠ [] → records.flatMap FileRecord.lines = Line.split data) ∧
      (∀ index, dialect.startsSection ((Line.split data).drop index) = true →
        index ∈ sectionStarts 0 records ∨ dialect.TakesBodyAt data index) ∧
      (dialect = .git → records.length =
        (Line.split data).countP fun line => (Line.content line).startsWith boundaryHead)) ∧
    (dialect = .git → ∀ index, dialect.startsSection ((Line.split data).drop index) = true →
      ¬ dialect.TakesBodyAt data index) ∧
    (dialect.parse data = .ok [] ↔ data.all Bytes.isBlank = true) ∧
    (dialect.parse data = .error ⟨.noSection dialect, 0⟩ ↔ data.all Bytes.isBlank = false ∧
      ∀ index, dialect.startsSection ((Line.split data).drop index) = false) ∧
    (∀ error, dialect.parse data = .error error → error.fault.kind = .notRecognized →
      error = ⟨.noSection dialect, 0⟩) := by
  refine ⟨fun records parsed => ⟨sectionStarts_eq_filter parsed, flatMap_lines_of_parse parsed,
    fun index starts => ?_, ?_⟩, ?_, parse_eq_ok_nil_iff, parse_eq_noSection_iff,
    fun error failed unrecognized => (exists_of_notRecognized failed unrecognized).1⟩
  · by_cases taken : dialect.TakesBodyAt data index
    · exact .inr taken
    · exact .inl (mem_sectionStarts_of_opensAt parsed ⟨starts, taken⟩)
  · rintro rfl
    exact length_of_parse_git parsed
  · rintro rfl index starts
    exact not_takesBodyAt_git starts

/-- A removed line and the text after the hunk look like a pair; sections start where pairs do. -/
theorem sectionStarts_of_parse_lookalikes :
    let data := Bytes.ofAscii
      "note\n--- a\n+++ b\n@@ -1 +0,0 @@\n--- x\n+++ y\n--- c\n+++ d\n"
    let extended := Bytes.ofAscii "diff --git a/x b/x\nnote\ndiff --git a/y b/y\n"
    (∃ records, Dialect.unified.parse data = .ok records ∧ sectionStarts 0 records = [1, 6] ∧
      (List.range 8).filter (Dialect.unified.OpensAt data ·) = [1, 6] ∧
      records.flatMap FileRecord.lines = Line.split data ∧
      Dialect.unified.TakesBodyAt data 4) ∧
    (∃ records, Dialect.git.parse extended = .ok records ∧ records.length = 2 ∧
      sectionStarts 0 records = [0, 2] ∧ ¬ Dialect.git.TakesBodyAt extended 2) ∧
    Dialect.git.parse (Bytes.ofAscii " \n") = .ok [] ∧
    ∀ index, Dialect.git.startsSection ((Line.split data).drop index) = false := by
  intro data extended
  obtain ⟨found, -⟩ := sectionStarts_of_parse .unified data
  obtain ⟨records, parsed, starts⟩ := Dialect.unified.exists_parse_of_look data (sectionStarts 0)
    [1, 6] (by decide +kernel)
  obtain ⟨opens, whole, all, -⟩ := found records parsed
  refine ⟨⟨records, parsed, starts, ?_, ?_, ?_⟩, ?_, ?_, ?_⟩
  · exact opens.symm.trans starts
  · apply whole
    rintro rfl
    cases starts
  · rcases all 4 (by decide +kernel) with listed | taken
    · rw [starts] at listed
      revert listed
      decide
    · exact taken
  · obtain ⟨found, notBody, -⟩ := sectionStarts_of_parse .git extended
    obtain ⟨records, parsed, starts⟩ := Dialect.git.exists_parse_of_look extended (sectionStarts 0)
      [0, 2] (by decide +kernel)
    obtain ⟨-, -, -, counted⟩ := found records parsed
    exact ⟨records, parsed, (counted rfl).trans (by decide +kernel), starts,
      notBody rfl 2 (by decide +kernel)⟩
  · obtain ⟨-, -, blank, -⟩ := sectionStarts_of_parse .git (Bytes.ofAscii " \n")
    exact blank.2 (by decide +kernel)
  · obtain ⟨-, -, -, unrecognized, -⟩ := sectionStarts_of_parse .git data
    exact (unrecognized.1 (by decide +kernel)).2

end Dialect

end DiffSections
