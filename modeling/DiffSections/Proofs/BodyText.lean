import DiffSections.Proofs.Line
import DiffSections.Proofs.Lookahead
import DiffSections.Proofs.Reader.Alike
import DiffSections.Proofs.Reader.BodyLines
import DiffSections.Proofs.Reader.Locality

/-!
# DiffSections.Proofs.BodyText -- the text of body lines does not steer the reader

Of a body line of a hunk only the first octet says anything to the reader. So in a diff that is read
other texts may stand behind it, such as the lines of a boundary: the new diff is read as well, and
its records differ in the octets of their sections only (`Dialect.parse_of_bodyRetexted`).

The two readings go in step (`Step.sameOutline`). Outside hunks the line at hand is the same in
both, and the next one differs only if it is a body line. Then the line at hand opens the hunk and
starts no section, whatever comes after it. Inside hunks nothing is asked of the line but its first
octet, since looking ahead does not count (`Dialect.parse_eq_ok_iff_plain`).
-/

namespace DiffSections

set_option autoImplicit false

open Bytes

/-! ## Lines with another text -/

/-- Another text stands behind the first octet of a line, before the line's end. -/
def Line.Retexted (line line' : Bytes) : Prop :=
  ∃ b text text' ending, line = b :: text ++ ending ∧ Line.content line = b :: text ∧
    line' = b :: text' ++ ending ∧ lf ∉ text'

namespace Line

variable {line line' : Bytes} {kind : BodyKind}

theorem ne_end_of_change {b : UInt8} {text : Bytes}
    (body : BodyLine.ofContent? (b :: text) = some (.change kind)) : b ≠ cr ∧ b ≠ lf := by
  constructor
  · rintro rfl
    cases body
  · rintro rfl
    cases body

/-- A body line with another text is a body line of the same kind. -/
theorem Retexted.change (retexted : Retexted line line')
    (body : BodyLine.ofContent? (content line) = some (.change kind)) :
    BodyLine.ofContent? (content line') = some (.change kind) := by
  obtain ⟨b, text, text', ending, -, isContent, rfl, -⟩ := retexted
  rw [isContent] at body
  obtain ⟨notCr, notLf⟩ := ne_end_of_change body
  obtain ⟨rest, isContent'⟩ := content_cons (text' ++ ending) notCr notLf
  rw [List.cons_append, isContent']
  exact body

theorem Retexted.isLine (retexted : Retexted line line') (isLine : IsLine line)
    (body : BodyLine.ofContent? (content line) = some (.change kind)) : IsLine line' := by
  obtain ⟨b, text, text', ending, rfl, isContent, rfl, unbroken⟩ := retexted
  rw [isContent] at body
  have notLf := (ne_end_of_change body).2
  have ended := isLine.unbroken
  refine ⟨by simp, ?_⟩
  cases ending with
  | nil =>
      intro broken
      have inner := List.dropLast_subset _ broken
      simp only [List.append_nil, List.mem_cons] at inner
      exact inner.elim (fun isEnd => notLf isEnd.symm) unbroken
  | cons c ending =>
      rw [List.dropLast_append_of_ne_nil (by simp)] at ended ⊢
      simp only [List.mem_append, List.mem_cons, not_or] at ended ⊢
      exact ⟨⟨notLf.symm, unbroken⟩, ended.2⟩

/-- The end of a line is not part of its text. -/
theorem Retexted.getLast? (retexted : Retexted line line') (ended : line.getLast? = some lf) :
    line'.getLast? = some lf := by
  obtain ⟨b, text, text', ending, rfl, isContent, rfl, -⟩ := retexted
  cases ending with
  | nil =>
      -- Without an end the line would be its own content, which drops the LF.
      rw [List.append_nil] at isContent ended
      have shorter : (content (b :: text)).length ≤ (b :: text).dropLast.length := by
        simp only [content, stripLast, ended, if_true]
        split
        · simp
        · exact Nat.le_refl _
      rw [isContent] at shorter
      exact absurd shorter (by simp)
  | cons c ending =>
      rw [List.getLast?_append, List.getLast?_cons, Option.some_or] at ended ⊢
      exact ended

end Line

/-! ## Diffs with other texts in their body lines -/

/-- These lines are those of `data`, but for the texts of lines that are taken as body lines. -/
structure Dialect.Retexts (dialect : Dialect) (data : Bytes) (lines' : List Bytes) : Prop where
  length : lines'.length = (Line.split data).length
  change : ∀ index line line', (Line.split data)[index]? = some line →
    lines'[index]? = some line' →
      line' = line ∨ dialect.TakesBodyAt data index ∧ Line.Retexted line line'

/-- `data'` is `data` with other texts in lines that `dialect` takes as body lines. -/
def Dialect.BodyRetexted (dialect : Dialect) (data data' : Bytes) : Prop :=
  ∃ lines', dialect.Retexts data lines' ∧ data' = lines'.flatten

namespace Dialect.Retexts

variable {dialect : Dialect} {data : Bytes} {lines' : List Bytes} {index : Nat} {line : Bytes}

theorem exists_getElem? (retexts : dialect.Retexts data lines')
    (here : (Line.split data)[index]? = some line) :
    ∃ line', lines'[index]? = some line' ∧
      (line' = line ∨ dialect.TakesBodyAt data index ∧ Line.Retexted line line') := by
  have within : index < lines'.length := by
    rw [retexts.length]
    exact (List.getElem?_eq_some_iff.1 here).1
  have there := List.getElem?_eq_getElem within
  exact ⟨_, there, retexts.change index line _ here there⟩

/-- All lines but body lines are the same. -/
theorem getElem?_eq (retexts : dialect.Retexts data lines')
    (other : ¬ dialect.TakesBodyAt data index) : lines'[index]? = (Line.split data)[index]? := by
  cases here : (Line.split data)[index]? with
  | none =>
      rw [List.getElem?_eq_none_iff] at here ⊢
      rwa [retexts.length]
  | some line =>
      obtain ⟨line', there, rfl | ⟨taken, -⟩⟩ := retexts.exists_getElem? here
      · exact there
      · exact absurd taken other

/-- What is taken as a body line is one. -/
theorem ofContent?_of_takesBodyAt (taken : dialect.TakesBodyAt data index)
    (here : (Line.split data)[index]? = some line) :
    ∃ kind, BodyLine.ofContent? (Line.content line) = some (.change kind) := by
  obtain ⟨reader, _, reaches, rfl, ⟨_, _, _, other, lines, kind, -, ahead, body⟩, -⟩ := taken
  rw [reaches.ahead_eq_drop] at ahead
  rw [← List.head?_drop, ahead, List.head?_cons] at here
  obtain rfl := Option.some.inj here
  exact ⟨kind, body⟩

/-- The lines of the new diff are its lines: none of them is broken. -/
theorem split_flatten (retexts : dialect.Retexts data lines') :
    Line.split lines'.flatten = lines' := by
  have cut := Line.isCut_split data
  refine Line.split_flatten ⟨fun line' member => ?_, fun line' early => ?_⟩
  · obtain ⟨index, there⟩ := List.mem_iff_getElem?.1 member
    have within : index < (Line.split data).length := by
      rw [← retexts.length]
      exact (List.getElem?_eq_some_iff.1 there).1
    have here := List.getElem?_eq_getElem within
    have isLine := cut.isLine _ (List.mem_of_getElem? here)
    rcases retexts.change index _ line' here there with rfl | ⟨taken, retexted⟩
    · exact isLine
    · obtain ⟨kind, body⟩ := ofContent?_of_takesBodyAt taken here
      exact retexted.isLine isLine body
  · obtain ⟨index, there⟩ := List.mem_iff_getElem?.1 early
    rw [List.getElem?_dropLast, retexts.length] at there
    split_ifs at there with inner
    have here := List.getElem?_eq_getElem (Nat.lt_of_lt_pred inner)
    have ended := cut.ended _ (List.mem_of_getElem? (i := index) (by
      rw [List.getElem?_dropLast, if_pos inner]
      exact here))
    rcases retexts.change index _ line' here there with rfl | ⟨-, retexted⟩
    · exact ended
    · exact retexted.getLast? ended

end Dialect.Retexts

/-! ## Sections but for their octets -/

/-- A record without the octets of its section. -/
def FileRecord.outline (record : FileRecord) : FileRecord := { record with body := [] }

namespace Draft

/-- A section in hand without its octets. -/
def outline (draft : Draft) : Draft := { draft with pieces := [] }

theorem outline_close (draft : Draft) : draft.close.outline = draft.outline.close := rfl

theorem outline_mapOpenHunk (draft : Draft) (change : Hunk → Hunk) :
    (draft.mapOpenHunk change).outline = draft.outline.mapOpenHunk change := by
  obtain ⟨facts, hunks, _, _, _, _⟩ := draft
  cases hunks <;> rfl

theorem outline_count (draft : Draft) (kind : BodyKind) :
    (draft.count kind).outline = draft.outline.count kind := by
  cases kind <;> simp only [count, ← outline_mapOpenHunk] <;> rfl

/-- Sections with one outline. -/
def SameOutline (draft draft' : Draft) : Prop := draft'.outline = draft.outline

theorem SameOutline.append {draft draft' : Draft} (same : draft.SameOutline draft')
    (line line' : Bytes) : (draft.append line).SameOutline (draft'.append line') :=
  same

theorem SameOutline.count {draft draft' : Draft} (same : draft.SameOutline draft')
    (kind : BodyKind) : (draft.count kind).SameOutline (draft'.count kind) := by
  unfold SameOutline at same ⊢
  rw [outline_count, outline_count, same]

theorem SameOutline.close {draft draft' : Draft} (same : draft.SameOutline draft') :
    draft'.close.outline = draft.close.outline := by
  rw [outline_close, outline_close, same]

theorem congruence_sameOutline : Congruence Eq SameOutline where
  readsAs sameLine := by rw [sameLine]
  facts {draft draft'} same := by
    show draft'.outline.toFileFacts = draft.outline.toFileFacts
    rw [same]
  append {_ _ line line'} _ same := same.append line line'
  withFacts facts same := congrArg (fun outline : Draft => outline.withFacts facts) same
  markBinary same := congrArg (fun outline : Draft => outline.markBinary) same
  pushHunk hunk same := congrArg (fun outline : Draft => outline.pushHunk hunk) same
  count kind same := same.count kind
  markUnended kind same := by
    unfold SameOutline at same ⊢
    rw [markUnended, markUnended, outline_mapOpenHunk, outline_mapOpenHunk, same]

end Draft

namespace Reader

/-- Readers before the same line, whose sections have one outline. -/
structure SameOutline (reader reader' : Reader) : Prop where
  closed : reader'.closed.map FileRecord.outline = reader.closed.map FileRecord.outline
  state : reader.state.Alike Eq Draft.SameOutline reader'.state
  passed : reader'.passed = reader.passed

theorem SameOutline.move {reader reader' : Reader} {move move' : Move}
    (same : reader.SameOutline reader') (alike : move.Alike Eq Draft.SameOutline move') :
    (reader.move move).SameOutline (reader'.move move') where
  closed := by simpa using same.closed
  state := by simpa using alike.state
  passed := by cases alike <;> simp [same.passed]

/-- Readers with one outline close with one outline. -/
theorem SameOutline.close {dialect : Dialect} {reader reader' : Reader} {records : List FileRecord}
    (same : reader.SameOutline reader') (closes : reader.close dialect = .ok records) :
    ∃ records', reader'.close dialect = .ok records' ∧
      records'.map FileRecord.outline = records.map FileRecord.outline := by
  obtain ⟨closed, state, passed, ahead⟩ := reader
  obtain ⟨closed', state', passed', ahead'⟩ := reader'
  obtain ⟨sameClosed, alike, -⟩ := same
  dsimp only at sameClosed alike
  cases alike with
  | @reading draft draft' place related =>
      cases place with
      | hunk => cases closes
      | header | payload | between =>
          cases closes
          exact ⟨_, rfl, by simp [sameClosed, related.close]⟩
  | @seeking _ _ pending _ waiting related =>
      rw [List.forall₂_eq_eq_eq] at waiting
      subst waiting
      cases related with
      | none =>
          simp only [Reader.close] at closes ⊢
          split at closes
          · rename_i blank
            cases closes
            exact ⟨_, if_pos blank, by simp [sameClosed]⟩
          · cases closes
      | some related =>
          cases closes
          have appended := (related.append pending.reverse.flatten pending.reverse.flatten).close
          exact ⟨_, rfl, by simp [sameClosed, appended]⟩

/-! ## The two readings go in step -/

variable {dialect : Dialect} {data : Bytes} {lines' : List Bytes} {before before' after : Reader}

/-- All lines that a step takes are the same in both diffs, if it takes no body line. -/
theorem Step.take_eq (retexts : dialect.Retexts data lines')
    (reaches : Reaches dialect dialect.cutRule (ofLines (Line.split data)) before)
    (stepped : Step dialect dialect.cutRule before after) (other : ¬ before.AtBodyLine) :
    (lines'.drop before.passed).take (after.passed - before.passed) =
      before.ahead.take (after.passed - before.passed) := by
  rw [reaches.ahead_eq_drop]
  refine List.ext_getElem? fun index => ?_
  rw [List.getElem?_take, List.getElem?_take]
  split
  · rename_i within
    rw [List.getElem?_drop, List.getElem?_drop]
    refine retexts.getElem?_eq fun taken => other (reaches.atBodyLine ?_)
    rwa [stepped.eq_passed_of_takesBodyAt reaches (Nat.le_add_right _ _) (by omega) taken]
  · rfl

/-- Outside hunks, whether a section starts at the line at hand is the same in both diffs, and so is
what the section starts with. -/
theorem Reaches.startsSection_eq (retexts : dialect.Retexts data lines')
    (reaches : Reaches dialect dialect.cutRule (ofLines (Line.split data)) before) {line : Bytes}
    {lines : List Bytes} (ahead : before.ahead = line :: lines)
    (notInHunk : ∀ draft left last, before.state ≠ .reading draft (.hunk left last)) :
    dialect.startsSection (line :: lines'.drop (before.passed + 1)) =
        dialect.startsSection (line :: lines) ∧
      dialect.open? (line :: lines'.drop (before.passed + 1)) = dialect.open? (line :: lines) := by
  by_cases taken : dialect.TakesBodyAt data (before.passed + 1)
  · -- The next line is a body line: this one is the header of its hunk.
    rcases reaches.announced_or_inHunk taken with ⟨_, _, ahead', announced⟩ |
      ⟨draft, left, last, inHunk⟩
    · rw [ahead] at ahead'
      cases ahead'
      have none : ∀ more, dialect.startsSection (line :: more) = false :=
        Dialect.startsSection_of_announced announced
      rw [none, none, Dialect.open?_eq_none_iff.2 (none _), Dialect.open?_eq_none_iff.2 (none _)]
      exact ⟨rfl, rfl⟩
    · exact absurd inHunk (notInHunk draft left last)
  · have same : (lines'.drop (before.passed + 1)).head? = lines.head? := by
      have later : lines = (Line.split data).drop (before.passed + 1) := by
        rw [← List.drop_drop, ← reaches.ahead_eq_drop, ahead, List.drop_one, List.tail_cons]
      rw [later, List.head?_drop, List.head?_drop, retexts.getElem?_eq taken]
    exact ⟨Dialect.startsSection_congr same, Dialect.open?_congr same⟩

/-- A step that takes a body line is made at the new text of the line too. -/
theorem Step.sameOutline_of_body (retexts : dialect.Retexts data lines')
    (reaches : Reaches dialect dialect.cutRule (ofLines (Line.split data)) before)
    (stepped : Step dialect dialect.cutRule before after) (atBody : before.AtBodyLine)
    (same : before.SameOutline before') (ahead' : before'.ahead = lines'.drop before'.passed) :
    ∃ after', Step dialect .never before' after' ∧ after.SameOutline after' := by
  obtain ⟨draft, left, last, line, lines, kind, inHunk, ahead, body⟩ := atBody
  have here : (Line.split data)[before.passed]? = some line := by
    rw [← List.head?_drop, ← reaches.ahead_eq_drop, ahead, List.head?_cons]
  obtain ⟨line', there, changed⟩ := retexts.exists_getElem? here
  have body' : BodyLine.ofContent? (Line.content line') = some (.change kind) := by
    rcases changed with rfl | ⟨-, retexted⟩
    · exact body
    · exact retexted.change body
  obtain ⟨within, isLine'⟩ := List.getElem?_eq_some_iff.1 there
  rw [same.passed, List.drop_eq_getElem_cons within, isLine'] at ahead'
  cases stepped with
  | skip | start => cases inHunk
  | inside moves =>
      cases inHunk
      cases ahead
      obtain ⟨closed', state', passed', _⟩ := before'
      obtain ⟨sameClosed, alike, samePassed⟩ := same
      dsimp only at sameClosed alike samePassed ahead'
      subst ahead'
      cases alike with
      | @reading _ draft' _ related =>
          cases moves with
          | marker _ marks =>
              rw [body] at marks
              cases marks
          | change _ counted fits =>
              rw [body] at counted
              cases counted
              refine ⟨_, .inside (.change rfl body' fits), sameClosed, ?_, ?_⟩
              · exact .reading _ ((related.count kind).append line line')
              · simp [samePassed]

/-- **A step in the first diff is made in the second one too**, and outlines stay the same. -/
theorem Step.sameOutline (retexts : dialect.Retexts data lines')
    (reaches : Reaches dialect dialect.cutRule (ofLines (Line.split data)) before)
    (stepped : Step dialect dialect.cutRule before after) (same : before.SameOutline before')
    (ahead' : before'.ahead = lines'.drop before'.passed) :
    ∃ after', Step dialect .never before' after' ∧ after.SameOutline after' := by
  by_cases atBody : before.AtBodyLine
  · exact stepped.sameOutline_of_body retexts reaches atBody same ahead'
  have taken := stepped.take_eq retexts reaches atBody
  obtain ⟨line, lines, ahead⟩ := stepped.exists_cons
  have there : lines'[before.passed]? = some line := by
    rw [retexts.getElem?_eq fun taken => atBody (reaches.atBodyLine taken), ← List.head?_drop,
      ← reaches.ahead_eq_drop, ahead, List.head?_cons]
  obtain ⟨within, isLine⟩ := List.getElem?_eq_some_iff.1 there
  have drops := List.drop_eq_getElem_cons within
  rw [isLine] at drops
  have starts := reaches.startsSection_eq retexts ahead
  rw [same.passed, drops] at ahead'
  rw [drops] at taken
  obtain ⟨closed', state', passed', _⟩ := before'
  obtain ⟨sameClosed, alike, samePassed⟩ := same
  dsimp only at sameClosed alike samePassed ahead'
  subst ahead'
  cases stepped with
  | skip closedSection =>
      cases ahead
      cases alike with
      | seeking waiting related =>
          have closedSection' := (starts (by simp)).2.trans closedSection
          exact ⟨_, .skip closedSection', sameClosed, .seeking (.cons rfl waiting) related,
            by simp [samePassed]⟩
  | @start closed previous pending passed _ _ opening opens =>
      cases ahead
      cases alike with
      | @seeking _ previous' _ _ waiting related =>
          rw [List.forall₂_eq_eq_eq] at waiting
          subst waiting
          have opens' := (starts (by simp)).2.trans opens
          have sameLines : (line :: lines'.drop (passed + 1)).take opening.lineCount =
              (line :: lines).take opening.lineCount := by
            simpa [Reader.start] using taken
          refine ⟨_, .start opens', ?_, ?_, by simp [Reader.start, samePassed]⟩
          · cases related with
            | none => simpa [Reader.start] using sameClosed
            | some related => simpa [Reader.start, related.close] using sameClosed
          · simp only [Reader.start, state_take, sameLines]
            exact .reading _ rfl
  | @inside closed draft place passed _ _ move moves =>
      cases ahead
      cases alike with
      | @reading _ draft' _ related =>
          have moves' : SectionMove dialect .never draft line (lines'.drop (passed + 1)) place
              move := by
            refine moves.of_lines (fun notHunk => (starts ?_).1) (fun state isTwo => ?_)
              fun _ _ _ => rfl
            · rintro _ left last ⟨⟩
              exact notHunk left last rfl
            · subst isTwo
              have both := congrArg (fun lines => lines[1]?) taken
              simpa [List.getElem?_take, List.head?_eq_getElem?] using both
          obtain ⟨move', made, alike⟩ := moves'.alike Draft.congruence_sameOutline related
          exact ⟨_, .inside made, SameOutline.move ⟨sameClosed, .reading place related, samePassed⟩
            alike⟩

/-- A whole reading of the first diff goes with one of the second. -/
theorem Reaches.sameOutline (retexts : dialect.Retexts data lines') {reader : Reader}
    (reaches : Reaches dialect dialect.cutRule (ofLines (Line.split data)) reader) :
    ∃ reader', Reaches dialect .never (ofLines lines') reader' ∧ reader.SameOutline reader' := by
  induction reaches with
  | refl => exact ⟨_, .refl, rfl, .seeking .nil .none, rfl⟩
  | tail reaches stepped ih =>
      obtain ⟨before', reaches', same⟩ := ih
      obtain ⟨after', stepped', same'⟩ :=
        stepped.sameOutline retexts reaches same reaches'.ahead_eq_drop
      exact ⟨after', reaches'.tail stepped', same'⟩

end Reader

/-- **The text of body lines does not steer the reader.** Take a diff that is read, and give any of
its context, removed and added lines another text behind the first octet. The new diff is read too,
into the same records but for the octets of their sections: as many, with the same preambles, paths,
infos, modes and marks, and the same hunks with their counts. -/
theorem Dialect.parse_of_bodyRetexted {dialect : Dialect} {data data' : Bytes}
    {records : List FileRecord} (parsed : dialect.parse data = .ok records)
    (retexted : dialect.BodyRetexted data data') :
    ∃ records', dialect.parse data' = .ok records' ∧
      records'.map FileRecord.outline = records.map FileRecord.outline := by
  obtain ⟨lines', retexts, rfl⟩ := retexted
  obtain ⟨final, reaches, nothing, closes⟩ := Dialect.parseWith_eq_ok_iff.1 parsed
  obtain ⟨final', reaches', same⟩ := Reader.Reaches.sameOutline retexts reaches
  obtain ⟨records', closes', outlines⟩ := same.close closes
  refine ⟨records', ?_, outlines⟩
  rw [Dialect.parse_eq_ok_iff_plain, Dialect.parseWith_eq_ok_iff, retexts.split_flatten]
  refine ⟨final', reaches', ?_, closes'⟩
  rw [reaches'.ahead_eq_drop, same.passed, List.drop_eq_nil_iff, retexts.length,
    ← List.drop_eq_nil_iff, ← reaches.ahead_eq_drop, nothing]

/-- Two body lines of a hunk are made a boundary, and the last one a hunk header. -/
theorem Dialect.parse_of_bodyRetexted_boundary :
    let data := ofAscii "--- a\n+++ b\n@@ -1,2 +1,2 @@\n-p\r\n+q\n x"
    let data' := ofAscii "--- a\n+++ b\n@@ -1,2 +1,2 @@\n--- c\r\n+++ d\n @@ -1 +1 @@"
    ∃ records, Dialect.unified.parse data = .ok records ∧ records.length = 1 ∧
      Dialect.unified.BodyRetexted data data' ∧
      ∃ records', Dialect.unified.parse data' = .ok records' ∧
        records'.map FileRecord.outline = records.map FileRecord.outline := by
  intro data data'
  have split : Line.split data =
      [ofAscii "--- a\n", ofAscii "+++ b\n", ofAscii "@@ -1,2 +1,2 @@\n", ofAscii "-p\r\n",
        ofAscii "+q\n", ofAscii " x"] := by decide +kernel
  have retexted : Dialect.unified.BodyRetexted data data' := by
    refine ⟨Line.split data', ⟨by decide +kernel, fun index line line' here there => ?_⟩,
      (Line.flatten_split data').symm⟩
    have split' : Line.split data' =
        [ofAscii "--- a\n", ofAscii "+++ b\n", ofAscii "@@ -1,2 +1,2 @@\n",
          ofAscii "--- c\r\n", ofAscii "+++ d\n", ofAscii " @@ -1 +1 @@"] := by decide +kernel
    rw [split] at here
    rw [split'] at there
    rcases index with _ | _ | _ | _ | _ | _ | index <;>
      simp only [List.getElem?_cons_zero, List.getElem?_cons_succ, List.getElem?_nil,
        Option.some.injEq, reduceCtorEq] at here there <;>
      subst here there
    · exact .inl rfl
    · exact .inl rfl
    · exact .inl rfl
    · exact .inr ⟨by decide +kernel, minus, ofAscii "p", ofAscii "-- c", [cr, lf], by decide,
        by decide, by decide, by decide⟩
    · exact .inr ⟨by decide +kernel, plus, ofAscii "q", ofAscii "++ d", [lf], by decide,
        by decide, by decide, by decide⟩
    · exact .inr ⟨by decide +kernel, space, ofAscii "x", ofAscii "@@ -1 +1 @@", [], by decide,
        by decide, by decide, by decide⟩
  obtain ⟨records, parsed, one⟩ := exists_parse_of_length .unified data 1 (by decide +kernel)
  exact ⟨records, parsed, one, retexted, Dialect.parse_of_bodyRetexted parsed retexted⟩

end DiffSections
