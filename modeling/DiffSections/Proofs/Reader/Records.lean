import DiffSections.Proofs.Section

/-!
# DiffSections.Proofs.Reader.Records -- every record was a section in hand

A record is the section that a reader had in hand when it was closed: by the next boundary, or at
the end of the input, and then with the text after it (`Dialect.exists_draft_of_parse`). So what
holds of every section in hand holds of the records of a diff, and need not be followed through the
closed ones.
-/

namespace DiffSections

set_option autoImplicit false

namespace Reader

variable {dialect : Dialect} {cuts : CutRule} {lines : List Bytes} {reader before after : Reader}

/-- A reader with this section in hand, and not in an open hunk, closes the record with these lines
after the section. -/
structure Closes (dialect : Dialect) (cuts : CutRule) (lines : List Bytes) (record : FileRecord)
    (draft : Draft) (more : List Bytes) (reader : Reader) : Prop where
  reaches : Reaches dialect cuts (ofLines lines) reader
  inHand : reader.state.inHand = some draft
  notHunk : ∀ place, reader.state = .reading draft place → ∀ left last, place ≠ .hunk left last
  atEnd : ∀ place, reader.state = .reading draft place → reader.ahead = []
  record_eq : record = (draft.append more.flatten).close
  within : draft.pieces.reverse ++ more <:+: lines

/-- A section was in hand when it was closed, after the sections `earlier`. -/
def Accounted (dialect : Dialect) (cuts : CutRule) (lines : List Bytes)
    (earlier : List FileRecord) (record : FileRecord) : Prop :=
  ∃ draft more reader, Closes dialect cuts lines record draft more reader ∧
    reader.closed.reverse = earlier

/-- A record with others before and after it, among the closed ones and one more. -/
theorem eq_append_of_append_singleton {closed earlier later : List FileRecord}
    {last record : FileRecord} (same : closed ++ [last] = earlier ++ record :: later) :
    (later = [] ∧ closed = earlier ∧ last = record) ∨
      ∃ others, closed = earlier ++ record :: others := by
  rcases List.eq_nil_or_concat later with rfl | ⟨others, other, rfl⟩
  · obtain ⟨before, only⟩ := List.append_inj' same rfl
    exact .inl ⟨rfl, before, List.singleton_inj.1 only⟩
  · rw [List.concat_eq_append, ← List.cons_append, ← List.append_assoc] at same
    exact .inr ⟨others, (List.append_inj' same rfl).1⟩

/-- A boundary closes the section in hand as it is. -/
theorem Step.accounted (reaches : Reaches dialect cuts (ofLines lines) before)
    (stepped : Step dialect cuts before after)
    (kept : ∀ earlier record later, before.closed.reverse = earlier ++ record :: later →
      Accounted dialect cuts lines earlier record) :
    ∀ earlier record later, after.closed.reverse = earlier ++ record :: later →
      Accounted dialect cuts lines earlier record := by
  intro earlier record later split
  cases stepped with
  | skip => exact kept earlier record later split
  | inside =>
      rw [closed_move] at split
      exact kept earlier record later split
  | @start closed previous =>
      cases previous with
      | none => exact kept earlier record later split
      | some draft =>
          have split : closed.reverse ++ [draft.close] = earlier ++ record :: later := by
            rw [← split]
            exact List.reverse_cons.symm
          rcases eq_append_of_append_singleton split with ⟨-, rfl, rfl⟩ | ⟨others, isIn⟩
          · have within : draft.pieces.reverse ++ [] <:+: lines := by
              rw [List.append_nil]
              exact reaches.pieces_isInfix rfl
            exact ⟨draft, [], _,
              ⟨reaches, rfl, nofun, nofun, draft.close_append_nil.symm, within⟩, rfl⟩
          · exact kept earlier record others isIn

theorem Reaches.accounted (reaches : Reaches dialect cuts (ofLines lines) reader) :
    ∀ earlier record later, reader.closed.reverse = earlier ++ record :: later →
      Accounted dialect cuts lines earlier record := by
  induction reaches with
  | refl => simp [ofLines]
  | tail earlier stepped ih => exact stepped.accounted earlier ih

/-- The records that a reader closes with are those closed before, and the section in hand with the
text after it. -/
theorem Reaches.accounted_of_close {records earlier later : List FileRecord} {record : FileRecord}
    (reaches : Reaches dialect cuts (ofLines lines) reader) (nothing : reader.ahead = [])
    (closes : reader.close dialect = .ok records) (split : records = earlier ++ record :: later) :
    Accounted dialect cuts lines earlier record := by
  have closed := reaches.accounted
  rcases close_eq_ok closes with ⟨draft, place, inside, notHunk, same⟩ |
    ⟨draft, pending, seeking, same⟩ | ⟨pending, seeking, -, same⟩
  · have inHand : reader.state.inHand = some draft := by rw [inside]; rfl
    rcases eq_append_of_append_singleton (same.symm.trans split) with ⟨-, rfl, rfl⟩ | ⟨others, isIn⟩
    · refine ⟨draft, [], reader, ⟨reaches, inHand, ?_, fun _ _ => nothing, ?_, ?_⟩, rfl⟩
      · intro other state left last
        rw [inside] at state
        cases state
        exact notHunk left last
      · rw [List.flatten_nil, draft.close_append_nil]
      · rw [List.append_nil]
        exact reaches.pieces_isInfix inHand
    · exact closed earlier record others isIn
  · have inHand : reader.state.inHand = some draft := by rw [seeking]; rfl
    rcases eq_append_of_append_singleton (same.symm.trans split) with ⟨-, rfl, rfl⟩ | ⟨others, isIn⟩
    · refine ⟨draft, pending.reverse, reader,
        ⟨reaches, inHand, ?_, fun _ _ => nothing, rfl, ?_⟩, rfl⟩
      · intro place state
        rw [seeking] at state
        cases state
      · have within := (Reader.Reaches.follows reaches).lines_isInfix
        rwa [seeking] at within
    · exact closed earlier record others isIn
  · exact closed earlier record later (same.symm.trans split)

theorem Closes.split_body {record : FileRecord} {draft : Draft} {more : List Bytes} {data : Bytes}
    (closing : Closes dialect cuts (Line.split data) record draft more reader) :
    Line.split record.body = draft.pieces.reverse ++ more := by
  rw [closing.record_eq]
  show Line.split (draft.append more.flatten).text = _
  rw [Draft.text_append, Draft.text, ← List.flatten_append,
    Line.split_flatten_of_stretch closing.within]

end Reader

/-- **Every record was a section in hand**, and its lines are those of the section and, at the end
of the input, those after it. -/
theorem Dialect.exists_draft_of_parse {dialect : Dialect} {data : Bytes}
    {records : List FileRecord} {record : FileRecord} (parsed : dialect.parse data = .ok records)
    (member : record ∈ records) :
    ∃ draft more reader,
      Reader.Closes dialect dialect.cutRule (Line.split data) record draft more reader ∧
      Line.split record.body = draft.pieces.reverse ++ more := by
  obtain ⟨final, reaches, nothing, closes⟩ := Dialect.parseWith_eq_ok_iff.1 parsed
  obtain ⟨earlier, later, split⟩ := List.append_of_mem member
  obtain ⟨draft, more, reader, closing, -⟩ := reaches.accounted_of_close nothing closes split
  exact ⟨draft, more, reader, closing, closing.split_body⟩

end DiffSections
