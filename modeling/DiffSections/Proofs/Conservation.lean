import DiffSections.Proofs.Reader.Runs
import DiffSections.Proofs.Line

/-!
# DiffSections.Proofs.Conservation -- no octet of a diff is lost, doubled or moved

What a reader has taken (`Reader.taken`) are the records it has closed, the section in hand with its
preamble, and the text after that. Each step moves octets from the lines ahead to the end of what is
taken, or moves none (`Step.taken_append_ahead`). So a diff that is read is, octet for octet, its
records one after the other.
-/

namespace DiffSections

set_option autoImplicit false

/-- The octets of a section in hand, behind its preamble. -/
def Draft.data (draft : Draft) : Bytes := draft.preamble.getD [] ++ draft.text

namespace Draft

theorem data_close (draft : Draft) : draft.close.data = draft.data := rfl

@[simp] theorem data_append (draft : Draft) (piece : Bytes) :
    (draft.append piece).data = draft.data ++ piece := by
  show draft.preamble.getD [] ++ (draft.append piece).text = _
  simp [data]

@[simp] theorem data_withFacts (draft : Draft) (facts : FileFacts) :
    (draft.withFacts facts).data = draft.data := rfl

@[simp] theorem data_markBinary (draft : Draft) : draft.markBinary.data = draft.data := rfl

@[simp] theorem data_pushHunk (draft : Draft) (hunk : Hunk) :
    (draft.pushHunk hunk).data = draft.data := rfl

@[simp] theorem data_mapOpenHunk (draft : Draft) (change : Hunk → Hunk) :
    (draft.mapOpenHunk change).data = draft.data := by
  unfold mapOpenHunk; split <;> rfl

@[simp] theorem data_count (draft : Draft) (kind : BodyKind) :
    (draft.count kind).data = draft.data := by
  cases kind <;> exact data_mapOpenHunk draft _

@[simp] theorem data_markUnended (draft : Draft) (kind : BodyKind) :
    (draft.markUnended kind).data = draft.data :=
  data_mapOpenHunk draft _

end Draft

theorem Reader.data_startDraft (opening : Opening) (pending lines : List Bytes) :
    (startDraft opening pending lines).data = pending.reverse.flatten ++ lines.flatten := by
  rw [startDraft_eq]
  simp [Draft.data, Draft.text]

/-- The octets of the section in hand, if any, and of the text after it. -/
def ReaderState.held : ReaderState → Bytes
  | .seeking previous pending => (previous.map Draft.data).getD [] ++ pending.reverse.flatten
  | .reading draft _ => draft.data

namespace Reader

/-- All octets that a reader has taken, in the order in which it keeps them. -/
def taken (reader : Reader) : Bytes :=
  reader.closed.reverse.flatMap FileRecord.data ++ reader.state.held

theorem taken_ofLines (lines : List Bytes) : (ofLines lines).taken = [] := rfl

variable {dialect : Dialect} {cuts : CutRule}

/-- What a move adds to the section in hand is what it takes from the lines ahead. -/
theorem held_move {closed : List FileRecord} {draft : Draft} {place : Place} {passed : Nat}
    {line : Bytes} {lines : List Bytes} {move : Move}
    (moves : SectionMove dialect cuts draft line lines place move) {next : Reader}
    (moved : next = Reader.move ⟨closed, .reading draft place, passed, line :: lines⟩ move) :
    next.state.held ++ next.ahead.flatten = draft.data ++ line ++ lines.flatten := by
  subst moved
  cases moves with
  | headerBoundary | payloadBoundary | text | afterHunks =>
      simp [ReaderState.held]
  | pair _ _ _ _ ahead =>
      subst ahead
      simp [ReaderState.held]
  | summary | patch | extended | firstHunk | payloadLine | marker | change | lateMarker
  | nextHunk =>
      simp [ReaderState.held]

/-- **A step loses, doubles and moves nothing.** -/
theorem Step.taken_append_ahead {before after : Reader} (stepped : Step dialect cuts before after) :
    after.taken ++ after.ahead.flatten = before.taken ++ before.ahead.flatten := by
  cases stepped with
  | skip => simp [taken, ReaderState.held]
  | @start closed previous pending passed line lines opening _ =>
      have joined : ((line :: lines).take opening.lineCount).flatten ++
          ((line :: lines).drop opening.lineCount).flatten = line ++ lines.flatten := by
        rw [← List.flatten_append, List.take_append_drop, List.flatten_cons]
      cases previous <;>
        simp [taken, Reader.start, take, ReaderState.held, data_startDraft, Draft.data_close,
          joined]
  | inside moves =>
      rw [taken, taken, closed_move, List.append_assoc, held_move moves rfl]
      simp [ReaderState.held]

theorem Reaches.taken_append_ahead {before after : Reader}
    (reaches : Reaches dialect cuts before after) :
    after.taken ++ after.ahead.flatten = before.taken ++ before.ahead.flatten :=
  reaches.keeps (fun reader =>
      reader.taken ++ reader.ahead.flatten = before.taken ++ before.ahead.flatten)
    (fun _ _ stepped kept => stepped.taken_append_ahead.trans kept) rfl

/-- The records that a reader closes with are what it has taken, if there are any. -/
theorem flatMap_data_of_close {lines : List Bytes} {reader : Reader} {records : List FileRecord}
    (reaches : Reaches dialect cuts (ofLines lines) reader)
    (closes : reader.close dialect = .ok records) (someRecord : records ≠ []) :
    records.flatMap FileRecord.data = reader.taken := by
  rcases close_eq_ok closes with ⟨draft, place, inside, -, rfl⟩ | ⟨draft, pending, seeking, rfl⟩ |
    ⟨pending, seeking, -, rfl⟩
  · simp [taken, inside, ReaderState.held, Draft.data_close]
  · simp [taken, seeking, ReaderState.held, Draft.data_close]
  · simp [reaches.closed_eq_nil seeking] at someRecord

end Reader

/-- **A diff is the records it is read into, octet for octet.** Whatever way a line was taken, it
stands in exactly one record, where the diff has it; a record is its preamble and its section. -/
theorem Dialect.flatMap_data_of_parse {dialect : Dialect} {data : Bytes} {records : List FileRecord}
    (parsed : dialect.parse data = .ok records) (someRecord : records ≠ []) :
    records.flatMap FileRecord.data = data ∧
      ∀ record ∈ records, record.data = record.preamble ++ record.body := by
  refine ⟨?_, fun _ _ => rfl⟩
  obtain ⟨final, reaches, nothing, closes⟩ := Dialect.parseWith_eq_ok_iff.1 parsed
  have kept := reaches.taken_append_ahead
  rw [nothing, Reader.taken_ofLines] at kept
  calc records.flatMap FileRecord.data = final.taken :=
        Reader.flatMap_data_of_close reaches closes someRecord
    _ = (Line.split data).flatten := by simpa [Reader.ofLines] using kept
    _ = data := Line.flatten_split data

/-- Text before, between and after sections, a hunk, and no LF at the end. -/
theorem Dialect.flatMap_data_of_parse_two_sections :
    let data := Bytes.ofAscii
      "note\ndiff --git a/x b/x\n--- a/x\n+++ b/x\n@@ -1 +1 @@\n-p\n+q\n\ndiff --git a/y b/y\nend"
    ∃ records, Dialect.git.parse data = .ok records ∧ records ≠ [] ∧
      records.flatMap FileRecord.data = data ∧
      ∀ record ∈ records, record.data = record.preamble ++ record.body := by
  intro data
  obtain ⟨records, parsed, two⟩ := exists_parse_of_length .git data 2 (by decide +kernel)
  have someRecord : records ≠ [] := by rintro rfl; cases two
  exact ⟨records, parsed, someRecord, Dialect.flatMap_data_of_parse parsed someRecord⟩

end DiffSections
