import DiffSections.Proofs.Header.Effect
import DiffSections.Proofs.Header.Lines
import DiffSections.Proofs.Reader.Records

/-!
# DiffSections.Proofs.Reader.Headers -- a section says of its file what its header lines say

The extended headers of a section are the lines directly behind its boundary (`Draft.Headed`).
Later lines change its paths, its infos and whether it is binary. All other facts are those that the
headers add up to, so a record is known from its header lines (`Dialect.headed_of_parse`). A plain
unified section has none.
-/

namespace DiffSections

set_option autoImplicit false

/-- The facts that only header lines change. -/
def FileFacts.said (facts : FileFacts) : FileFacts :=
  { facts with origPath := "", newPath := "", origInfo := none, newInfo := none, binary := false }

namespace Draft

/-- The header lines of a section, behind its boundary, are read as these headers, and add up to
these facts; the section says the same. -/
structure Headed (dialect : Dialect) (draft : Draft) (headers : List Header) (added : FileFacts)
    (rest : List Bytes) : Prop where
  behind : ∃ boundary lines, draft.pieces.reverse = boundary :: (lines ++ rest) ∧
    ReadAs lines headers
  adds : ∃ orig new, Header.addAll headers (Dialect.factsOfPaths orig new) = .ok added
  said : draft.toFileFacts.said = added.said
  none_of_unified : dialect = .unified → headers = []

variable {dialect : Dialect} {draft later : Draft} {headers : List Header} {added facts : FileFacts}
  {rest : List Bytes} {line : Bytes} {header : Header}

/-- Other lines come after the header lines. -/
theorem Headed.append (headed : draft.Headed dialect headers added rest) (line : Bytes) :
    (draft.append line).Headed dialect headers added (rest ++ [line]) where
  behind := by
    obtain ⟨boundary, lines, isPieces, reads⟩ := headed.behind
    refine ⟨boundary, lines, ?_, reads⟩
    rw [pieces_append, List.reverse_cons, isPieces]
    simp
  adds := headed.adds
  said := headed.said
  none_of_unified := headed.none_of_unified

/-- What changes neither the lines nor what only header lines say. -/
theorem Headed.congr (headed : draft.Headed dialect headers added rest)
    (same : later.toFileFacts.said = draft.toFileFacts.said)
    (pieces : later.pieces = draft.pieces) : later.Headed dialect headers added rest where
  behind := by
    rw [pieces]
    exact headed.behind
  adds := headed.adds
  said := same.trans headed.said
  none_of_unified := headed.none_of_unified

/-- One more header line. -/
theorem Headed.extend (headed : draft.Headed .git headers draft.toFileFacts [])
    (reads : Header.read (Line.content line) = .ok (some header))
    (adds : header.addTo draft.toFileFacts = .ok facts) :
    ((draft.withFacts facts).append line).Headed .git (headers ++ [header]) facts [] where
  behind := by
    obtain ⟨boundary, lines, isPieces, readLines⟩ := headed.behind
    refine ⟨boundary, lines ++ [line], ?_, List.rel_append readLines (.cons reads .nil)⟩
    rw [pieces_append, pieces_withFacts, List.reverse_cons, isPieces]
    simp
  adds := by
    obtain ⟨orig, new, addsLines⟩ := headed.adds
    refine ⟨orig, new, ?_⟩
    rw [Header.addAll, List.foldlM_append]
    show Except.bind (Header.addAll headers (Dialect.factsOfPaths orig new)) _ = _
    rw [addsLines]
    show Header.addAll [header] draft.toFileFacts = .ok facts
    exact Header.addAll_cons_eq_ok_iff.2 ⟨facts, adds, rfl⟩
  said := rfl
  none_of_unified := nofun

/-- A section in hand has header lines, perhaps none. -/
def HasHeaders (dialect : Dialect) (draft : Draft) : Prop :=
  ∃ headers added rest, draft.Headed dialect headers added rest

/-- While more header lines can come, no other lines did. -/
def HeadedAt (dialect : Dialect) (draft : Draft) : Place → Prop
  | .header false => ∃ headers, draft.Headed dialect headers draft.toFileFacts []
  | .header true | .payload | .hunk _ _ | .between _ => draft.HasHeaders dialect

theorem HeadedAt.hasHeaders {place : Place} (headed : draft.HeadedAt dialect place) :
    draft.HasHeaders dialect := by
  cases place with
  | header pairSeen =>
      cases pairSeen with
      | true => exact headed
      | false =>
          obtain ⟨headers, open_⟩ := headed
          exact ⟨headers, draft.toFileFacts, [], open_⟩
  | payload | hunk | between => exact headed

theorem HasHeaders.append (headed : draft.HasHeaders dialect) (line : Bytes) :
    (draft.append line).HasHeaders dialect := by
  obtain ⟨headers, added, rest, found⟩ := headed
  exact ⟨headers, added, rest ++ [line], found.append line⟩

theorem HasHeaders.congr (headed : draft.HasHeaders dialect)
    (same : later.toFileFacts.said = draft.toFileFacts.said)
    (pieces : later.pieces = draft.pieces) : later.HasHeaders dialect := by
  obtain ⟨headers, added, rest, found⟩ := headed
  exact ⟨headers, added, rest, found.congr same pieces⟩

theorem HasHeaders.withFacts (headed : draft.HasHeaders dialect)
    (same : facts.said = draft.toFileFacts.said) : (draft.withFacts facts).HasHeaders dialect :=
  headed.congr same rfl

end Draft

/-! ## Every step keeps the header lines -/

/-- The lines of a pair are about paths and infos. -/
theorem Dialect.said_addRevision (dialect : Dialect) (side : Side) (rest : Bytes)
    (facts : FileFacts) : (dialect.addRevision side rest facts).said = facts.said := by
  unfold addRevision
  cases dialect.pairPath? side (revisionName rest) <;> cases revisionInfo rest <;> cases side <;>
    rfl

theorem Dialect.binary_addRevision (dialect : Dialect) (side : Side) (rest : Bytes)
    (facts : FileFacts) : (dialect.addRevision side rest facts).binary = facts.binary := by
  unfold addRevision
  cases dialect.pairPath? side (revisionName rest) <;> cases revisionInfo rest <;>
    cases side <;> rfl

theorem Dialect.said_addPair (dialect : Dialect) (orig new : Bytes) (facts : FileFacts) :
    (dialect.addPair orig new facts).said = facts.said := by
  rw [addPair, said_addRevision, said_addRevision]

/-- A line is read as a header in the git dialect only. -/
theorem Dialect.exists_of_readHeader {dialect : Dialect} {line : Bytes} {facts added : FileFacts}
    (reads : dialect.readHeader line facts = .ok (some added)) :
    dialect = .git ∧
      ∃ header, Header.read line = .ok (some header) ∧ header.addTo facts = .ok added := by
  cases dialect with
  | unified => cases reads
  | git =>
      simp only [readHeader] at reads
      split at reads
      · cases reads
      · cases reads
      · rename_i header isHeader
        split at reads
        · cases reads
        · rename_i adds
          cases reads
          exact ⟨rfl, header, isHeader, adds⟩

def ReaderState.Headed (dialect : Dialect) : ReaderState → Prop
  | .reading draft place => draft.HeadedAt dialect place
  | .seeking previous _ => ∀ draft ∈ previous, draft.HasHeaders dialect

theorem Draft.headedAt_inHunk {dialect : Dialect} {draft : Draft} {left : Remaining}
    {last : Option BodyKind} (headed : draft.HasHeaders dialect) :
    draft.HeadedAt dialect (.inHunk left last) := by
  unfold Place.inHunk
  split <;> exact headed

/-- **A move keeps the header lines**, and only header lines add to them. -/
theorem SectionMove.headed {dialect : Dialect} {cuts : CutRule} {draft : Draft} {line : Bytes}
    {lines : List Bytes} {place : Place} {move : Move}
    (moves : SectionMove dialect cuts draft line lines place move)
    (headed : draft.HeadedAt dialect place) : move.state.Headed dialect := by
  have kept := headed.hasHeaders
  cases moves with
  | headerBoundary | text | payloadBoundary | afterHunks =>
      rintro _ ⟨⟩
      exact kept
  | summary =>
      have marked : draft.markBinary.HasHeaders dialect := kept.congr rfl rfl
      rintro _ ⟨⟩
      exact marked.append line
  | patch =>
      have marked : draft.markBinary.HasHeaders dialect := kept.congr rfl rfl
      exact marked.append line
  | payloadLine => exact kept.append line
  | extended _ _ reads =>
      obtain ⟨rfl, header, isHeader, adds⟩ := Dialect.exists_of_readHeader reads
      obtain ⟨headers, open_⟩ := headed
      exact ⟨headers ++ [header], open_.extend isHeader adds⟩
  | @pair orig new next =>
      have paired : (draft.withFacts (dialect.addPair orig new draft.toFileFacts)).HasHeaders
          dialect := kept.withFacts (dialect.said_addPair orig new _)
      exact (paired.append line).append next
  | @firstHunk hunk | @nextHunk _ hunk =>
      have opened : (draft.pushHunk hunk).HasHeaders dialect := kept.congr rfl rfl
      exact Draft.headedAt_inHunk (opened.append line)
  | @change _ _ _ kind =>
      have counted : (draft.count kind).HasHeaders dialect := kept.congr (by simp) (by simp)
      exact Draft.headedAt_inHunk (counted.append line)
  | @marker _ kind | @lateMarker kind =>
      have marked : (draft.markUnended kind).HasHeaders dialect := kept.congr (by simp) (by simp)
      exact marked.append line

/-- A boundary gives paths, and its dialect's pair also infos. -/
theorem Dialect.facts_of_open? {dialect : Dialect} {lines : List Bytes} {opening : Opening}
    (opens : dialect.open? lines = .ok (some opening)) :
    ∃ orig new, opening.facts.said = (factsOfPaths orig new).said ∧
      (opening.pairSeen = false → opening.facts = factsOfPaths orig new) ∧
      opening.facts.binary = false := by
  cases dialect with
  | git =>
      cases lines with
      | nil => cases opens
      | cons line later =>
          simp only [open?] at opens
          split at opens
          · cases opens
          · split at opens
            · rename_i orig new _
              cases opens
              exact ⟨orig, new, rfl, fun _ => rfl, rfl⟩
            · cases opens
  | unified =>
      cases lines with
      | nil => cases opens
      | cons line later =>
          cases later with
          | nil => cases opens
          | cons next later =>
              simp only [open?] at opens
              split at opens
              · rename_i orig new _ _
                rw [← Option.some.inj (Except.ok.inj opens)]
                refine ⟨Text.lossy (revisionName orig), Text.lossy (revisionName new), ?_, ?_, ?_⟩
                · rw [said_addRevision, said_addRevision]
                · intro unpaired
                  cases unpaired
                · rw [binary_addRevision, binary_addRevision]
                  rfl
              · cases opens

namespace Reader

variable {dialect : Dialect} {cuts : CutRule} {reader before after : Reader}

theorem headedAt_startDraft {ahead : List Bytes} {opening : Opening}
    (opens : dialect.open? ahead = .ok (some opening)) (pending : List Bytes) :
    (startDraft opening pending (ahead.take opening.lineCount)).HeadedAt dialect
      (.header opening.pairSeen) := by
  obtain ⟨orig, new, said, facts, -⟩ := Dialect.facts_of_open? opens
  obtain ⟨line, later, rfl⟩ := Dialect.exists_cons_of_startsSection
    ((dialect.open?_ne_none_iff ahead).1 (by simp [opens]))
  rw [startDraft_eq]
  cases pairSeen : opening.pairSeen with
  | true =>
      refine ⟨[], Dialect.factsOfPaths orig new, (later.take 1), ?_, ⟨orig, new, rfl⟩, said,
        fun _ => rfl⟩
      exact ⟨line, [], by simp [Opening.lineCount, pairSeen], .nil⟩
  | false =>
      refine ⟨[], ?_, ⟨orig, new, ?_⟩, rfl, fun _ => rfl⟩
      · exact ⟨line, [], by simp [Opening.lineCount, pairSeen], .nil⟩
      · rw [facts pairSeen]
        rfl

theorem Step.headed (stepped : Step dialect cuts before after)
    (kept : before.state.Headed dialect) : after.state.Headed dialect := by
  cases stepped with
  | skip => exact kept
  | start opens => exact headedAt_startDraft opens _
  | inside moves =>
      rw [state_move]
      exact moves.headed kept

theorem Reaches.hasHeaders {lines : List Bytes} {draft : Draft}
    (reaches : Reaches dialect cuts (ofLines lines) reader)
    (inHand : reader.state.inHand = some draft) : draft.HasHeaders dialect := by
  have headed : reader.state.Headed dialect :=
    reaches.keeps (fun reader => reader.state.Headed dialect)
      (fun _ _ stepped kept => stepped.headed kept) (by simp [ofLines, ReaderState.Headed])
  cases state : reader.state with
  | seeking previous pending =>
      rw [state] at headed inHand
      exact headed draft inHand
  | reading other place =>
      rw [state] at headed inHand
      cases inHand
      exact headed.hasHeaders

end Reader

/-! ## Records -/

/-- The lines of a section directly behind its boundary that are read as these headers. -/
def FileRecord.ShowsHeaders (record : FileRecord) (headers : List Header) : Prop :=
  ∃ boundary lines rest, Line.split record.body = boundary :: (lines ++ rest) ∧
    ReadAs lines headers

/-- **A record says what its header lines add up to**, and a unified one has none. -/
theorem Dialect.headed_of_parse {dialect : Dialect} {data : Bytes} {records : List FileRecord}
    {record : FileRecord} (parsed : dialect.parse data = .ok records) (member : record ∈ records) :
    ∃ headers orig new added, record.ShowsHeaders headers ∧
      Header.addAll headers (factsOfPaths orig new) = .ok added ∧
      record.toFileFacts.said = added.said ∧ (dialect = .unified → headers = []) := by
  obtain ⟨draft, more, reader, closing, lines⟩ := exists_draft_of_parse parsed member
  obtain ⟨headers, added, rest, headed⟩ := Reader.Reaches.hasHeaders closing.reaches closing.inHand
  obtain ⟨boundary, headerLines, pieces, reads⟩ := headed.behind
  obtain ⟨orig, new, adds⟩ := headed.adds
  refine ⟨headers, orig, new, added, ?_, adds, ?_, headed.none_of_unified⟩
  · refine ⟨boundary, headerLines, rest ++ more, ?_, reads⟩
    rw [lines, pieces]
    simp
  · rw [closing.record_eq]
    exact headed.said

end DiffSections
