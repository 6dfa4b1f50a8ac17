import DiffSections.Proofs.Header.Sound
import DiffSections.Proofs.Reader.Headers
import DiffSections.Proofs.HunkAccounting

/-!
# DiffSections.Proofs.Consistency -- the facts of a record fit together

No check is made of a record as a whole. That its facts fit together (`FileRecord.Consistent`)
follows from what each line may add. Header lines have values of their kinds and are refused where
they contradict each other, and a record says what its header lines add up to. Content that is
binary is announced before any hunk, and the reader does not go back to hunks from there
(`Draft.BinaryAt`).
-/

namespace DiffSections

set_option autoImplicit false

/-! ## What header lines add up to -/

/-- The facts that header lines give fit together, and have values of their kinds. -/
structure FileFacts.Consistent (facts : FileFacts) : Prop where
  deleted : facts.deleted = true →
    facts.created = false ∧ facts.moved = false ∧ facts.copied = false
  similarity : ∀ percent ∈ facts.similarity, percent ≤ 100
  dissimilarity : ∀ percent ∈ facts.dissimilarity, percent ≤ 100
  blobs : facts.origBlob = none ↔ facts.newBlob = none
  origBlob : ∀ id ∈ facts.origBlob, HeaderValue.IsObjectId id
  newBlob : ∀ id ∈ facts.newBlob, HeaderValue.IsObjectId id
  modes : ∀ modes ∈ facts.modes, ∀ mode, mode ∈ modes.old ∨ mode ∈ modes.new →
    HeaderValue.IsMode mode

/-- Nothing is said but paths, infos and whether the file is binary. -/
structure FileFacts.Plain (facts : FileFacts) : Prop where
  created : facts.created = false
  deleted : facts.deleted = false
  moved : facts.moved = false
  copied : facts.copied = false
  symlink : facts.symlink = false
  modes : facts.modes = none
  origBlob : facts.origBlob = none
  newBlob : facts.newBlob = none
  similarity : facts.similarity = none
  dissimilarity : facts.dissimilarity = none

/-- Paths, infos and whether the file is binary do not matter here. -/
theorem FileFacts.Consistent.of_said {facts : FileFacts} (consistent : facts.said.Consistent) :
    facts.Consistent :=
  ⟨consistent.deleted, consistent.similarity, consistent.dissimilarity, consistent.blobs,
    consistent.origBlob, consistent.newBlob, consistent.modes⟩

theorem FileFacts.Consistent.said {facts : FileFacts} (consistent : facts.Consistent) :
    facts.said.Consistent :=
  ⟨consistent.deleted, consistent.similarity, consistent.dissimilarity, consistent.blobs,
    consistent.origBlob, consistent.newBlob, consistent.modes⟩

theorem FileFacts.Plain.of_said {facts : FileFacts} (plain : facts.said.Plain) : facts.Plain :=
  ⟨plain.created, plain.deleted, plain.moved, plain.copied, plain.symlink, plain.modes,
    plain.origBlob, plain.newBlob, plain.similarity, plain.dissimilarity⟩

namespace Header

variable {headers : List Header} {orig new : String} {added : FileFacts}

theorem exists_of_getLast? {α : Type} {gives : Header → Option α} {value : α}
    (last : (headers.filterMap gives).getLast? = some value) :
    ∃ header ∈ headers, gives header = some value :=
  List.mem_filterMap.1 (List.mem_of_getLast? last)

/-- What is good of the values that each header can give is good of the last one. -/
theorem forall_mem_last {α : Type} {gives : Header → Option α} {good : α → Prop}
    (sound : ∀ header ∈ headers, header.Sound)
    (each : ∀ header : Header, header.Sound → ∀ value ∈ gives header, good value) :
    ∀ value ∈ (headers.filterMap gives).getLast?.or none, good value := by
  intro value given
  rw [Option.or_none] at given
  obtain ⟨header, isHeader, gives⟩ := exists_of_getLast? given
  exact each header (sound header isHeader) value gives

theorem Sound.percentages {header : Header} (sound : header.Sound) :
    (∀ percent ∈ header.similarity?, percent ≤ 100) ∧
      ∀ percent ∈ header.dissimilarity?, percent ≤ 100 := by
  cases header with
  | similarityIndex => exact ⟨by rintro _ ⟨⟩; exact sound, nofun⟩
  | dissimilarityIndex => exact ⟨nofun, by rintro _ ⟨⟩; exact sound⟩
  | _ => exact ⟨nofun, nofun⟩

theorem Sound.ids {header : Header} (sound : header.Sound) :
    (∀ id ∈ header.origId?, HeaderValue.IsObjectId id) ∧
      ∀ id ∈ header.newId?, HeaderValue.IsObjectId id := by
  cases header with
  | index => exact ⟨by rintro _ ⟨⟩; exact sound.1, by rintro _ ⟨⟩; exact sound.2.1⟩
  | _ => exact ⟨nofun, nofun⟩

/-- An index line gives both ids. -/
theorem origId?_eq_none_iff (header : Header) : header.origId? = none ↔ header.newId? = none := by
  cases header <;> simp [origId?, newId?]

/-- The modes that headers give are modes. -/
theorem isMode_of_given {header : Header} {mode : String} (sound : header.Sound)
    (given : header.oldMode? = some mode ∨ header.newMode? = some mode ∨
      header.sharedMode? = some mode) : HeaderValue.IsMode mode := by
  cases header with
  | newFileMode | deletedFileMode | oldMode | newMode =>
      obtain rfl : _ = mode := by simpa [oldMode?, newMode?, sharedMode?] using given
      exact sound
  | index _ _ shared =>
      have isShared : shared = some mode := by simpa [oldMode?, newMode?, sharedMode?] using given
      exact sound.2.2 mode isShared
  | _ => simp [oldMode?, newMode?, sharedMode?] at given

/-- The modes of a side are those of the side alone, or of both. -/
theorem isMode_of_modes {facts : FileFacts} (sound : ∀ header ∈ headers, header.Sound)
    (unknown : facts.modes = none) {modes : Modes}
    (known : (effects headers facts).modes = some modes) {mode : String}
    (given : mode ∈ modes.old ∨ mode ∈ modes.new) : HeaderValue.IsMode mode := by
  have old (last : oldModeOf headers = some mode) : HeaderValue.IsMode mode := by
    obtain ⟨header, isHeader, gives⟩ := exists_of_getLast? last
    exact isMode_of_given (sound header isHeader) (.inl gives)
  have new (last : newModeOf headers = some mode) : HeaderValue.IsMode mode := by
    obtain ⟨header, isHeader, gives⟩ := exists_of_getLast? last
    exact isMode_of_given (sound header isHeader) (.inr (.inl gives))
  have shared (first : sharedModeOf headers = some mode) : HeaderValue.IsMode mode := by
    obtain ⟨header, isHeader, gives⟩ := List.mem_filterMap.1 (List.mem_of_head? first)
    exact isMode_of_given (sound header isHeader) (.inr (.inr gives))
  rcases modes_effects_of_unknown headers unknown with ⟨unset, -⟩ | ⟨sides, -⟩ |
    ⟨both, isShared, under⟩
  · rw [unset] at known
    cases known
  · rw [sides] at known
    cases known
    exact given.elim old new
  · rw [under] at known
    cases known
    rcases given with given | given <;> rcases Option.or_eq_some_iff.1 given with side | ⟨-, under⟩
    · exact old side
    · exact shared (isShared.trans under)
    · exact new side
    · exact shared (isShared.trans under)

/-- **What header lines add up to fits together.** -/
theorem consistent_of_addAll (sound : ∀ header ∈ headers, header.Sound)
    (adds : addAll headers (Dialect.factsOfPaths orig new) = .ok added) : added.Consistent := by
  have clear : ((Dialect.factsOfPaths orig new).deleted &&
      (Dialect.factsOfPaths orig new).placed) = false := rfl
  obtain ⟨fits, rfl⟩ := (addAll_eq_ok_iff clear).1 adds
  constructor
  case deleted =>
    intro deleted
    rw [deleted, Bool.true_and] at fits
    simp only [FileFacts.placed, FileFacts.movedOrCopied, Bool.or_eq_false_iff] at fits
    obtain ⟨notCreated, ⟨⟨notRenamed, -⟩, notCopied⟩, -⟩ := fits
    exact ⟨notCreated, by simp [FileFacts.moved, notRenamed], by simp [FileFacts.copied, notCopied]⟩
  case similarity =>
    rw [similarity_effects]
    exact forall_mem_last sound fun _ sound => sound.percentages.1
  case dissimilarity =>
    rw [dissimilarity_effects]
    exact forall_mem_last sound fun _ sound => sound.percentages.2
  case origBlob =>
    rw [origBlob_effects]
    exact forall_mem_last sound fun _ sound => sound.ids.1
  case newBlob =>
    rw [newBlob_effects]
    exact forall_mem_last sound fun _ sound => sound.ids.2
  case blobs =>
    have unset (gives : Header → Option String) :
        (headers.filterMap gives).getLast?.or none = none ↔
          ∀ header ∈ headers, gives header = none := by
      rw [Option.or_none, List.getLast?_eq_none_iff, List.filterMap_eq_nil_iff]
    rw [origBlob_effects, newBlob_effects]
    apply (unset origId?).trans
    apply Iff.trans _ (unset newId?).symm
    exact forall₂_congr fun header _ => origId?_eq_none_iff header
  case modes =>
    intro modes known mode given
    exact isMode_of_modes sound rfl known given

/-- A link is one by the mode that some header gives. -/
theorem exists_links_of_addAll (adds : addAll headers (Dialect.factsOfPaths orig new) = .ok added)
    (symlink : added.symlink = true) : ∃ header ∈ headers, header.links = true := by
  have clear : ((Dialect.factsOfPaths orig new).deleted &&
      (Dialect.factsOfPaths orig new).placed) = false := rfl
  obtain ⟨-, rfl⟩ := (addAll_eq_ok_iff clear).1 adds
  rw [symlink_effects] at symlink
  exact List.any_eq_true.1 symlink

end Header

/-- Lines that are read as headers give sound ones. -/
theorem ReadAs.sound {lines : List Bytes} {headers : List Header} (reads : ReadAs lines headers) :
    ∀ header ∈ headers, header.Sound := by
  induction reads with
  | nil => nofun
  | cons first _ ih =>
      intro header member
      rcases List.mem_cons.1 member with rfl | later
      · exact Header.sound_of_read first
      · exact ih header later

theorem FileFacts.plain_of_paths (orig new : String) :
    (Dialect.factsOfPaths orig new).said.Plain :=
  ⟨rfl, rfl, rfl, rfl, rfl, rfl, rfl, rfl, rfl, rfl⟩

/-! ## Binary content -/

namespace Draft

/-- A section that is said to be binary has no hunks, and is not where hunks are read. -/
def BinaryAt (draft : Draft) : Place → Prop
  | .header _ => draft.binary = false ∧ draft.hunks = []
  | .payload => draft.hunks = []
  | .hunk _ _ | .between _ => draft.binary = false

theorem BinaryAt.hunks_eq_nil {draft : Draft} {place : Place} (known : draft.BinaryAt place)
    (binary : draft.binary = true) : draft.hunks = [] := by
  cases place with
  | header => exact known.2
  | payload => exact known
  | hunk | between => exact absurd (known.symm.trans binary) (by decide)

theorem BinaryAt.append {draft : Draft} {place : Place} (known : draft.BinaryAt place)
    (line : Bytes) : (draft.append line).BinaryAt place := by
  cases place <;> exact known

theorem BinaryAt.withFacts {draft : Draft} {pairSeen : Bool} {facts : FileFacts}
    (known : draft.BinaryAt (.header pairSeen)) (same : facts.binary = draft.binary)
    (pairSeen' : Bool) : (draft.withFacts facts).BinaryAt (.header pairSeen') :=
  ⟨same.trans known.1, known.2⟩

theorem binaryAt_inHunk {draft : Draft} {left : Remaining} {last : Option BodyKind}
    (text : draft.binary = false) : draft.BinaryAt (.inHunk left last) := by
  unfold Place.inHunk
  split <;> exact text

end Draft

def ReaderState.BinaryAlone : ReaderState → Prop
  | .reading draft place => draft.BinaryAt place
  | .seeking previous _ => ∀ draft ∈ previous, draft.binary = true → draft.hunks = []

/-- Neither header lines nor a pair say that a file is binary. -/
theorem Dialect.binary_readHeader {dialect : Dialect} {line : Bytes} {facts added : FileFacts}
    (reads : dialect.readHeader line facts = .ok (some added)) : added.binary = facts.binary := by
  obtain ⟨-, header, -, adds⟩ := exists_of_readHeader reads
  obtain ⟨-, -, rfl⟩ := Header.addTo_eq_ok_iff.1 adds
  exact Header.binary_effects [header] facts

theorem Dialect.binary_addPair (dialect : Dialect) (orig new : Bytes) (facts : FileFacts) :
    (dialect.addPair orig new facts).binary = facts.binary := by
  rw [addPair, binary_addRevision, binary_addRevision]

/-- **A move keeps binary sections free of hunks.** -/
theorem SectionMove.binaryAlone {dialect : Dialect} {cuts : CutRule} {draft : Draft} {line : Bytes}
    {lines : List Bytes} {place : Place} {move : Move}
    (moves : SectionMove dialect cuts draft line lines place move)
    (known : draft.BinaryAt place) : move.state.BinaryAlone := by
  cases moves with
  | headerBoundary | text | payloadBoundary | afterHunks =>
      rintro _ ⟨⟩
      exact known.hunks_eq_nil
  | summary =>
      rintro _ ⟨⟩ -
      exact known.2
  | patch => exact known.2
  | payloadLine => exact known
  | extended _ _ reads =>
      have added := known.withFacts (Dialect.binary_readHeader reads) false
      exact added.append line
  | @pair orig new next =>
      have added := known.withFacts (dialect.binary_addPair orig new draft.toFileFacts) true
      exact (added.append line).append next
  | firstHunk => exact Draft.binaryAt_inHunk known.1
  | nextHunk => exact Draft.binaryAt_inHunk known
  | @change _ _ _ kind =>
      apply Draft.binaryAt_inHunk
      show (draft.count kind).toFileFacts.binary = false
      rw [Draft.toFileFacts_count]
      exact known
  | @marker _ kind | @lateMarker kind =>
      show (draft.markUnended kind).toFileFacts.binary = false
      rw [Draft.toFileFacts_markUnended]
      exact known

namespace Reader

variable {dialect : Dialect} {cuts : CutRule} {reader before after : Reader}

theorem binaryAt_startDraft {opening : Opening} (text : opening.facts.binary = false)
    (pending lines : List Bytes) :
    (startDraft opening pending lines).BinaryAt (.header opening.pairSeen) := by
  rw [startDraft_eq]
  exact ⟨text, rfl⟩

theorem Step.binaryAlone (stepped : Step dialect cuts before after)
    (kept : before.state.BinaryAlone) : after.state.BinaryAlone := by
  cases stepped with
  | skip => exact kept
  | start opens =>
      obtain ⟨-, -, -, -, text⟩ := Dialect.facts_of_open? opens
      exact binaryAt_startDraft text _ _
  | inside moves =>
      rw [state_move]
      exact moves.binaryAlone kept

theorem Reaches.binaryAlone {lines : List Bytes}
    (reaches : Reaches dialect cuts (ofLines lines) reader) : reader.state.BinaryAlone :=
  reaches.keeps (fun reader => reader.state.BinaryAlone)
    (fun _ _ stepped kept => stepped.binaryAlone kept)
    (by simp [ofLines, ReaderState.BinaryAlone])

/-- What is closed as binary has no hunks. -/
theorem Closes.hunks_eq_nil {lines more : List Bytes} {record : FileRecord} {draft : Draft}
    (closing : Closes dialect cuts lines record draft more reader)
    (binary : record.binary = true) : record.hunks = [] := by
  have isBinary : draft.binary = true := by
    rw [closing.record_eq] at binary
    exact binary
  have none : draft.hunks = [] := by
    have known := Reaches.binaryAlone closing.reaches
    have inHand := closing.inHand
    cases state : reader.state with
    | seeking previous pending =>
        rw [state] at known inHand
        exact known draft inHand isBinary
    | reading other place =>
        rw [state] at known inHand
        cases inHand
        exact known.hunks_eq_nil isBinary
  rw [closing.record_eq]
  show draft.hunks.reverse = []
  rw [none, List.reverse_nil]

end Reader

/-! ## Records -/

/-- The facts of a record fit together, and with its hunks and its header lines. -/
structure FileRecord.Consistent (record : FileRecord) : Prop
    extends record.toFileFacts.Consistent where
  binary : record.binary = true →
    record.hunks = [] ∧ record.insertions = 0 ∧ record.deletions = 0
  symlink : record.symlink = true →
    ∃ headers, record.ShowsHeaders headers ∧ ∃ header ∈ headers, header.links = true

/-- **The facts of every record that is read fit together**, and a plain unified record has none but
its paths and infos, and whether it is binary. -/
theorem Dialect.consistent_of_parse {dialect : Dialect} {data : Bytes} {records : List FileRecord}
    (parsed : dialect.parse data = .ok records) :
    ∀ record ∈ records, record.Consistent ∧ (dialect = .unified → record.toFileFacts.Plain) := by
  intro record member
  obtain ⟨headers, orig, new, added, shown, adds, said, none_of_unified⟩ :=
    headed_of_parse parsed member
  have sound : ∀ header ∈ headers, header.Sound := by
    obtain ⟨_, _, _, _, reads⟩ := shown
    exact reads.sound
  have facts : record.toFileFacts.Consistent := by
    apply FileFacts.Consistent.of_said
    rw [said]
    exact (Header.consistent_of_addAll sound adds).said
  refine ⟨⟨facts, ?_, ?_⟩, ?_⟩
  · intro binary
    obtain ⟨draft, more, reader, closing, -⟩ := exists_draft_of_parse parsed member
    have noHunks := closing.hunks_eq_nil binary
    have laidOut := laidOut_of_parse parsed record member
    refine ⟨noHunks, ?_, ?_⟩
    · rw [laidOut.insertions, noHunks]
      rfl
    · rw [laidOut.deletions, noHunks]
      rfl
  · intro symlink
    have isLink : added.symlink = true := by
      have same := congrArg FileFacts.symlink said
      exact same.symm.trans symlink
    exact ⟨headers, shown, Header.exists_links_of_addAll adds isLink⟩
  · intro unified
    rw [none_of_unified unified] at adds
    cases adds
    apply FileFacts.Plain.of_said
    rw [said]
    exact FileFacts.plain_of_paths orig new

/-- A link that became a file, with its index line first, and a binary file. -/
theorem Dialect.consistent_of_parse_link :
    let data := Bytes.ofAscii <|
      "diff --git a/l b/l\nindex 12ab..34cd\nold mode 120000\nnew mode 100644\n" ++
      "--- a/l\n+++ b/l\n@@ -1 +1 @@\n-t\n+u\n" ++
      "diff --git a/b b/b\ndeleted file mode 100644\nBinary files a/b and /dev/null differ\n"
    ∃ records, Dialect.git.parse data = .ok records ∧
      records.map (·.symlink) = [true, false] ∧ records.map (·.binary) = [false, true] ∧
      ∀ record ∈ records,
        record.Consistent ∧ (Dialect.git = .unified → record.toFileFacts.Plain) := by
  intro data
  obtain ⟨records, parsed, flags⟩ := exists_parse_of_look .git data
    (fun records => (records.map (·.symlink), records.map (·.binary)))
    ([true, false], [false, true]) (by decide +kernel)
  obtain ⟨links, binaries⟩ := Prod.mk.inj flags
  exact ⟨records, parsed, links, binaries, Dialect.consistent_of_parse parsed⟩

end DiffSections
