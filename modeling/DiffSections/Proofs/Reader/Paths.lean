import DiffSections.Proofs.Path.Source
import DiffSections.Proofs.Reader.Headers

/-!
# DiffSections.Proofs.Reader.Paths -- the paths of a record stand on its lines

A section has its two paths from its boundary, and each later path from the line that gives it
(`FileFacts.PathsIn`). So both paths of a record stand on lines of its section
(`Dialect.pathsIn_of_parse`). A path that holds a line feed is then in a git section with an escaped
one (`Dialect.escape_of_lineFeed`).
-/

namespace DiffSections

set_option autoImplicit false

open Bytes

/-- Both paths stand on some of these lines. -/
structure FileFacts.PathsIn (facts : FileFacts) (dialect : Dialect) (lines : List Bytes) :
    Prop where
  orig : ∃ line ∈ lines, PathIn dialect (Line.content line) facts.origPath
  new : ∃ line ∈ lines, PathIn dialect (Line.content line) facts.newPath

namespace FileFacts.PathsIn

variable {dialect : Dialect} {facts later : FileFacts} {lines more : List Bytes} {line : Bytes}

theorem mono (isIn : facts.PathsIn dialect lines) (within : lines ⊆ more) :
    facts.PathsIn dialect more where
  orig := by
    obtain ⟨line, member, found⟩ := isIn.orig
    exact ⟨line, within member, found⟩
  new := by
    obtain ⟨line, member, found⟩ := isIn.new
    exact ⟨line, within member, found⟩

/-- What leaves the paths alone. -/
theorem congr (isIn : facts.PathsIn dialect lines) (orig : later.origPath = facts.origPath)
    (new : later.newPath = facts.newPath) : later.PathsIn dialect lines := by
  refine ⟨?_, ?_⟩
  · rw [orig]
    exact isIn.orig
  · rw [new]
    exact isIn.new

/-- One more line, which may give a path. -/
theorem cons (isIn : facts.PathsIn dialect lines)
    (orig : PathIn dialect (Line.content line) later.origPath ∨ later.origPath = facts.origPath)
    (new : PathIn dialect (Line.content line) later.newPath ∨ later.newPath = facts.newPath) :
    later.PathsIn dialect (line :: lines) where
  orig := by
    rcases orig with here | kept
    · exact ⟨line, by simp, here⟩
    · rw [kept]
      exact (isIn.mono (List.subset_cons_self line lines)).orig
  new := by
    rcases new with here | kept
    · exact ⟨line, by simp, here⟩
    · rw [kept]
      exact (isIn.mono (List.subset_cons_self line lines)).new

end FileFacts.PathsIn

/-! ## Every step keeps the sources of paths -/

/-- Both paths of a section in hand stand on its lines. -/
def Draft.PathsIn (draft : Draft) (dialect : Dialect) : Prop :=
  draft.toFileFacts.PathsIn dialect draft.pieces

namespace Draft.PathsIn

variable {dialect : Dialect} {draft later : Draft}

theorem append (isIn : draft.PathsIn dialect) (line : Bytes) :
    (draft.append line).PathsIn dialect :=
  FileFacts.PathsIn.mono isIn (List.subset_cons_self line draft.pieces)

theorem congr (isIn : draft.PathsIn dialect) (facts : later.toFileFacts = draft.toFileFacts)
    (pieces : later.pieces = draft.pieces) : later.PathsIn dialect := by
  rw [Draft.PathsIn, facts, pieces]
  exact isIn

/-- A line with what it says about the paths. -/
theorem append_withFacts (isIn : draft.PathsIn dialect) {facts : FileFacts} {line : Bytes}
    (orig : PathIn dialect (Line.content line) facts.origPath ∨ facts.origPath = draft.origPath)
    (new : PathIn dialect (Line.content line) facts.newPath ∨ facts.newPath = draft.newPath) :
    ((draft.withFacts facts).append line).PathsIn dialect :=
  FileFacts.PathsIn.cons isIn orig new

/-- Two lines with what they say about the paths. -/
theorem of_two {facts : FileFacts} {line next : Bytes}
    (isIn : facts.PathsIn dialect (next :: line :: draft.pieces)) :
    (((draft.withFacts facts).append line).append next).PathsIn dialect :=
  isIn

end Draft.PathsIn

def ReaderState.PathsIn (dialect : Dialect) : ReaderState → Prop
  | .reading draft _ => draft.PathsIn dialect
  | .seeking previous _ => ∀ draft ∈ previous, draft.PathsIn dialect

/-- A header line gives paths that stand on it. -/
theorem Dialect.path_readHeader {dialect : Dialect} {line : Bytes} {facts added : FileFacts}
    (reads : dialect.readHeader line facts = .ok (some added)) :
    (PathIn dialect line added.origPath ∨ added.origPath = facts.origPath) ∧
      (PathIn dialect line added.newPath ∨ added.newPath = facts.newPath) := by
  obtain ⟨rfl, header, isHeader, adds⟩ := exists_of_readHeader reads
  obtain ⟨orig, new⟩ := Header.path_of_addTo adds
  exact ⟨orig.imp_left fun gives => Header.pathIn_of_read isHeader (.inl gives),
    new.imp_left fun gives => Header.pathIn_of_read isHeader (.inr gives)⟩

theorem Dialect.infix_of_after? {head content rest : Bytes}
    (after : after? head content = some rest) : rest <:+: content := by
  rw [after?_eq_some_iff.1 after]
  exact (List.suffix_append head rest).isInfix

/-- The lines of a pair give paths that stand on them. -/
theorem FileFacts.PathsIn.addPair {dialect : Dialect} {facts : FileFacts} {lines : List Bytes}
    (isIn : facts.PathsIn dialect lines) {line next orig new : Bytes}
    (origLine : after? Dialect.origHead (Line.content line) = some orig)
    (newLine : after? Dialect.newHead (Line.content next) = some new) :
    (dialect.addPair orig new facts).PathsIn dialect (next :: line :: lines) := by
  have first := dialect.path_addRevision .orig (Dialect.infix_of_after? origLine) facts
  have second := dialect.path_addRevision .new (Dialect.infix_of_after? newLine)
    (dialect.addRevision .orig orig facts)
  exact (isIn.cons first.1 first.2).cons second.1 second.2

/-- A boundary that is a pair gives both paths twice, the second time as any pair does. -/
theorem Dialect.pathsIn_of_pair {line next orig new : Bytes}
    (origLine : after? origHead (Line.content line) = some orig)
    (newLine : after? newHead (Line.content next) = some new) :
    (unified.addPair orig new (factsOfPaths (Text.lossy (revisionName orig))
      (Text.lossy (revisionName new)))).PathsIn .unified [line, next] := by
  have given : (factsOfPaths (Text.lossy (revisionName orig))
      (Text.lossy (revisionName new))).PathsIn .unified [line, next] :=
    ⟨⟨line, by simp, .plain (infix_revisionName (infix_of_after? origLine))⟩,
      ⟨next, by simp, .plain (infix_revisionName (infix_of_after? newLine))⟩⟩
  exact (given.addPair origLine newLine).mono (by simp)

/-- **A move keeps the sources of paths.** -/
theorem SectionMove.pathsIn {dialect : Dialect} {cuts : CutRule} {draft : Draft} {line : Bytes}
    {lines : List Bytes} {place : Place} {move : Move}
    (moves : SectionMove dialect cuts draft line lines place move)
    (isIn : draft.PathsIn dialect) : move.state.PathsIn dialect := by
  cases moves with
  | headerBoundary | text | payloadBoundary | afterHunks =>
      rintro _ ⟨⟩
      exact isIn
  | summary =>
      have marked : draft.markBinary.PathsIn dialect := FileFacts.PathsIn.congr isIn rfl rfl
      rintro _ ⟨⟩
      exact marked.append line
  | patch =>
      have marked : draft.markBinary.PathsIn dialect := FileFacts.PathsIn.congr isIn rfl rfl
      exact marked.append line
  | payloadLine => exact isIn.append line
  | extended _ _ reads =>
      obtain ⟨orig, new⟩ := Dialect.path_readHeader reads
      exact isIn.append_withFacts orig new
  | pair _ _ _ origLine _ newLine =>
      exact Draft.PathsIn.of_two (FileFacts.PathsIn.addPair isIn origLine newLine)
  | @firstHunk hunk | @nextHunk _ hunk =>
      have opened : (draft.pushHunk hunk).PathsIn dialect := isIn.congr rfl rfl
      exact opened.append line
  | @change _ _ _ kind =>
      have counted : (draft.count kind).PathsIn dialect := isIn.congr (by simp) (by simp)
      exact counted.append line
  | @marker _ kind | @lateMarker kind =>
      have marked : (draft.markUnended kind).PathsIn dialect := isIn.congr (by simp) (by simp)
      exact marked.append line

/-- A boundary gives paths that stand on its lines. -/
theorem Dialect.pathsIn_of_open? {dialect : Dialect} {lines : List Bytes} {opening : Opening}
    (opens : dialect.open? lines = .ok (some opening)) :
    opening.facts.PathsIn dialect (lines.take opening.lineCount) := by
  cases dialect with
  | git =>
      cases lines with
      | nil => cases opens
      | cons line later =>
          simp only [open?] at opens
          split at opens
          · cases opens
          · rename_i rest after
            split at opens
            · rename_i orig new splits
              cases opens
              obtain ⟨inOrig, inNew⟩ := Boundary.pathIn_of_paths? splits
              have within := infix_of_after? after
              exact ⟨⟨line, by simp [Opening.lineCount], inOrig.mono within⟩,
                ⟨line, by simp [Opening.lineCount], inNew.mono within⟩⟩
            · cases opens
  | unified =>
      cases lines with
      | nil => cases opens
      | cons line later =>
          cases later with
          | nil => cases opens
          | cons next later =>
              simp only [open?] at opens
              split at opens
              · rename_i orig new origLine newLine
                rw [← Option.some.inj (Except.ok.inj opens)]
                have isIn := pathsIn_of_pair origLine newLine
                rw [addPair] at isIn
                dsimp only
                exact isIn.mono (by simp [Opening.lineCount])
              · cases opens

namespace Reader

variable {dialect : Dialect} {cuts : CutRule} {reader before after : Reader}

theorem Step.pathsIn (stepped : Step dialect cuts before after)
    (isIn : before.state.PathsIn dialect) : after.state.PathsIn dialect := by
  cases stepped with
  | skip => exact isIn
  | start opens =>
      show Draft.PathsIn (startDraft _ _ _) dialect
      rw [startDraft_eq]
      refine FileFacts.PathsIn.mono (Dialect.pathsIn_of_open? opens) ?_
      exact fun line member => List.mem_reverse.2 member
  | inside moves =>
      rw [state_move]
      exact moves.pathsIn isIn

theorem Reaches.pathsIn {lines : List Bytes} {draft : Draft}
    (reaches : Reaches dialect cuts (ofLines lines) reader)
    (inHand : reader.state.inHand = some draft) : draft.PathsIn dialect := by
  have isIn : reader.state.PathsIn dialect :=
    reaches.keeps (fun reader => reader.state.PathsIn dialect)
      (fun _ _ stepped kept => stepped.pathsIn kept) (by simp [ofLines, ReaderState.PathsIn])
  cases state : reader.state with
  | seeking previous pending =>
      rw [state] at isIn inHand
      exact isIn draft inHand
  | reading other place =>
      rw [state] at isIn inHand
      cases inHand
      exact isIn

end Reader

/-! ## Records -/

namespace Dialect

variable {dialect : Dialect} {data : Bytes} {records : List FileRecord} {record : FileRecord}

/-- **Both paths of a record stand on lines of its section.** -/
theorem pathsIn_of_parse (parsed : dialect.parse data = .ok records) (member : record ∈ records) :
    record.toFileFacts.PathsIn dialect (Line.split record.body) := by
  obtain ⟨draft, more, reader, closing, lines⟩ := exists_draft_of_parse parsed member
  have isIn := Reader.Reaches.pathsIn closing.reaches closing.inHand
  rw [closing.record_eq]
  refine FileFacts.PathsIn.mono isIn ?_
  rw [← closing.record_eq, lines]
  intro line member
  simp [member]

end Dialect

/-- What is matched of a line holds no line feed. -/
theorem Line.lf_notMem_content {line : Bytes} (isLine : IsLine line) : lf ∉ content line := by
  obtain ⟨text, unbroken, rfl | ⟨rfl, -⟩⟩ := isLine.exists_text
  · rw [content_ended]
    exact fun member => unbroken ((stripLast_isPrefix cr text).subset member)
  · exact fun member => unbroken ((content_isPrefix _).subset member)

/-- **A path of a record holds a line feed only in the git dialect, and only if its section holds an
escaped one.** -/
theorem Dialect.escape_of_lineFeed {dialect : Dialect} {data : Bytes} {records : List FileRecord}
    {record : FileRecord} (parsed : dialect.parse data = .ok records) (member : record ∈ records)
    {path : String} (isPath : path = record.origPath ∨ path = record.newPath)
    (feed : '\n' ∈ path.toList) :
    dialect = .git ∧ ∃ escape ∈ Quoted.lineFeedEscapes, escape <:+: record.body := by
  have isIn := pathsIn_of_parse parsed member
  obtain ⟨line, isLine, found⟩ :
      ∃ line ∈ Line.split record.body, PathIn dialect (Line.content line) path := by
    rcases isPath with rfl | rfl
    · exact isIn.orig
    · exact isIn.new
  have unbroken := Line.lf_notMem_content ((Line.isCut_split record.body).isLine line isLine)
  obtain ⟨git, escape, isEscape, within⟩ := found.escape_of_lineFeed unbroken feed
  have inBody : line <:+: record.body := by
    rw [← Line.flatten_split record.body]
    exact List.infix_of_mem_flatten isLine
  exact ⟨git, escape, isEscape, (within.trans (Line.content_isPrefix line).isInfix).trans inBody⟩

end DiffSections
