import DiffSections.Proofs.Concatenation
import DiffSections.Proofs.Header.Effect
import DiffSections.Proofs.Header.Lines
import DiffSections.Proofs.Hunk.Lines

/-!
# DiffSections.Proofs.SharedText -- both dialects read the same changes in git sections

A `SharedSection` is a git section made of a boundary, extended header lines that are accepted, and
perhaps a `---`/`+++` pair with complete hunks. The git reader takes the boundary as a boundary and
the pair as a line of the header. For the plain unified reader the pair is the boundary, and the
lines before it are text. In a diff of such sections both come to the same hunks and counts
(`Dialect.parse_shared`).
-/

namespace DiffSections

set_option autoImplicit false

open Bytes

/-! ## Sections -/

/-- A `---`/`+++` pair and the complete hunks behind it. -/
structure PairedHunks where
  origLine : Bytes
  newLine : Bytes
  orig : Bytes
  new : Bytes
  isOrig : after? Dialect.origHead (Line.content origLine) = some orig
  isNew : after? Dialect.newHead (Line.content newLine) = some new
  blocks : List HunkLines

/-- A git section whose lines are a boundary, header lines and perhaps a pair with hunks. -/
structure SharedSection where
  boundary : Bytes
  opening : Opening
  opens : Dialect.git.open? [boundary] = .ok (some opening)
  headerLines : List Bytes
  headers : List Header
  reads : ReadAs headerLines headers
  /-- What the boundary and the headers say about the file. -/
  facts : FileFacts
  adds : Header.addAll headers opening.facts = .ok facts
  change : Option PairedHunks

/-- A record with these facts, hunks and lines, and the counts of its hunks. -/
def FileRecord.holding (facts : FileFacts) (preamble : Bytes) (hunks : List Hunk)
    (lines : List Bytes) : FileRecord where
  toFileFacts := facts
  hunks := hunks
  insertions := (hunks.map (·.insertions)).sum
  deletions := (hunks.map (·.deletions)).sum
  preamble := preamble
  body := lines.flatten

theorem Draft.close_holding (facts : FileFacts) (preamble : Bytes) (hunks : List Hunk)
    (lines : List Bytes) :
    (holding facts preamble hunks.reverse lines.reverse).close =
      .holding facts preamble hunks lines := by
  simp [holding, close, FileRecord.holding, text]

theorem Draft.beforeHunks_eq_holding (facts : FileFacts) (lines : List Bytes) :
    beforeHunks facts lines = holding facts [] [] lines.reverse := rfl

theorem Reader.startDraft_holding (facts : FileFacts) (pairSeen : Bool)
    (pending lines : List Bytes) :
    startDraft ⟨facts, pairSeen⟩ pending lines =
      .holding facts pending.reverse.flatten [] lines.reverse :=
  startDraft_eq _ _ _

/-- Two records of the same hunks. -/
def FileRecord.SameChanges (record other : FileRecord) : Prop :=
  other.hunks = record.hunks ∧ other.insertions = record.insertions ∧
    other.deletions = record.deletions

theorem FileRecord.sameChanges_holding (facts facts' : FileFacts) (preamble preamble' : Bytes)
    (hunks : List Hunk) (lines lines' : List Bytes) :
    (holding facts preamble hunks lines).SameChanges (holding facts' preamble' hunks lines') :=
  ⟨rfl, rfl, rfl⟩

namespace PairedHunks

variable (change : PairedHunks)

def pairLines : List Bytes := [change.origLine, change.newLine]

def lines : List Bytes := change.pairLines ++ change.blocks.flatMap HunkLines.lines

def hunks : List Hunk := change.blocks.map HunkLines.hunk

/-- What the pair says where it is the boundary. -/
def facts : FileFacts :=
  Dialect.unified.addPair change.orig change.new
    (Dialect.factsOfPaths (Text.lossy (Dialect.revisionName change.orig))
      (Text.lossy (Dialect.revisionName change.new)))

/-- The unified section, behind these lines. -/
def record (before : List Bytes) : FileRecord :=
  .holding change.facts before.flatten change.hunks change.lines

end PairedHunks

namespace SharedSection

variable (part : SharedSection)

/-- The lines before the pair. -/
def leadLines : List Bytes := part.boundary :: part.headerLines

def lines : List Bytes := part.leadLines ++ (part.change.map PairedHunks.lines).getD []

def hunks : List Hunk := (part.change.map PairedHunks.hunks).getD []

/-- All that the git section says about its file. -/
def allFacts : FileFacts :=
  match part.change with
  | none => part.facts
  | some change => Dialect.git.addPair change.orig change.new part.facts

def gitRecord : FileRecord := .holding part.allFacts [] part.hunks part.lines

end SharedSection

/-! ## The git reader -/

namespace SharedSection

variable (part : SharedSection)

/-- A git boundary is one line, whatever comes after it. -/
theorem pairSeen_opening : part.opening.pairSeen = false := by
  have opens := part.opens
  simp only [Dialect.open?] at opens
  split at opens
  · cases opens
  · split at opens
    · rw [← Option.some.inj (Except.ok.inj opens)]
    · cases opens

/-- Behind the boundary, the header lines are taken, then the pair and its hunks. -/
theorem takes_lines : ∃ place, (∀ left last, place ≠ Place.hunk left last) ∧
    Takes .git (.reading (.beforeHunks part.opening.facts [part.boundary]) (.header false))
      (part.headerLines ++ (part.change.map PairedHunks.lines).getD [])
      (.reading (.holding part.allFacts [] part.hunks.reverse part.lines.reverse) place) := by
  have headers := Draft.takes_headerLines part.reads part.adds [part.boundary]
  rw [allFacts, hunks, lines]
  cases part.change with
  | none =>
      refine ⟨.header false, by simp, ?_⟩
      rw [Draft.beforeHunks_eq_holding part.facts] at headers
      simpa [leadLines] using headers
  | some change =>
      have pair := Draft.takes_pairLines change.isOrig change.isNew part.facts
        ([part.boundary] ++ part.headerLines)
      rw [Draft.beforeHunks_eq_holding (Dialect.git.addPair _ _ _)] at pair
      obtain ⟨place, ready, blocks⟩ := Draft.takes_hunkBlocks .git
        (Dialect.git.addPair change.orig change.new part.facts) [] change.blocks (.inl rfl) []
        ([part.boundary] ++ part.headerLines ++ [change.origLine, change.newLine]).reverse
      refine ⟨place, ready.ne_hunk, ?_⟩
      have taken := headers.append (pair.append blocks)
      simpa [PairedHunks.lines, PairedHunks.pairLines, PairedHunks.hunks, leadLines] using taken

/-- **The git reader reads the section**, all its lines. -/
theorem readsSection : Dialect.git.ReadsSection part.lines part.gitRecord := by
  have noPair := part.pairSeen_opening
  have counted : [part.boundary].length = part.opening.lineCount := by
    rw [Opening.lineCount, noPair]
    rfl
  have opens : ∀ rest, Dialect.git.open? ([part.boundary] ++ rest) = .ok (some part.opening) :=
    fun _ => part.opens
  obtain ⟨place, notHunk, takes⟩ := part.takes_lines
  rw [← noPair] at takes
  have reads := Dialect.readsSection_of_takes counted opens takes notHunk
  rwa [Draft.close_holding, List.singleton_append, ← List.cons_append] at reads

end SharedSection

/-! ## The unified reader -/

namespace Dialect

/-- A line that does not start like the first one of a pair starts no unified section. -/
theorem startsSection_unified {line rest : Bytes} {b : UInt8}
    (content : Line.content line = b :: rest) (notMinus : b ≠ minus) (lines : List Bytes) :
    unified.startsSection (line :: lines) = false := by
  by_contra starts
  rw [Bool.not_eq_false] at starts
  cases lines with
  | nil => cases starts
  | cons next later =>
      simp only [startsSection, Bool.and_eq_true] at starts
      obtain ⟨tail, orig⟩ := startsWith_iff.1 starts.1
      rw [content] at orig
      exact notMinus (List.cons.inj orig).1

theorem quiet_of_forall {dialect : Dialect} {lines : List Bytes}
    (plain : ∀ line ∈ lines, ∀ later, dialect.startsSection (line :: later) = false)
    (ahead : List Bytes) : dialect.Quiet lines ahead := by
  induction lines with
  | nil => trivial
  | cons line lines ih =>
      constructor
      · exact plain line (by simp) _
      · exact ih fun other member => plain other (by simp [member])

end Dialect

namespace SharedSection

variable (part : SharedSection)

/-- The boundary starts with a letter that no other line of these sections is told by. -/
theorem exists_boundary : ∃ rest, Line.content part.boundary = 100 :: rest := by
  have opens := part.opens
  simp only [Dialect.open?] at opens
  split at opens
  · cases opens
  · rename_i rest after
    exact ⟨_, after?_eq_some_iff.1 after⟩

theorem exists_leadLine {line : Bytes} (member : line ∈ part.leadLines) :
    ∃ b rest, Line.content line = b :: rest ∧ b ≠ minus := by
  rcases List.mem_cons.1 member with rfl | isHeader
  · obtain ⟨rest, content⟩ := part.exists_boundary
    exact ⟨100, rest, content, by decide⟩
  · obtain ⟨header, reads⟩ := part.reads.exists_header isHeader
    obtain ⟨kind, value, content, -⟩ := Header.eq_append_of_read reads
    rw [content]
    cases kind <;> exact ⟨_, _, rfl, by decide⟩

/-- For the unified reader the lines before the pair are text. -/
theorem quiet_leadLines (ahead : List Bytes) : Dialect.unified.Quiet part.leadLines ahead := by
  apply Dialect.quiet_of_forall
  intro line member later
  obtain ⟨b, rest, content, notMinus⟩ := part.exists_leadLine member
  exact Dialect.startsSection_unified content notMinus later

/-- The unified reader hands the boundary of the next section back. -/
theorem handsBack {cuts : CutRule} {place : Place} (ready : place.BeforeHunk) (draft : Draft)
    (lines : List Bytes) :
    SectionMove .unified cuts draft part.boundary lines place (.handBack draft) := by
  obtain ⟨rest, content⟩ := part.exists_boundary
  have notHunk : Hunk.announcedBy (Line.content part.boundary) = false := by
    rw [content]
    exact Hunk.announcedBy_cons (by decide) rest
  rcases ready with rfl | ⟨last, rfl⟩
  · refine .text (Dialect.startsSection_unified content (by decide) lines) ?_ nofun ?_ ?_ notHunk
    · rw [content]
      exact Dialect.unified.binaryNotice?_cons (by decide) (by decide) rest
    · rw [content]
      rfl
    · rw [content]
      rfl
  · refine .afterHunks (.inr ?_) notHunk
    rw [content]
    exact fun marks => absurd (Option.some.inj marks) (by decide)

end SharedSection

/-- **The unified reader reads the pair and its hunks**, behind whatever text is pending. -/
theorem PairedHunks.reaches (change : PairedHunks) (closed : List FileRecord)
    (previous : Option Draft) (pending : List Bytes) (passed : Nat) (rest : List Bytes) :
    ∃ draft place passed', draft.close = change.record pending.reverse ∧ place.BeforeHunk ∧
      Reader.Reaches .unified .never
        ⟨closed, .seeking previous pending, passed, change.lines ++ rest⟩
        ⟨(previous.map Draft.close).toList ++ closed, .reading draft place, passed', rest⟩ := by
  have opens : Dialect.unified.open? (change.pairLines ++
      (change.blocks.flatMap HunkLines.lines ++ rest)) = .ok (some ⟨change.facts, true⟩) := by
    simp only [PairedHunks.pairLines, List.cons_append, Dialect.open?, change.isOrig, change.isNew,
      PairedHunks.facts, Dialect.addPair]
  have counted : change.pairLines.length = (Opening.mk change.facts true).lineCount := rfl
  have started := Reader.Step.start_append .never closed previous pending passed counted opens
  rw [Reader.startDraft_holding] at started
  obtain ⟨place, ready, blocks⟩ := Draft.takes_hunkBlocks .unified change.facts
    pending.reverse.flatten change.blocks (.inl rfl) [] change.pairLines.reverse
  rw [List.append_nil, ← List.reverse_append] at blocks
  have taken := blocks ((previous.map Draft.close).toList ++ closed)
    (passed + change.pairLines.length) rest
  refine ⟨.holding change.facts pending.reverse.flatten change.hunks.reverse change.lines.reverse,
    place, passed + change.pairLines.length + (change.blocks.flatMap HunkLines.lines).length,
    Draft.close_holding _ _ _ _, ready, ?_⟩
  rw [PairedHunks.lines, List.append_assoc]
  exact .head started taken

/-! ## Whole diffs -/

theorem Reader.close_seeking (dialect : Dialect) (closed : List FileRecord) (draft : Draft)
    (pending : List Bytes) (passed : Nat) :
    Reader.close dialect ⟨closed, .seeking (some draft) pending, passed, []⟩ =
      .ok (closed.reverse ++ [draft.close.followed pending.reverse.flatten]) := by
  rw [← Draft.close_append, ← List.reverse_cons]
  rfl

theorem FileRecord.followed_nil (record : FileRecord) : record.followed [] = record := by
  rw [followed, List.append_nil]

namespace SharedSection

/-- The unified sections in these git sections, the first one behind these lines. -/
def unifiedRecords (pending : List Bytes) : List SharedSection → List FileRecord
  | [] => []
  | part :: parts =>
      match part.change with
      | none => unifiedRecords (pending ++ part.leadLines) parts
      | some change => change.record (pending ++ part.leadLines) :: unifiedRecords [] parts

/-- The lines behind the last unified section. -/
def unifiedTail (pending : List Bytes) : List SharedSection → List Bytes
  | [] => pending
  | part :: parts =>
      match part.change with
      | none => unifiedTail (pending ++ part.leadLines) parts
      | some _ => unifiedTail [] parts

theorem lines_of_none {part : SharedSection} (unpaired : part.change = none) :
    part.lines = part.leadLines := by
  rw [lines, unpaired, Option.map_none, Option.getD_none, List.append_nil]

theorem lines_of_some {part : SharedSection} {change : PairedHunks}
    (paired : part.change = some change) : part.lines = part.leadLines ++ change.lines := by
  rw [lines, paired, Option.map_some, Option.getD_some]

/-- **The unified reader reads the pairs with their hunks**; what is not theirs is text before the
next one, or behind the last. -/
theorem reaches_unified (parts : List SharedSection) (closed : List FileRecord)
    (previous : Option Draft) (pending : List Bytes) (passed : Nat)
    (found : previous ≠ none ∨ unifiedRecords pending.reverse parts ≠ []) :
    ∃ final, Reader.Reaches .unified .never
        ⟨closed, .seeking previous pending, passed, parts.flatMap lines⟩ final ∧
      final.ahead = [] ∧ final.close .unified =
        .ok (closed.reverse ++
          ((previous.map Draft.close).toList ++ unifiedRecords pending.reverse parts).modifyLast
            (·.followed (unifiedTail pending.reverse parts).flatten)) := by
  induction parts generalizing closed previous pending passed with
  | nil =>
      refine ⟨_, .refl, rfl, ?_⟩
      cases previous with
      | none => exact (found.elim (· rfl) (· rfl)).elim
      | some draft =>
          rw [List.flatMap_nil, Reader.close_seeking]
          show _ = Except.ok (closed.reverse ++ List.modifyLast _ ([] ++ [draft.close]))
          rw [List.modifyLast_concat]
          rfl
  | cons part parts ih =>
      cases changed : part.change with
      | none =>
          have passes := (part.quiet_leadLines (parts.flatMap lines)).reaches .never closed previous
            pending passed
          rw [unifiedRecords, changed] at found
          rw [unifiedRecords, unifiedTail, changed]
          dsimp only at found ⊢
          have gathered : pending.reverse ++ part.leadLines =
              (part.leadLines.reverse ++ pending).reverse := by simp
          rw [gathered] at found ⊢
          obtain ⟨final, reaches, nothing, closes⟩ := ih closed previous
            (part.leadLines.reverse ++ pending) (passed + part.leadLines.length) found
          rw [List.flatMap_cons, lines_of_none changed]
          exact ⟨final, passes.trans reaches, nothing, closes⟩
      | some change =>
          have passes := (part.quiet_leadLines (change.lines ++ parts.flatMap lines)).reaches .never
            closed previous pending passed
          obtain ⟨draft, place, passed', record, ready, reads⟩ := change.reaches closed previous
            (part.leadLines.reverse ++ pending) (passed + part.leadLines.length)
            (parts.flatMap lines)
          have reached := passes.trans reads
          have gathered : (part.leadLines.reverse ++ pending).reverse =
              pending.reverse ++ part.leadLines := by simp
          have reverse_closed : ((previous.map Draft.close).toList ++ closed).reverse =
              closed.reverse ++ (previous.map Draft.close).toList := by
            cases previous <;> simp
          rw [gathered] at record
          rw [unifiedRecords, unifiedTail, changed]
          dsimp only
          rw [List.flatMap_cons, lines_of_some changed, List.append_assoc]
          -- The last section is closed at the end of the input, the others at the next boundary.
          cases parts with
          | nil =>
              refine ⟨_, reached, rfl, ?_⟩
              rw [List.flatMap_nil, Reader.close_reading ready.ne_hunk, record, unifiedRecords,
                unifiedTail, List.modifyLast_concat, List.flatten_nil, FileRecord.followed_nil,
                List.reverse_cons, reverse_closed, List.append_assoc]
          | cons next parts =>
              obtain ⟨final, reaches, nothing, closes⟩ := ih
                ((previous.map Draft.close).toList ++ closed) (some draft) [] passed' (.inl nofun)
              refine ⟨final, ?_, nothing, ?_⟩
              · have back : SectionMove .unified .never draft next.boundary
                    (next.headerLines ++ (next.change.map PairedHunks.lines).getD [] ++
                      parts.flatMap lines) place (.handBack draft) := next.handsBack ready draft _
                exact reached.trans (.head (.inside back) reaches)
              · rw [closes, reverse_closed, List.append_assoc, Option.map_some, record,
                  List.modifyLast_append_of_right_ne_nil _ _ _ (List.cons_ne_nil _ _)]
                rfl

theorem unifiedRecords_ne_nil {parts : List SharedSection} {part : SharedSection}
    (member : part ∈ parts) (paired : part.change ≠ none) (pending : List Bytes) :
    unifiedRecords pending parts ≠ [] := by
  induction parts generalizing pending with
  | nil => cases member
  | cons first parts ih =>
      rw [unifiedRecords]
      cases changed : first.change with
      | some change => exact List.cons_ne_nil _ _
      | none =>
          rcases List.mem_cons.1 member with rfl | later
          · exact absurd changed paired
          · exact ih later _

/-- The sections with a pair, and the unified sections, have the same hunks and counts. -/
theorem sameChanges_unifiedRecords (pending : List Bytes) (parts : List SharedSection) :
    List.Forall₂ FileRecord.SameChanges
      ((parts.filter (·.change.isSome)).map gitRecord) (unifiedRecords pending parts) := by
  induction parts generalizing pending with
  | nil => exact .nil
  | cons part parts ih =>
      rw [unifiedRecords]
      cases changed : part.change with
      | none =>
          rw [List.filter_cons_of_neg (by simp [changed])]
          exact ih _
      | some change =>
          have same : part.gitRecord.SameChanges (change.record (pending ++ part.leadLines)) := by
            have hunks : part.hunks = change.hunks := by
              rw [SharedSection.hunks, changed]
              rfl
            rw [gitRecord, PairedHunks.record, hunks]
            exact FileRecord.sameChanges_holding _ _ _ _ _ _ _
          rw [List.filter_cons_of_pos (by simp [changed]), List.map_cons]
          exact .cons same (ih [])

/-- A unified section is a pair with its hunks. -/
theorem map_body_unifiedRecords (pending : List Bytes) (parts : List SharedSection) :
    (unifiedRecords pending parts).map (·.body) =
      (parts.filterMap (·.change)).map (·.lines.flatten) := by
  induction parts generalizing pending with
  | nil => rfl
  | cons part parts ih =>
      rw [unifiedRecords]
      cases changed : part.change with
      | none =>
          rw [List.filterMap_cons_none changed]
          exact ih _
      | some change =>
          rw [List.filterMap_cons_some changed, List.map_cons, List.map_cons]
          exact congrArg _ (ih [])

/-- No line is lost: what belongs to no pair stands before one, or behind the last. -/
theorem flatMap_data_unifiedRecords (pending : List Bytes) (parts : List SharedSection) :
    (unifiedRecords pending parts).flatMap FileRecord.data ++
        (unifiedTail pending parts).flatten =
      (pending ++ parts.flatMap lines).flatten := by
  induction parts generalizing pending with
  | nil => simp [unifiedRecords, unifiedTail]
  | cons part parts ih =>
      rw [unifiedRecords, unifiedTail, List.flatMap_cons]
      cases changed : part.change with
      | none =>
          rw [lines_of_none changed, ← List.append_assoc]
          exact ih _
      | some change =>
          have later := ih []
          rw [List.nil_append] at later
          dsimp only
          rw [lines_of_some changed, List.flatMap_cons, List.append_assoc, later]
          simp [FileRecord.data, PairedHunks.record, FileRecord.holding]

end SharedSection

/-- Text at the end of the last record leaves the changes what they are. -/
theorem FileRecord.sameChanges_modifyLast {records others : List FileRecord}
    (same : List.Forall₂ SameChanges records others) (text : Bytes) :
    List.Forall₂ SameChanges records (others.modifyLast (·.followed text)) := by
  induction same with
  | nil => exact .nil
  | @cons record other records others first rest ih =>
      cases rest with
      | nil =>
          show List.Forall₂ SameChanges [record] (List.modifyLast _ ([] ++ [other]))
          rw [List.modifyLast_concat]
          exact .cons first .nil
      | cons =>
          show List.Forall₂ SameChanges _ (List.modifyLast _ ([other] ++ _))
          rw [List.modifyLast_append_of_right_ne_nil _ _ _ (List.cons_ne_nil _ _)]
          exact .cons first ih

/-- **Both dialects read the same changes in git sections.** Let the lines of a diff be those of git
sections which consist of a boundary, accepted header lines and perhaps a pair with complete hunks,
and let there be some pair. Both readers succeed. The git reader finds one record for each section.
The unified reader finds one for each section that has a pair, in the same order and with the same
hunks and counts. Each is made of the pair and its hunks. All other lines are text before one of
them, or behind the last. -/
theorem Dialect.parse_shared {data : Bytes} {parts : List SharedSection}
    (lined : Line.split data = parts.flatMap SharedSection.lines)
    (paired : ∃ part ∈ parts, part.change ≠ none) :
    ∃ (found : List FileRecord) (trailing : Bytes),
      git.parse data = .ok (parts.map SharedSection.gitRecord) ∧
      unified.parse data = .ok (found.modifyLast (·.followed trailing)) ∧
      List.Forall₂ FileRecord.SameChanges
        ((parts.filter (·.change.isSome)).map SharedSection.gitRecord)
        (found.modifyLast (·.followed trailing)) ∧
      found.map (·.body) = (parts.filterMap (·.change)).map (·.lines.flatten) ∧
      found.flatMap FileRecord.data ++ trailing = data := by
  obtain ⟨part, member, some_pair⟩ := paired
  have pairs := SharedSection.unifiedRecords_ne_nil member some_pair []
  refine ⟨SharedSection.unifiedRecords [] parts, (SharedSection.unifiedTail [] parts).flatten,
    ?_, ?_, ?_, SharedSection.map_body_unifiedRecords [] parts, ?_⟩
  · obtain ⟨final, reaches, nothing, closes⟩ :=
      reaches_of_readsSection (fun (part : SharedSection) _ => part.readsSection) [] none 0
    rw [parse_eq_ok_iff_plain, parseWith_eq_ok_iff, lined]
    exact ⟨final, reaches, nothing, closes⟩
  · obtain ⟨final, reaches, nothing, closes⟩ :=
      SharedSection.reaches_unified parts [] none [] 0 (.inr pairs)
    rw [parse_eq_ok_iff_plain, parseWith_eq_ok_iff, lined]
    exact ⟨final, reaches, nothing, closes⟩
  · exact FileRecord.sameChanges_modifyLast (SharedSection.sameChanges_unifiedRecords [] parts) _
  · rw [SharedSection.flatMap_data_unifiedRecords, List.nil_append, ← lined, Line.flatten_split]

/-- A rename, a section with a hunk whose last line has no line end, and a change of mode. -/
theorem Dialect.parse_shared_three_sections :
    let data := ofAscii <|
      "diff --git a/p b/q\nrename from p\nrename to q\n" ++
      "diff --git a/x b/x\nindex 12ab..34cd 100644\n--- a/x\n+++ b/x\n" ++
      "@@ -1 +1 @@\n-t\n+u\n\\ none\n" ++
      "diff --git a/m b/m\nold mode 100644\nnew mode 100755\n"
    ∃ parts : List SharedSection,
      Line.split data = parts.flatMap SharedSection.lines ∧ parts.length = 3 ∧
      (parts.filter (·.change.isSome)).length = 1 ∧
      ∃ (found : List FileRecord) (trailing : Bytes),
        git.parse data = .ok (parts.map SharedSection.gitRecord) ∧
        unified.parse data = .ok (found.modifyLast (·.followed trailing)) ∧
        List.Forall₂ FileRecord.SameChanges
          ((parts.filter (·.change.isSome)).map SharedSection.gitRecord)
          (found.modifyLast (·.followed trailing)) ∧
        found.map (·.body) = (parts.filterMap (·.change)).map (·.lines.flatten) ∧
        found.flatMap FileRecord.data ++ trailing = data := by
  intro data
  let block : HunkLines :=
    { header := ofAscii "@@ -1 +1 @@\n"
      body := [ofAscii "-t\n", ofAscii "+u\n", ofAscii "\\ none\n"]
      opened := { origStart := 1, origLen := 1, newStart := 1, newLen := 1 }
      opens := by decide +kernel
      closed := by decide +kernel }
  let renamed : SharedSection :=
    { boundary := ofAscii "diff --git a/p b/q\n"
      opening := ⟨factsOfPaths "p" "q", false⟩
      opens := by decide +kernel
      headerLines := [ofAscii "rename from p\n", ofAscii "rename to q\n"]
      headers := [.renameFrom "p", .renameTo "q"]
      reads := .cons (by decide +kernel) (.cons (by decide +kernel) .nil)
      facts := { factsOfPaths "p" "q" with renameFrom := true, renameTo := true }
      adds := by decide +kernel
      change := none }
  let changed : SharedSection :=
    { boundary := ofAscii "diff --git a/x b/x\n"
      opening := ⟨factsOfPaths "x" "x", false⟩
      opens := by decide +kernel
      headerLines := [ofAscii "index 12ab..34cd 100644\n"]
      headers := [.index "12ab" "34cd" (some "100644")]
      reads := .cons (by decide +kernel) .nil
      facts := Header.effects [.index "12ab" "34cd" (some "100644")] (factsOfPaths "x" "x")
      adds := by decide +kernel
      change := some
        { origLine := ofAscii "--- a/x\n"
          newLine := ofAscii "+++ b/x\n"
          orig := ofAscii "a/x"
          new := ofAscii "b/x"
          isOrig := by decide +kernel
          isNew := by decide +kernel
          blocks := [block] } }
  let moded : SharedSection :=
    { boundary := ofAscii "diff --git a/m b/m\n"
      opening := ⟨factsOfPaths "m" "m", false⟩
      opens := by decide +kernel
      headerLines := [ofAscii "old mode 100644\n", ofAscii "new mode 100755\n"]
      headers := [.oldMode "100644", .newMode "100755"]
      reads := .cons (by decide +kernel) (.cons (by decide +kernel) .nil)
      facts := Header.effects [.oldMode "100644", .newMode "100755"] (factsOfPaths "m" "m")
      adds := by decide +kernel
      change := none }
  have lined : Line.split data = [renamed, changed, moded].flatMap SharedSection.lines := by
    decide +kernel
  exact ⟨[renamed, changed, moded], lined, rfl, rfl,
    parse_shared lined ⟨changed, by simp, nofun⟩⟩

end DiffSections
