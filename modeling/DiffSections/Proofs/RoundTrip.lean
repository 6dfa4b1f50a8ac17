import DiffSections.Proofs.Header.Lines
import DiffSections.Proofs.Writer.Hunk

/-!
# DiffSections.Proofs.RoundTrip -- written diffs are read back

A written section, plain unified or git, is read as the record it stands for. So a diff that is
written section by section is read into the records of its sections, in order
(`Dialect.parse_written`). Body lines may look like anything: boundaries, hunk headers, summaries.
-/

namespace DiffSections

set_option autoImplicit false

open Bytes

theorem Draft.close_withHunks_beforeHunks (facts : FileFacts) (lines : List Bytes)
    (hunks : List HunkText) :
    ((Draft.beforeHunks facts lines).withHunks hunks).close =
      recordOf facts hunks (lines ++ hunks.flatMap HunkText.lines) := by
  simp [Draft.close, Draft.withHunks, Draft.beforeHunks, Draft.text, recordOf]

/-! ## Plain unified sections -/

namespace UnifiedSection

variable (written : UnifiedSection)

theorem content_origLine :
    Line.content written.origLine = Dialect.origHead ++ ofString written.origPath :=
  written.oneLine_orig.content

theorem content_newLine :
    Line.content written.newLine = Dialect.newHead ++ ofString written.newPath :=
  written.oneLine_new.content

/-- What a line of the pair says about a file that has its path. -/
theorem addRevision_ofString {path : String} {side : Side} {facts : FileFacts}
    (writable : WritablePath path) (same : facts.setPath path side = facts) :
    Dialect.unified.addRevision side (ofString path) facts = facts := by
  have named : Dialect.unified.pairPath? side (ofString path) = some path := by
    rw [Dialect.pairPath?, Text.lossy_ofString]
  exact Dialect.addRevision_of_setPath writable.untabbed named same

/-- The pair opens a section with the two paths. -/
theorem open?_lines (rest : List Bytes) :
    Dialect.unified.open? ([written.origLine, written.newLine] ++ rest) =
      .ok (some ⟨Dialect.factsOfPaths written.origPath written.newPath, true⟩) := by
  have origName := Dialect.revisionName_of_untabbed written.origPath_writable.untabbed
  have newName := Dialect.revisionName_of_untabbed written.newPath_writable.untabbed
  have origSame : Dialect.unified.addRevision .orig (ofString written.origPath)
      (Dialect.factsOfPaths written.origPath written.newPath) = _ :=
    addRevision_ofString written.origPath_writable rfl
  have newSame : Dialect.unified.addRevision .new (ofString written.newPath)
      (Dialect.factsOfPaths written.origPath written.newPath) = _ :=
    addRevision_ofString written.newPath_writable rfl
  simp only [Dialect.open?, List.cons_append, content_origLine, content_newLine, after?_append,
    origName, newName, Text.lossy_ofString, origSame, newSame]

/-- **A written unified section is read as its record.** -/
theorem readsSection : Dialect.unified.ReadsSection written.lines written.record := by
  obtain ⟨place, ready, takes⟩ := Draft.takes_hunks .unified written.hunks
    (.beforeHunks (Dialect.factsOfPaths written.origPath written.newPath)
      [written.origLine, written.newLine]) (.inl rfl)
  have reads := Dialect.readsSection_of_takes rfl written.open?_lines takes ready.ne_hunk
  rwa [Draft.close_withHunks_beforeHunks] at reads

end UnifiedSection

/-! ## Git sections -/

namespace GitSection

/-- Written header lines are read as their headers. -/
theorem readAs_lines {headers : List Header}
    (valid : ∀ header ∈ headers, header.Valid ∧ header.relocates = false) :
    ReadAs (headers.map Header.line) headers := by
  apply List.forall₂_map_left_iff.2
  apply List.forall₂_same.2
  intro header member
  obtain ⟨isValid, stays⟩ := valid header member
  rw [header.content_line isValid stays]
  exact Header.read_text isValid

variable (written : GitSection)

theorem content_origLine :
    Line.content written.origLine = Dialect.origHead ++ written.sideText .orig :=
  written.oneLine_orig.content

theorem content_newLine :
    Line.content written.newLine = Dialect.newHead ++ written.sideText .new :=
  written.oneLine_new.content

/-- What a line of the pair says about a file that has its path. -/
theorem addRevision_sideText {facts : FileFacts} {side : Side}
    (same : facts.setPath written.path side = facts) :
    Dialect.git.addRevision side (written.sideText side) facts = facts := by
  have untabbed : tab ∉ written.sideText side := by
    intro member
    rcases List.mem_append.1 member with inHead | inPath
    · cases side <;> revert inHead <;> decide
    · exact written.path_writable.untabbed inPath
  have named : Dialect.git.pairPath? side (written.sideText side) = some written.path := by
    obtain ⟨b, rest, sided, notSlash, notQuote⟩ : ∃ b rest,
        written.sideText side = b :: rest ∧ b ≠ slash ∧ b ≠ quote := by
      cases side <;> exact ⟨_, _, rfl, by decide, by decide⟩
    have notNull : written.sideText side ≠ Dialect.devNull := by
      rw [sided]
      exact fun null => notSlash (List.cons.inj null).1
    have unquoted : (written.sideText side).head? ≠ some quote := by
      rw [sided]
      exact fun first => notQuote (Option.some.inj first)
    rw [Dialect.pairPath?, if_neg notNull, Quoted.pathOf?, if_neg unquoted, Option.map_some,
      Boundary.pathText, sideText, Boundary.stripSide_append, Text.lossy_ofString]
  exact Dialect.addRevision_of_setPath untabbed named same

/-- The pair says nothing new. -/
theorem addPair_sideText {facts : FileFacts}
    (paths : facts.origPath = written.path ∧ facts.newPath = written.path) :
    Dialect.git.addPair (written.sideText .orig) (written.sideText .new) facts = facts := by
  have origSame : facts.setPath written.path .orig = facts := by
    rw [← paths.1]
    rfl
  have newSame : facts.setPath written.path .new = facts := by
    rw [← paths.2]
    rfl
  rw [Dialect.addPair, written.addRevision_sideText origSame,
    written.addRevision_sideText newSame]

/-- The pair is taken before the first hunk. -/
theorem takes_pair {facts : FileFacts} (lines : List Bytes)
    (paths : facts.origPath = written.path ∧ facts.newPath = written.path) :
    Takes .git (.reading (.beforeHunks facts lines) (.header false))
      [written.origLine, written.newLine]
      (.reading (.beforeHunks facts (lines ++ [written.origLine, written.newLine]))
        (.header true)) := by
  have isOrig : after? Dialect.origHead (Line.content written.origLine) =
      some (written.sideText .orig) := by
    rw [content_origLine, after?_append]
  have isNew : after? Dialect.newHead (Line.content written.newLine) =
      some (written.sideText .new) := by
    rw [content_newLine, after?_append]
  have taken := Draft.takes_pairLines isOrig isNew facts lines
  rwa [written.addPair_sideText paths] at taken

/-- The boundary opens a section with its path on both sides. -/
theorem open?_lines (rest : List Bytes) :
    Dialect.git.open? ([written.boundaryLine] ++ rest) =
      .ok (some ⟨Dialect.factsOfPaths written.path written.path, false⟩) := by
  have content : Line.content written.boundaryLine =
      Dialect.boundaryHead ++ Boundary.sameText (ofString written.path) :=
    written.oneLine_boundary.content
  simp only [Dialect.open?, List.singleton_append, content, after?_append,
    Boundary.paths?_sameText written.path_unquoted, Text.lossy_ofString]

/-- After the boundary, the headers are taken, then the pair, then the hunks. -/
theorem takes_lines :
    ∃ place, (∀ left last, place ≠ Place.hunk left last) ∧
      Takes .git
        (.reading (.beforeHunks (Dialect.factsOfPaths written.path written.path)
          [written.boundaryLine]) (.header false))
        (written.headers.map Header.line ++
          (written.pairLines ++ written.hunks.flatMap HunkText.lines))
        (.reading
          ((Draft.beforeHunks written.facts ([written.boundaryLine] ++
            written.headers.map Header.line ++ written.pairLines)).withHunks written.hunks)
          place) := by
  have headers := Draft.takes_headerLines (readAs_lines written.headers_valid)
    written.headers_accepted [written.boundaryLine]
  have paths := Header.paths_addAll (fun header member => (written.headers_valid header member).2)
    written.headers_accepted
  have pair := written.takes_pair ([written.boundaryLine] ++ written.headers.map Header.line) paths
  by_cases none : written.hunks = []
  · refine ⟨.header false, by simp, ?_⟩
    simpa [pairLines, none, Draft.withHunks] using headers
  · obtain ⟨place, ready, hunks⟩ := Draft.takes_hunks .git written.hunks
      (.beforeHunks written.facts ([written.boundaryLine] ++ written.headers.map Header.line ++
        [written.origLine, written.newLine])) (.inl rfl)
    rw [pairLines, if_neg none]
    exact ⟨place, ready.ne_hunk, headers.append (pair.append hunks)⟩

/-- **A written git section is read as its record.** -/
theorem readsSection : Dialect.git.ReadsSection written.lines written.record := by
  obtain ⟨place, notHunk, takes⟩ := written.takes_lines
  have reads := Dialect.readsSection_of_takes rfl written.open?_lines takes notHunk
  rw [Draft.close_withHunks_beforeHunks] at reads
  simpa [lines, record] using reads

end GitSection

/-! ## Diffs -/

/-- **Written diffs are read back.** A diff that is written section by section is read into the
records of its sections: one for each, in order, with the paths and facts that were written, the
hunks with their ranges, headings, counts and marks, and no text that is not theirs. -/
theorem Dialect.parse_written :
    (∀ written : List UnifiedSection,
      Dialect.unified.parse (written.flatMap UnifiedSection.lines).flatten =
        .ok (written.map UnifiedSection.record)) ∧
    (∀ written : List GitSection,
      Dialect.git.parse (written.flatMap GitSection.lines).flatten =
        .ok (written.map GitSection.record)) :=
  ⟨fun _ => Dialect.parse_flatten_of_readsSection (fun written _ => written.readsSection)
      fun written _ => written.ended_lines,
    fun _ => Dialect.parse_flatten_of_readsSection (fun written _ => written.readsSection)
      fun written _ => written.ended_lines⟩

/-- A plain section and a git one with headers, whose hunks have bodies that read like a pair and
last lines without a line end. -/
theorem Dialect.parse_written_lookalikes :
    ∃ (plain : UnifiedSection) (extended : GitSection),
      plain.lines.flatten =
        ofAscii "--- x\n+++ y\n@@ -1,1 +1,1 @@ f\n--- p\n+++ q\n\\ none\n" ∧
      Dialect.unified.parse (plain.lines.flatten ++ plain.lines.flatten) =
        .ok [plain.record, plain.record] ∧
      plain.record.hunks.map Hunk.newUnended = [true] ∧
      extended.lines.flatten = ofAscii
        ("diff --git a/z b/z\nold mode 100644\nnew mode 100755\nsimilarity index 90%\n" ++
          "--- a/z\n+++ b/z\n@@ -1,1 +1,1 @@ f\n--- p\n+++ q\n\\ none\n") ∧
      Dialect.git.parse extended.lines.flatten = .ok [extended.record] ∧
      extended.record.modes = some { old := some "100644", new := some "100755" } ∧
      extended.record.similarity = some 90 := by
  let removed : BodyText := ⟨.removed, ofAscii "-- p", none, by decide, by decide⟩
  let added : BodyText := ⟨.added, ofAscii "++ q", some (ofAscii " none"), by decide, by decide⟩
  let hunk : HunkText :=
    ⟨1, 1, some "f", [removed, added], by decide, by decide, by decide, by decide,
      by decide +kernel⟩
  let plain : UnifiedSection :=
    ⟨"x", "y", [hunk], ⟨by decide +kernel, by decide +kernel⟩,
      ⟨by decide +kernel, by decide +kernel⟩⟩
  let extended : GitSection :=
    { path := "z"
      headers := [.oldMode "100644", .newMode "100755", .similarityIndex 90]
      hunks := [hunk]
      facts :=
        { Dialect.factsOfPaths "z" "z" with
          modes := some { old := some "100644", new := some "100755" }, similarity := some 90 }
      path_writable := ⟨by decide +kernel, by decide +kernel⟩
      path_unquoted := by decide +kernel
      headers_valid := by
        rintro header (_ | ⟨_, _ | ⟨_, _ | ⟨_, ⟨⟩⟩⟩⟩)
        · exact ⟨⟨by decide +kernel, by decide +kernel, by decide +kernel⟩, rfl⟩
        · exact ⟨⟨by decide +kernel, by decide +kernel, by decide +kernel⟩, rfl⟩
        · exact ⟨(by decide : 90 ≤ 100), rfl⟩
      headers_accepted := by decide +kernel }
  obtain ⟨unified, git⟩ := parse_written
  refine ⟨plain, extended, by decide +kernel, ?_, by decide +kernel, by decide +kernel, ?_, rfl,
    rfl⟩
  · simpa using unified [plain, plain]
  · simpa using git [extended]

end DiffSections
