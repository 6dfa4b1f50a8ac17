import DiffSections.Proofs.Consistency
import DiffSections.Proofs.Reader.Paths
import DiffSections.Report

/-!
# DiffSections.Proofs.ReportLines -- which lines the reports for people have

The list of files has a line for each file that is shown and perhaps one that counts them, and the
statistics have a line for each and one with the totals (`filesLines`, `statsLines`). Paths are
printed as they were decoded, so a line feed in a path breaks its line: every one makes a line more
(`Shows.length`), and without any the lines are those (`Shows.exact_iff`). All other parts of a line
are digits, bars and fixed words, and modes, which are octal digits.
-/

namespace DiffSections

set_option autoImplicit false

open Bytes

namespace Report

/-! ## Reports made of lines -/

/-- A report is made of these lines, and only these paths in them can hold line feeds. -/
structure Shows (report : String) (lines paths : List String) : Prop where
  length : (Line.split (ofString report)).length = lines.length + (paths.map Text.lineFeeds).sum
  exact_iff : Line.split (ofString report) = lines.map ofString ↔
    ∀ path ∈ paths, '\n' ∉ path.toList

/-- A line as a report prints it. -/
def Printed (line : String) : Prop := ∃ text, line = text ++ "\n"

theorem Printed.append {line : String} (printed : Printed line) (first : String) :
    Printed (first ++ line) := by
  obtain ⟨text, rfl⟩ := printed
  exact ⟨first ++ text, (String.append_assoc ..).symm⟩

theorem ofString_lineFeed : ofString "\n" = [lf] := by
  decide +kernel

theorem getLast?_join {lines : List String} (printed : ∀ line ∈ lines, Printed line)
    (nonempty : lines ≠ []) : (ofString (String.join lines)).getLast? = some lf := by
  obtain ⟨earlier, last, rfl⟩ := lines.eq_nil_or_concat'.resolve_left nonempty
  obtain ⟨text, rfl⟩ := printed last (by simp)
  rw [String.join_append, String.join_cons, String.join_nil, String.append_empty,
    Text.ofString_append, Text.ofString_append, ofString_lineFeed, ← List.append_assoc,
    List.getLast?_concat]

/-- Every line feed ends a line. -/
theorem length_split_join {lines : List String} (printed : ∀ line ∈ lines, Printed line) :
    (Line.split (ofString (String.join lines))).length = (lines.map Text.lineFeeds).sum := by
  by_cases nonempty : lines = []
  · subst nonempty
    rfl
  · rw [Line.length_split_of_ended (getLast?_join printed nonempty), Text.count_lf_ofString,
      Text.lineFeeds_join]

theorem lineFeeds_pos {line : String} (printed : Printed line) : 1 ≤ Text.lineFeeds line := by
  obtain ⟨text, rfl⟩ := printed
  rw [Text.lineFeeds_append]
  exact Nat.le_add_left _ _

theorem length_le_lineFeeds {lines : List String} (printed : ∀ line ∈ lines, Printed line) :
    lines.length ≤ (lines.map Text.lineFeeds).sum := by
  induction lines with
  | nil => exact Nat.le_refl 0
  | cons line lines ih =>
      have first := lineFeeds_pos (printed line (by simp))
      have later := ih fun other member => printed other (by simp [member])
      rw [List.length_cons, List.map_cons, List.sum_cons]
      omega

/-- If there are no more line feeds than lines, then each line has one. -/
theorem lineFeeds_eq_one {lines : List String} (printed : ∀ line ∈ lines, Printed line)
    (count : (lines.map Text.lineFeeds).sum ≤ lines.length) :
    ∀ line ∈ lines, Text.lineFeeds line = 1 := by
  induction lines with
  | nil => nofun
  | cons line lines ih =>
      have printedLater : ∀ other ∈ lines, Printed other :=
        fun other member => printed other (by simp [member])
      have first := lineFeeds_pos (printed line (by simp))
      have later := length_le_lineFeeds printedLater
      rw [List.length_cons, List.map_cons, List.sum_cons] at count
      intro other member
      rcases List.mem_cons.1 member with rfl | there
      · omega
      · exact ih printedLater (by omega) other there

theorem ended_of_printed {line : String} (printed : Printed line)
    (one : Text.lineFeeds line = 1) : Line.Ended (ofString line) := by
  obtain ⟨text, rfl⟩ := printed
  rw [Text.ofString_append, ofString_lineFeed]
  apply Line.ended_append
  rw [← List.count_eq_zero, Text.count_lf_ofString]
  rw [Text.lineFeeds_append] at one
  exact Nat.add_right_cancel (m := 1) one

theorem shows_join {lines paths : List String} (printed : ∀ line ∈ lines, Printed line)
    (count : (lines.map Text.lineFeeds).sum = lines.length + (paths.map Text.lineFeeds).sum) :
    Shows (String.join lines) lines paths := by
  have total := (length_split_join printed).trans count
  have unbroken : (paths.map Text.lineFeeds).sum = 0 ↔ ∀ path ∈ paths, '\n' ∉ path.toList := by
    simp only [List.sum_eq_zero_iff_forall_eq_nat, List.forall_mem_map, Text.lineFeeds_eq_zero_iff]
  refine ⟨total, ?_⟩
  rw [← unbroken]
  constructor
  · intro same
    rw [same, List.length_map] at total
    omega
  · intro none
    have one := lineFeeds_eq_one printed (by omega)
    rw [Text.ofString_join, Line.split_flatten_of_ended]
    intro line member
    obtain ⟨text, isLine, rfl⟩ := List.mem_map.1 member
    exact ended_of_printed (printed text isLine) (one text isLine)

/-! ## The lines of the reports -/

/-- The paths that the line of a file shows. -/
def shownPaths (record : FileRecord) : List String :=
  if record.moved || record.copied then [record.origPath, record.newPath] else [record.shownPath]

/-- The lines of the list of files. -/
def filesLines (selection : Selection) : List String :=
  selection.records.map fileLine ++
    if selection.records.length = selection.total then [] else [shownLine selection]

/-- The line of a file in the statistics. -/
def statsLine (selection : Selection) (record : FileRecord) : String :=
  let rows := rows selection
  Histogram.line ((rows.map fun row => row.newPath.length).foldl max 0) (Histogram.widest rows)
    (FileRow.ofRecord record)

/-- The line of the totals. -/
def totalsLine (selection : Selection) : String :=
  " " ++ (Totals.ofRecords selection.records).shortstat ++ "\n"

/-- The lines of the statistics. -/
def statsLines (selection : Selection) : List String :=
  selection.records.map (statsLine selection) ++ [totalsLine selection]

theorem filesText_eq (selection : Selection) :
    filesText selection = String.join (filesLines selection) := by
  rw [filesText, filesLines, String.join_append]
  split
  · rename_i all
    simp [shownLine, all]
  · simp

theorem statsText_eq (selection : Selection) :
    statsText selection = String.join (statsLines selection) := by
  have lines : Histogram.lines (rows selection) = selection.records.map (statsLine selection) := by
    rw [Histogram.lines, rows, List.map_map]
    rfl
  rw [statsText, statsLines, lines, String.join_append, totalsLine]
  simp [String.append_assoc]

/-! ### What paths, contents and modes put on a line -/

theorem lineFeeds_describePath (record : FileRecord) :
    Text.lineFeeds (describePath record) = ((shownPaths record).map Text.lineFeeds).sum := by
  unfold describePath shownPaths
  split
  · cases record.similarity <;> simp [Text.lineFeeds]
  · simp

theorem lineFeeds_describeContent (record : FileRecord) :
    Text.lineFeeds (describeContent record) = 0 := by
  unfold describeContent
  repeat' split
  all_goals simp [Text.lineFeeds]

theorem lineFeeds_of_isMode {mode : String} (isMode : HeaderValue.IsMode mode) :
    Text.lineFeeds mode = 0 := by
  rw [← Text.count_lf_ofString, List.count_eq_zero]
  exact fun member => (HeaderValue.oneLine_mode isMode lf member).2 rfl

theorem lineFeeds_describeModes {record : FileRecord}
    (areModes : ∀ modes ∈ record.modes, ∀ mode, mode ∈ modes.old ∨ mode ∈ modes.new →
      HeaderValue.IsMode mode) : Text.lineFeeds (describeModes record) = 0 := by
  unfold describeModes
  split
  · rename_i old new known
    have oldMode := lineFeeds_of_isMode (areModes _ known old (.inl rfl))
    have newMode := lineFeeds_of_isMode (areModes _ known new (.inr rfl))
    split
    · rfl
    · simp only [Text.lineFeeds_append, oldMode, newMode]
      rfl
  · rfl

/-- The line of a file ends in a line feed, and holds those of its paths. -/
theorem lineFeeds_fileLine {record : FileRecord}
    (areModes : ∀ modes ∈ record.modes, ∀ mode, mode ∈ modes.old ∨ mode ∈ modes.new →
      HeaderValue.IsMode mode) :
    Text.lineFeeds (fileLine record) = 1 + ((shownPaths record).map Text.lineFeeds).sum := by
  have letter : Text.lineFeeds (changeLetter record.change) = 0 := by
    cases record.change <;> rfl
  have gap : Text.lineFeeds "  " = 0 := rfl
  have ending : Text.lineFeeds "\n" = 1 := rfl
  simp only [fileLine, Text.lineFeeds_append, letter, gap, ending, lineFeeds_describePath,
    lineFeeds_describeContent, lineFeeds_describeModes areModes]
  omega

theorem printed_fileLine (record : FileRecord) : Printed (fileLine record) := ⟨_, rfl⟩

theorem shownLine_of_ne {selection : Selection}
    (some_filtered : selection.records.length ≠ selection.total) :
    Printed (shownLine selection) ∧ Text.lineFeeds (shownLine selection) = 1 := by
  rw [shownLine, if_neg some_filtered]
  refine ⟨Printed.append ⟨" file(s) shown)", by decide⟩ _, ?_⟩
  simp [Text.lineFeeds]

/-! ### What a histogram puts on a line -/

theorem lineFeeds_repeated {c : Char} (plain : c ≠ '\n') (count : Nat) :
    Text.lineFeeds (Histogram.repeated c count) = 0 := by
  simp [Text.lineFeeds, Histogram.repeated, List.count_replicate, plain]

theorem lineFeeds_bar (widest : Nat) (row : FileRow) :
    Text.lineFeeds (Histogram.bar widest row) = 0 := by
  have gap : Text.lineFeeds " " = 0 := rfl
  unfold Histogram.bar
  dsimp only
  split
  · rfl
  · simp only [Text.lineFeeds_append, gap, lineFeeds_repeated (by decide : '+' ≠ '\n'),
      lineFeeds_repeated (by decide : '-' ≠ '\n')]

theorem lineFeeds_detail (widest : Nat) (row : FileRow) :
    Text.lineFeeds (Histogram.detail widest row) = 0 := by
  unfold Histogram.detail Histogram.padLeft
  split
  · rfl
  · simp only [Text.lineFeeds_append, lineFeeds_repeated (by decide : ' ' ≠ '\n'), lineFeeds_bar]
    simp [Text.lineFeeds]

/-- The line of a file ends in a line feed, and holds those of the new path. -/
theorem lineFeeds_statsLine (selection : Selection) (record : FileRecord) :
    Text.lineFeeds (statsLine selection record) =
      1 + ([record.newPath].map Text.lineFeeds).sum := by
  have gap : Text.lineFeeds " " = 0 := rfl
  have bar : Text.lineFeeds " | " = 0 := rfl
  have ending : Text.lineFeeds "\n" = 1 := rfl
  simp only [statsLine, Histogram.line, Histogram.padRight, Text.lineFeeds_append, gap, bar, ending,
    lineFeeds_repeated (by decide : ' ' ≠ '\n'), lineFeeds_detail, FileRow.ofRecord, List.map_cons,
    List.map_nil, List.sum_cons, List.sum_nil]
  omega

theorem printed_statsLine (selection : Selection) (record : FileRecord) :
    Printed (statsLine selection record) := ⟨_, rfl⟩

theorem lineFeeds_counted {noun : String} (plain : Text.lineFeeds noun = 0) (n : Nat) :
    Text.lineFeeds (Totals.counted n noun) = 0 := by
  have number : Text.lineFeeds (toString n) = 0 := by simp [Text.lineFeeds]
  have gap : Text.lineFeeds " " = 0 := rfl
  have ending : Text.lineFeeds (if n = 1 then "" else "s") = 0 := by split <;> rfl
  simp only [Totals.counted, Text.lineFeeds_append, number, gap, plain, ending]

theorem lineFeeds_shortstat (totals : Totals) : Text.lineFeeds totals.shortstat = 0 := by
  have files : Text.lineFeeds (Totals.counted totals.files "file") = 0 := lineFeeds_counted rfl _
  have gained : Text.lineFeeds (Totals.counted totals.insertions "insertion") = 0 :=
    lineFeeds_counted rfl _
  have lost : Text.lineFeeds (Totals.counted totals.deletions "deletion") = 0 :=
    lineFeeds_counted rfl _
  simp only [Totals.shortstat, Text.lineFeeds_append, files, gained, lost]
  rfl

theorem lineFeeds_totalsLine (selection : Selection) :
    Text.lineFeeds (totalsLine selection) = 1 := by
  simp only [totalsLine, Text.lineFeeds_append, lineFeeds_shortstat]
  rfl

/-! ## All records -/

/-- Lines that each hold the line feeds of some paths hold those of all. -/
theorem lineFeeds_map (records : List FileRecord) (line : FileRecord → String)
    (paths : FileRecord → List String)
    (each : ∀ record ∈ records,
      Text.lineFeeds (line record) = 1 + ((paths record).map Text.lineFeeds).sum) :
    ((records.map line).map Text.lineFeeds).sum =
      records.length + ((records.flatMap paths).map Text.lineFeeds).sum := by
  induction records with
  | nil => rfl
  | cons record records ih =>
      have first := each record (by simp)
      have later := ih fun other member => each other (by simp [member])
      simp only [List.map_cons, List.sum_cons, List.length_cons, List.flatMap_cons,
        List.map_append, List.sum_append_nat, first, later]
      omega

theorem shows_files {selection : Selection}
    (areModes : ∀ record ∈ selection.records, ∀ modes ∈ record.modes, ∀ mode,
      mode ∈ modes.old ∨ mode ∈ modes.new → HeaderValue.IsMode mode) :
    Shows (filesText selection) (filesLines selection)
      (selection.records.flatMap shownPaths) := by
  have records := lineFeeds_map selection.records fileLine shownPaths
    fun record member => lineFeeds_fileLine (areModes record member)
  rw [filesText_eq]
  refine shows_join ?_ ?_
  · intro line member
    rcases List.mem_append.1 member with ofRecord | counts
    · obtain ⟨record, -, rfl⟩ := List.mem_map.1 ofRecord
      exact printed_fileLine record
    · split at counts
      · cases counts
      · rename_i filtered
        rw [List.mem_singleton.1 counts]
        exact (shownLine_of_ne filtered).1
  · rw [filesLines, List.map_append, List.sum_append_nat, records, List.length_append,
      List.length_map]
    split
    · simp
    · rename_i filtered
      simp only [List.map_cons, List.map_nil, List.sum_cons, List.sum_nil, List.length_singleton,
        (shownLine_of_ne filtered).2]
      omega

theorem shows_stats (selection : Selection) :
    Shows (statsText selection) (statsLines selection)
      (selection.records.map fun record => record.newPath) := by
  have records := lineFeeds_map selection.records (statsLine selection)
    (fun record => [record.newPath]) fun record _ => lineFeeds_statsLine selection record
  rw [← List.map_eq_flatMap] at records
  rw [statsText_eq]
  refine shows_join ?_ ?_
  · intro line member
    rcases List.mem_append.1 member with ofRecord | last
    · obtain ⟨record, -, rfl⟩ := List.mem_map.1 ofRecord
      exact printed_statsLine selection record
    · rw [List.mem_singleton.1 last]
      exact ⟨_, rfl⟩
  · rw [statsLines, List.map_append, List.sum_append_nat, records, List.length_append,
      List.length_map]
    simp only [List.map_cons, List.map_nil, List.sum_cons, List.sum_nil, List.length_singleton,
      lineFeeds_totalsLine]
    omega

/-- The modes of a record are modes. -/
theorem isMode_of_parse {dialect : Dialect} {data : Bytes} {records : List FileRecord}
    {record : FileRecord} (parsed : dialect.parse data = .ok records) (member : record ∈ records) :
    ∀ modes ∈ record.modes, ∀ mode, mode ∈ modes.old ∨ mode ∈ modes.new →
      HeaderValue.IsMode mode := by
  obtain ⟨headers, orig, new, added, ⟨_, _, _, _, reads⟩, adds, said, -⟩ :=
    Dialect.headed_of_parse parsed member
  have same : record.modes = added.modes := congrArg (fun facts => facts.modes) said
  rw [same]
  exact (Header.consistent_of_addAll reads.sound adds).modes

/-- **Reports on a diff have a line for each file that is shown, and one with the totals or, if not
all files are shown, with their number; and one more for every line feed in a path that they
show.** Only paths of git sections that hold an escaped line feed can have one. -/
theorem shows_of_parse {dialect : Dialect} {data : Bytes} {records : List FileRecord}
    (parsed : dialect.parse data = .ok records) (restriction : Option PathFilter) :
    let selection := Selection.ofRecords dialect restriction records
    Shows (text .files false selection) (filesLines selection)
      (selection.records.flatMap shownPaths) ∧
    Shows (text .stats false selection) (statsLines selection)
      (selection.records.map fun record => record.newPath) ∧
    (selection.records.length = selection.total ↔
      ∀ record ∈ records, Selection.selects restriction record = true) ∧
    ∀ record ∈ records, ∀ path, path = record.origPath ∨ path = record.newPath →
      '\n' ∈ path.toList →
      dialect = .git ∧ ∃ escape ∈ Quoted.lineFeedEscapes, escape <:+: record.body := by
  intro selection
  refine ⟨shows_files ?_, shows_stats selection, List.length_filter_eq_length_iff, ?_⟩
  · intro record member
    exact isMode_of_parse parsed (List.mem_of_mem_filter member)
  · intro record member path isPath feed
    exact Dialect.escape_of_lineFeed parsed member isPath feed

/-- Two files, of which one has an escaped line feed at the end of its path: three lines. -/
theorem shows_of_parse_escaped :
    let data := ofAscii <|
      "diff --git a/y b/y\nold mode 100644\nnew mode 100755\n" ++
      "diff --git \"a/x\\012\" \"b/x\\012\"\nold mode 100644\nnew mode 100755\n"
    ∃ records, Dialect.git.parse data = .ok records ∧
      let selection := Selection.ofRecords .git none records
      (Line.split (ofString (text .files false selection))).length = 3 ∧
      Shows (text .files false selection) (filesLines selection)
        (selection.records.flatMap shownPaths) ∧
      Shows (text .stats false selection) (statsLines selection)
        (selection.records.map fun record => record.newPath) := by
  intro data
  obtain ⟨records, parsed, three⟩ := Dialect.exists_parse_of_look .git data
    (fun records =>
      (Line.split (ofString (text .files false (Selection.ofRecords .git none records)))).length)
    3 (by decide +kernel)
  obtain ⟨files, stats, -⟩ := shows_of_parse parsed none
  exact ⟨records, parsed, three, files, stats⟩

/-- A path with an escaped line feed, which puts a line of its own into the list of files. -/
theorem files_forged_line :
    let data := ofAscii <|
      "diff --git \"a/x\\nD  secret\" \"b/x\\nD  secret\"\nold mode 100644\nnew mode 100755\n"
    ∃ records, Dialect.git.parse data = .ok records ∧ records.length = 1 ∧
      Line.split (ofString (text .files false (Selection.ofRecords .git none records))) =
        [ofString "M  x\n", ofString "D  secret  mode 100644 -> 100755\n"] := by
  intro data
  obtain ⟨records, parsed, looks⟩ := Dialect.exists_parse_of_look .git data
    (fun records => (records.length,
      Line.split (ofString (text .files false (Selection.ofRecords .git none records)))))
    (1, [ofString "M  x\n", ofString "D  secret  mode 100644 -> 100755\n"]) (by decide +kernel)
  obtain ⟨one, lines⟩ := Prod.mk.inj looks
  exact ⟨records, parsed, one, lines⟩

end Report

end DiffSections
