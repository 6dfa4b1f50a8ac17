import DiffSections.Proofs.Concatenation
import DiffSections.Proofs.Stages

/-!
# DiffSections.Proofs.Totals -- reports agree, and totals add up

The totals are counted record by record, by a tally of their own. They are the sums of the columns
of the rows (`Totals.ofRecords_eq`): `Totals.ofRows` adds each column up by itself. Rows that are
put one after the other have the sum of their totals (`Totals.ofRows_append`), and each row is
counted under one change (`Totals.sum_changes`).

* `Report.agreeOn_rows`: what the three verbs print shows the same rows, and their sums;
* `Dialect.exists_rows_append`: a diff behind another one adds its rows to those of the first.

The text that changes sides where two diffs meet is none of what a row shows.
-/

namespace DiffSections

set_option autoImplicit false

namespace Totals

/-! ## Sums of columns -/

/-- How many files changed in one way. -/
def changesOf (totals : Totals) : FileChange → Nat
  | .added => totals.added
  | .deleted => totals.deleted
  | .renamed => totals.renamed
  | .copied => totals.copied
  | .modified => totals.modified

theorem eq_of_fields {first later : Totals} (files : first.files = later.files)
    (insertions : first.insertions = later.insertions)
    (deletions : first.deletions = later.deletions) (binary : first.binary = later.binary)
    (changes : ∀ change, first.changesOf change = later.changesOf change) : first = later := by
  obtain ⟨_, _, _, _, _, _, _, _, _⟩ := first
  cases files
  cases insertions
  cases deletions
  cases binary
  cases changes .added
  cases changes .deleted
  cases changes .renamed
  cases changes .copied
  cases changes .modified
  rfl

/-- Field by field. -/
instance : Add Totals where
  add first later :=
    { files := first.files + later.files
      insertions := first.insertions + later.insertions
      deletions := first.deletions + later.deletions
      added := first.added + later.added
      deleted := first.deleted + later.deleted
      renamed := first.renamed + later.renamed
      copied := first.copied + later.copied
      modified := first.modified + later.modified
      binary := first.binary + later.binary }

theorem changesOf_add (first later : Totals) (change : FileChange) :
    (first + later).changesOf change = first.changesOf change + later.changesOf change := by
  cases change <;> rfl

theorem add_assoc (first second third : Totals) :
    first + second + third = first + (second + third) := by
  apply eq_of_fields
  case changes =>
    intro change
    simp only [changesOf_add, Nat.add_assoc]
  all_goals exact Nat.add_assoc ..

theorem zero_add (totals : Totals) : ({} : Totals) + totals = totals := by
  apply eq_of_fields
  case changes =>
    intro change
    rw [changesOf_add]
    cases change <;> exact Nat.zero_add _
  all_goals exact Nat.zero_add _

/-- The sum of a column of some rows. -/
def sumOf (column : FileRow → Nat) (rows : List FileRow) : Nat := (rows.map column).sum

/-- How many rows have a change. -/
def countOf (change : FileChange) (rows : List FileRow) : Nat :=
  rows.countP fun row => row.change = change

/-- The sums of the columns of some rows. -/
def ofRows (rows : List FileRow) : Totals :=
  { files := rows.length
    insertions := sumOf FileRow.insertions rows
    deletions := sumOf FileRow.deletions rows
    added := countOf .added rows
    deleted := countOf .deleted rows
    renamed := countOf .renamed rows
    copied := countOf .copied rows
    modified := countOf .modified rows
    binary := rows.countP FileRow.binary }

theorem changesOf_ofRows (rows : List FileRow) (change : FileChange) :
    (ofRows rows).changesOf change = countOf change rows := by
  cases change <;> rfl

theorem sumOf_append (column : FileRow → Nat) (first later : List FileRow) :
    sumOf column (first ++ later) = sumOf column first + sumOf column later := by
  simp only [sumOf, List.map_append, List.sum_append]

theorem countOf_cons (change : FileChange) (row : FileRow) (rows : List FileRow) :
    countOf change (row :: rows) = countOf change rows + if row.change = change then 1 else 0 := by
  simp only [countOf, List.countP_cons, decide_eq_true_eq]

theorem countOf_singleton (change : FileChange) (row : FileRow) :
    countOf change [row] = if row.change = change then 1 else 0 := by
  rw [countOf_cons]
  exact Nat.zero_add _

/-- **Rows one after the other have the sum of their totals.** -/
theorem ofRows_append (first later : List FileRow) :
    ofRows (first ++ later) = ofRows first + ofRows later := by
  apply eq_of_fields
  case files => exact List.length_append
  case insertions => exact sumOf_append FileRow.insertions first later
  case deletions => exact sumOf_append FileRow.deletions first later
  case binary => exact List.countP_append
  case changes =>
    intro change
    rw [changesOf_add, changesOf_ofRows, changesOf_ofRows, changesOf_ofRows]
    exact List.countP_append

/-- **A row is counted under one change.** -/
theorem sum_changes (rows : List FileRow) :
    let totals := ofRows rows
    totals.added + totals.deleted + totals.renamed + totals.copied + totals.modified =
      totals.files := by
  induction rows with
  | nil => rfl
  | cons row rows ih =>
      simp only [ofRows, countOf_cons, List.length_cons] at ih ⊢
      cases row.change <;> simp only [reduceCtorEq, if_true, if_false] <;> omega

/-! ## The tally of records -/

theorem changesOf_countChange (totals : Totals) (counted change : FileChange) :
    (totals.countChange counted).changesOf change =
      totals.changesOf change + if counted = change then 1 else 0 := by
  cases counted <;> cases change <;> rfl

theorem changesOf_add_record (totals : Totals) (record : FileRecord) (change : FileChange) :
    (totals.add record).changesOf change =
      totals.changesOf change + if record.change = change then 1 else 0 := by
  rw [← changesOf_countChange]
  cases change <;> rfl

/-- To count a record is to add the totals of its row. -/
theorem add_eq (totals : Totals) (record : FileRecord) :
    totals.add record = totals + ofRows [FileRow.ofRecord record] := by
  apply eq_of_fields
  case files => rfl
  case insertions => rfl
  case deletions => rfl
  case binary =>
    show totals.binary + _ = totals.binary + List.countP FileRow.binary [FileRow.ofRecord record]
    rw [List.countP_singleton]
    rfl
  case changes =>
    intro change
    rw [changesOf_add, changesOf_add_record, changesOf_ofRows, countOf_singleton]
    rfl

theorem foldl_add (totals : Totals) (records : List FileRecord) :
    records.foldl add totals = totals + ofRows (records.map FileRow.ofRecord) := by
  induction records generalizing totals with
  | nil => rfl
  | cons record records ih =>
      rw [List.foldl_cons, ih, add_eq, add_assoc, ← ofRows_append]
      rfl

/-- **The tally of the records is the sums of the columns of their rows.** -/
theorem ofRecords_eq (records : List FileRecord) :
    ofRecords records = ofRows (records.map FileRow.ofRecord) := by
  rw [ofRecords, foldl_add, zero_add]

end Totals

/-! ## What reports show -/

namespace Report

/-- What the reports on a selection show of some rows. The statistics and the list of files show the
rows themselves, and the statistics and the verdict the sums of their columns. -/
structure AgreeOn (selection : Selection) (rows : List FileRow) : Prop where
  statsJson : text .stats true selection = document (.object
    [("format", .string selection.dialect.name), ("files", .array (rows.map .ofFileRow)),
      ("summary", .ofTotals (.ofRows rows))])
  statsText : text .stats false selection =
    String.join (Histogram.lines rows) ++ " " ++ (Totals.ofRows rows).shortstat ++ "\n"
  filesJson : text .files true selection = document (.array (rows.map .ofFileRow))
  checkJson : text .check true selection = document (.object
    [("files", .number (Totals.ofRows rows).files), ("format", .string selection.dialect.name),
      ("hunks", .number (Totals.sumOf FileRow.hunks rows)), ("ok", .bool true)])
  checkText : text .check false selection =
    "OK: " ++ toString (Totals.ofRows rows).files ++ " file(s), " ++
      toString (Totals.sumOf FileRow.hunks rows) ++ " hunk(s) in " ++ selection.dialect.name ++
      " diff\n"

theorem hunkCount_eq (selection : Selection) :
    hunkCount selection = Totals.sumOf FileRow.hunks (rows selection) := by
  rw [hunkCount, List.length_flatMap, Totals.sumOf, rows, List.map_map]
  rfl

theorem files_ofRows (selection : Selection) :
    (Totals.ofRows (rows selection)).files = selection.records.length :=
  List.length_map ..

/-- **Reports agree.** -/
theorem agreeOn_rows (selection : Selection) : AgreeOn selection (rows selection) where
  statsJson := by rw [text, statsJson, Totals.ofRecords_eq]; rfl
  statsText := by rw [text, statsText, Totals.ofRecords_eq]; rfl
  filesJson := rfl
  checkJson := by rw [text, checkJson, files_ofRows, hunkCount_eq]
  checkText := by rw [text, checkText, files_ofRows, hunkCount_eq]

end Report

namespace Invocation

variable {invocation : Invocation} {around : Surroundings} {selection : Selection}

theorem exists_settings_of_load (loads : invocation.load around = .ok selection) :
    ∃ settings, Settings.ofSurroundings around invocation.config = .ok settings ∧
      Selection.ofInvocation around settings invocation = .ok selection := by
  cases loaded : Settings.ofSurroundings around invocation.config with
  | error fault => rw [load, loaded] at loads; cases loads
  | ok settings => rw [load, loaded] at loads; exact ⟨settings, rfl, loads⟩

/-- With what was loaded every verb succeeds. -/
theorem run_of_load (loads : invocation.load around = .ok selection) :
    ∃ json, (json = true ↔ invocation.WantsJson around) ∧
      ∀ verb, (invocation.byVerb verb).run around =
        { output := Report.text verb json selection } := by
  obtain ⟨settings, loaded, selects⟩ := exists_settings_of_load loads
  refine ⟨invocation.printsJson settings, (wantsJson_iff loaded).symm, fun verb => ?_⟩
  rw [run_of_loaded verb loaded, selects]

end Invocation

/-! ## One diff after another -/

theorem FileRow.ofRecord_followed (record : FileRecord) (text : Bytes) :
    FileRow.ofRecord (record.followed text) = FileRow.ofRecord record := rfl

theorem FileRow.ofRecord_preceded (record : FileRecord) (text : Bytes) :
    FileRow.ofRecord (record.preceded text) = FileRow.ofRecord record := rfl

namespace Dialect

variable {dialect : Dialect} {first later : Bytes} {records found : List FileRecord}

/-- **A diff behind another one adds its rows to those of the first.** -/
theorem exists_rows_append (ended : first = [] ∨ first.getLast? = some Bytes.lf)
    (through : dialect.ReadsThrough first records)
    (starts : dialect.startsSection (Line.split later) = true)
    (parsed : dialect.parse later = .ok found) :
    ∃ joined, dialect.parse (first ++ later) = .ok joined ∧
      joined.map FileRow.ofRecord =
        records.map FileRow.ofRecord ++ found.map FileRow.ofRecord := by
  obtain ⟨closed, previous, pending, reaches, -, shown, -⟩ := reaches_seam through starts
  have fate := Reader.sameFate_of_startsSection dialect.cutRule starts closed previous pending
    (Line.split first).length
  rw [parse, parseWith_eq_bind] at parsed
  obtain ⟨record, others, rfl, answer⟩ := (fate.close dialect).2 found parsed
  have joined : dialect.parse (first ++ later) =
      (Reader.run dialect dialect.cutRule
        ⟨closed, .seeking previous pending, (Line.split first).length, Line.split later⟩).bind
          (Reader.close dialect) := by
    rw [parse, parseWith_eq_bind, Line.split_append _ _ ended, reaches.run_eq]
  refine ⟨_, joined.trans answer, ?_⟩
  rw [shown, map_modifyLast fun record => FileRow.ofRecord_followed record _, List.map_append,
    List.map_cons, List.map_cons, FileRow.ofRecord_preceded]

theorem totals_append {joined : List FileRecord}
    (rows : joined.map FileRow.ofRecord =
      records.map FileRow.ofRecord ++ found.map FileRow.ofRecord) :
    Totals.ofRecords joined = Totals.ofRecords records + Totals.ofRecords found := by
  simp only [Totals.ofRecords_eq, rows, Totals.ofRows_append]

end Dialect

/-- **Reports agree, and summaries add up.** Whatever a run loads, in any dialect and restricted to
any files, every verb reports on it, and all of them show the same rows: the totals are the sums of
their columns, each row is counted under one change, and the verdict counts the rows and their
hunks. A diff that starts with a boundary and is put behind another one, which ends in LF or is
empty, adds its rows to those of the first one, and its totals. -/
theorem Report.agreeOn_rows_and_totals_append :
    (∀ (invocation : Invocation) (around : Surroundings) (selection : Selection),
      invocation.load around = .ok selection →
        (∃ json, (json = true ↔ invocation.WantsJson around) ∧
          ∀ verb, (invocation.byVerb verb).run around = { output := text verb json selection }) ∧
        AgreeOn selection (rows selection) ∧
        let totals := Totals.ofRecords selection.records
        totals = Totals.ofRows (rows selection) ∧
          totals.added + totals.deleted + totals.renamed + totals.copied + totals.modified =
            totals.files) ∧
    (∀ (dialect : Dialect) (first later : Bytes) (records found : List FileRecord),
      (first = [] ∨ first.getLast? = some Bytes.lf) → dialect.parse first = .ok records →
      dialect.startsSection (Line.split later) = true → dialect.parse later = .ok found →
      ∃ joined, dialect.parse (first ++ later) = .ok joined ∧
        joined.map FileRow.ofRecord =
          records.map FileRow.ofRecord ++ found.map FileRow.ofRecord ∧
        Totals.ofRecords joined = Totals.ofRecords records + Totals.ofRecords found) := by
  refine ⟨fun invocation around selection loads => ?_, ?_⟩
  · have sums := Totals.ofRecords_eq selection.records
    refine ⟨invocation.run_of_load loads, agreeOn_rows selection, sums, ?_⟩
    rw [sums]
    exact Totals.sum_changes (rows selection)
  · intro dialect first later records found ended parsed starts parsedLater
    obtain ⟨joined, both, rows⟩ :=
      Dialect.exists_rows_append ended (.inl parsed) starts parsedLater
    exact ⟨joined, both, rows, Dialect.totals_append rows⟩

/-- A new binary file, and behind it a file that moved, which is the one that is asked for. -/
theorem Report.agreeOn_rows_and_totals_append_moved :
    let first := Bytes.ofAscii <|
      "diff --git a/x b/x\nnew file mode 100644\nBinary files /dev/null and b/x differ\n"
    let later := Bytes.ofAscii <|
      "diff --git a/y b/z\nsimilarity index 90%\nrename from y\nrename to z\n" ++
        "--- a/y\n+++ b/z\n@@ -1 +1,2 @@\n-p\n+q\n+r\n"
    let asked : Invocation := { verb := .check, patterns := ["z"] }
    let around : Surroundings :=
      { find := fun _ => .fault .missing, stdin := first ++ later, directory := "/" }
    let moved : Totals := { files := 1, insertions := 2, deletions := 1, renamed := 1 }
    (∃ selection, asked.load around = .ok selection ∧ selection.total = 2 ∧
      AgreeOn selection (rows selection) ∧ Totals.ofRows (rows selection) = moved) ∧
    ∃ records found joined, Dialect.git.parse first = .ok records ∧
      Totals.ofRecords records = { files := 1, added := 1, binary := 1 } ∧
      Dialect.git.parse later = .ok found ∧ Totals.ofRecords found = moved ∧
      Dialect.git.parse (first ++ later) = .ok joined ∧
      Totals.ofRecords joined = { moved with files := 2, added := 1, binary := 1 } := by
  intro first later asked around moved
  obtain ⟨agree, append⟩ := agreeOn_rows_and_totals_append
  refine ⟨?_, ?_⟩
  · have look : (asked.load around).toOption.map (fun selection =>
        (selection.total, Totals.ofRecords selection.records)) = some (2, moved) := by
      decide +kernel
    cases loads : asked.load around with
    | error failure => rw [loads] at look; cases look
    | ok selection =>
        rw [loads] at look
        obtain ⟨two, counted⟩ := Prod.mk.inj (Option.some.inj look)
        obtain ⟨-, shown, sums, -⟩ := agree asked around selection loads
        exact ⟨selection, rfl, two, shown, sums.symm.trans counted⟩
  · obtain ⟨records, parsed, one⟩ := Dialect.exists_parse_of_look .git first Totals.ofRecords
      { files := 1, added := 1, binary := 1 } (by decide +kernel)
    obtain ⟨found, parsedLater, other⟩ :=
      Dialect.exists_parse_of_look .git later Totals.ofRecords moved (by decide +kernel)
    obtain ⟨joined, both, -, sums⟩ := append .git first later records found
      (.inr (by decide +kernel)) parsed (by decide +kernel) parsedLater
    exact ⟨records, found, joined, parsed, one, parsedLater, other, both,
      sums.trans (by rw [one, other]; rfl)⟩

end DiffSections
