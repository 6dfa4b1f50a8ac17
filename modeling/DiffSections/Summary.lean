import DiffSections.File.Record
import DiffSections.Json

/-!
# DiffSections.Summary -- a row for each file, and totals over all of them

`FileRow` is what a reviewer sees of one record. `Totals` counts records, lines and kinds of
change; `Totals.ofRecords` adds up the counts of the records one by one. Both have a JSON form.
-/

namespace DiffSections

set_option autoImplicit false

/-- What a reviewer sees of one file. -/
structure FileRow where
  origPath : String
  newPath : String
  change : FileChange
  binary : Bool
  insertions : Nat
  deletions : Nat
  hunks : Nat
  similarity : Option Nat
  modes : Option Modes
  deriving DecidableEq, Repr

namespace FileRow

def ofRecord (record : FileRecord) : FileRow :=
  { origPath := record.origPath
    newPath := record.newPath
    change := record.change
    binary := record.binary
    insertions := record.insertions
    deletions := record.deletions
    hunks := record.hunks.length
    similarity := record.similarity
    modes := record.modes }

/-- The lines a file gains and loses. -/
def changed (row : FileRow) : Nat := row.insertions + row.deletions

end FileRow

/-- Counts over the files of a diff. -/
structure Totals where
  files : Nat := 0
  insertions : Nat := 0
  deletions : Nat := 0
  added : Nat := 0
  deleted : Nat := 0
  renamed : Nat := 0
  copied : Nat := 0
  modified : Nat := 0
  binary : Nat := 0
  deriving DecidableEq, Repr

namespace Totals

/-- Count one way of change. -/
def countChange (totals : Totals) : FileChange → Totals
  | .added => { totals with added := totals.added + 1 }
  | .deleted => { totals with deleted := totals.deleted + 1 }
  | .renamed => { totals with renamed := totals.renamed + 1 }
  | .copied => { totals with copied := totals.copied + 1 }
  | .modified => { totals with modified := totals.modified + 1 }

/-- Count one record. -/
def add (totals : Totals) (record : FileRecord) : Totals :=
  { totals.countChange record.change with
    files := totals.files + 1
    insertions := totals.insertions + record.insertions
    deletions := totals.deletions + record.deletions
    binary := totals.binary + if record.binary then 1 else 0 }

def ofRecords (records : List FileRecord) : Totals :=
  records.foldl add {}

/-- A number and its noun, in the singular for one. -/
def counted (n : Nat) (noun : String) : String :=
  toString n ++ " " ++ noun ++ if n = 1 then "" else "s"

/-- The totals in one line. -/
def shortstat (totals : Totals) : String :=
  counted totals.files "file" ++ " changed, " ++ counted totals.insertions "insertion" ++ "(+), " ++
    counted totals.deletions "deletion" ++ "(-)"

end Totals

/-! ## JSON -/

namespace JsonValue

def ofText? : Option String → JsonValue
  | none => .null
  | some text => .string text

def ofModes (modes : Modes) : JsonValue :=
  .object [("old_mode", ofText? modes.old), ("new_mode", ofText? modes.new)]

/-- The similarity and the modes are left out when there are none. -/
def ofFileRow (row : FileRow) : JsonValue :=
  .object <|
    [("orig_file", .string row.origPath), ("new_file", .string row.newPath),
      ("change", .string row.change.name), ("binary", .bool row.binary),
      ("insertions", .number row.insertions), ("deletions", .number row.deletions),
      ("hunks", .number row.hunks)] ++
    (row.similarity.map fun percent => ("similarity_percent", .number percent)).toList ++
    (row.modes.map fun modes => ("mode_info", ofModes modes)).toList

def ofTotals (totals : Totals) : JsonValue :=
  .object [("files", .number totals.files), ("insertions", .number totals.insertions),
    ("deletions", .number totals.deletions), ("added", .number totals.added),
    ("deleted", .number totals.deleted), ("renamed", .number totals.renamed),
    ("copied", .number totals.copied), ("modified", .number totals.modified),
    ("binary", .number totals.binary)]

end JsonValue

end DiffSections
