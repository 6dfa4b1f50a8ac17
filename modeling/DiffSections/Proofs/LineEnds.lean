import DiffSections.Proofs.LastLine

/-!
# DiffSections.Proofs.LineEnds -- how lines end does not matter

Two spellings read the same as the diff they spell. `Line.withCr` puts a CR in front of each LF, and
`Line.finish` puts an LF at the end of a text that lacks it. The records of a diff have its lines,
one record after the other, so only the last one may not be finished
(`Dialect.map_finish_of_parse`). Main statement: `Dialect.parse_withCr_and_parse_append_lf`.
-/

namespace DiffSections

set_option autoImplicit false

open Bytes

/-! ## A CR in front of each LF -/

namespace Line

/-- The text with its line ends written CR LF. -/
def withCr (text : Bytes) : Bytes :=
  text.flatMap fun b => if b = lf then [cr, lf] else [b]

@[simp] theorem withCr_append (first later : Bytes) :
    withCr (first ++ later) = withCr first ++ withCr later :=
  List.flatMap_append

theorem withCr_flatten (lines : List Bytes) :
    withCr lines.flatten = (lines.map withCr).flatten := by
  induction lines with
  | nil => rfl
  | cons line lines ih =>
      rw [List.flatten_cons, withCr_append, ih, List.map_cons, List.flatten_cons]

theorem withCr_of_unbroken {text : Bytes} (unbroken : lf ∉ text) : withCr text = text := by
  induction text with
  | nil => rfl
  | cons b text ih =>
      obtain ⟨inner, later⟩ := not_or.1 (mt List.mem_cons.2 unbroken)
      rw [withCr, List.flatMap_cons, if_neg (Ne.symm inner)]
      exact congrArg (b :: ·) (ih later)

theorem respells_withCr {data : Bytes} (noCr : cr ∉ data) : Respells withCr data := by
  have spelled : ∀ line ∈ split data, IsLine (withCr line) ∧
      (line.getLast? = some lf → (withCr line).getLast? = some lf) ∧
      ReadsAs line (withCr line) := by
    intro line member
    have isLine := (isCut_split data).isLine line member
    obtain ⟨text, unbroken, rfl | ⟨rfl, -⟩⟩ := isLine.exists_text
    · have bare : withCr (text ++ [lf]) = text ++ [cr] ++ [lf] := by
        rw [withCr_append, withCr_of_unbroken unbroken, List.append_assoc]
        rfl
      have within : text ++ [lf] ⊆ data := by
        rw [← flatten_split data]
        exact fun b here => List.mem_flatten_of_mem member here
      have noCrHere : text.getLast? ≠ some cr := fun last =>
        noCr (within (List.mem_append_left _ (List.mem_of_getLast? last)))
      rw [bare]
      refine ⟨⟨by simp, ?_⟩, by simp, ?_⟩
      · simpa using ⟨unbroken, by decide⟩
      · rw [ReadsAs, content_ended, content_ended_of_ne noCrHere]
        simp [stripLast]
    · rw [withCr_of_unbroken unbroken]
      exact ⟨isLine, id, rfl⟩
  exact ⟨fun lines _ => withCr_flatten lines, fun line member => (spelled line member).1,
    fun line member => (spelled line member).2.1, fun line member => (spelled line member).2.2⟩

/-! ## An LF at the end -/

/-- The text with an LF after its last line, if that has none. -/
def finish (text : Bytes) : Bytes :=
  if text = [] ∨ text.getLast? = some lf then text else text ++ [lf]

theorem finish_eq : finish = finishWith [lf] := rfl

theorem finish_of_ne {text : Bytes} (ne_nil : text ≠ []) (unended : text.getLast? ≠ some lf) :
    finish text = text ++ [lf] :=
  finishWith_of_ne [lf] ne_nil unended

theorem respells_finish (data : Bytes) : Respells finish data := by
  rw [finish_eq]
  refine respells_finishWith (by simp) fun line _ unended => ?_
  rw [ReadsAs, content_ended, content_of_unended unended]

end Line

/-- Of the records of a diff, only the last one can lack an LF at its end. -/
theorem Dialect.map_finish_of_parse {dialect : Dialect} {data : Bytes} {records : List FileRecord}
    (parsed : dialect.parse data = .ok records) (unended : data.getLast? ≠ some lf) :
    records.map (FileRecord.mapText Line.finish) = records.modifyLast (·.followed [lf]) := by
  rw [Line.finish_eq]
  exact map_finishWith_of_parse [lf] parsed unended

/-- **How lines end does not matter.** A diff without CR whose line ends are all written CR LF is
refused for the same reason at the same line, or it is read into the same records, but that the line
ends in their texts are written CR LF too. And an LF at the end of a diff that lacks it changes
nothing but the end of the last section. -/
theorem Dialect.parse_withCr_and_parse_append_lf (dialect : Dialect) (data : Bytes) :
    (cr ∉ data → dialect.parse (Line.withCr data) =
      (dialect.parse data).map (List.map (FileRecord.mapText Line.withCr))) ∧
    (data ≠ [] → data.getLast? ≠ some lf → dialect.parse (data ++ [lf]) =
      (dialect.parse data).map (List.modifyLast (·.followed [lf]))) := by
  refine ⟨fun noCr => dialect.parse_of_respells (Line.respells_withCr noCr), ?_⟩
  intro ne_nil unended
  have read := dialect.parse_of_respells (Line.respells_finish data)
  rw [Line.finish_of_ne ne_nil unended] at read
  rw [read]
  cases parsed : dialect.parse data with
  | error error => rfl
  | ok records => exact congrArg Except.ok (map_finish_of_parse parsed unended)

/-- Text before and between two sections, a heading, and no LF at the end. -/
theorem Dialect.parse_withCr_and_parse_append_lf_two_sections :
    let data := ofAscii
      "note\n--- a\n+++ b\n@@ -1 +1 @@ f\n-p\n+q\ntext\n--- c\td\n+++ e\n@@ -0,0 +1 @@\n+z"
    cr ∉ data ∧ data ≠ [] ∧ data.getLast? ≠ some lf ∧
    ∃ records, Dialect.unified.parse data = .ok records ∧ records.length = 2 ∧
      Dialect.unified.parse (Line.withCr data) =
        .ok (records.map (FileRecord.mapText Line.withCr)) ∧
      Dialect.unified.parse (data ++ [lf]) = .ok (records.modifyLast (·.followed [lf])) := by
  intro data
  obtain ⟨records, parsed, two⟩ := exists_parse_of_length .unified data 2 (by decide +kernel)
  have noCr : cr ∉ data := by decide +kernel
  have ne_nil : data ≠ [] := by decide +kernel
  have unended : data.getLast? ≠ some lf := by decide +kernel
  have ⟨withCr, append⟩ := Dialect.parse_withCr_and_parse_append_lf .unified data
  refine ⟨noCr, ne_nil, unended, records, parsed, two, ?_, ?_⟩
  · rw [withCr noCr, parsed]
    rfl
  · rw [append ne_nil unended, parsed]
    rfl

end DiffSections
