import DiffSections.Proofs.Concatenation
import DiffSections.Proofs.Reader.Respelled

/-!
# DiffSections.Proofs.LastLine -- what is put after the last line of a diff

`Line.finishWith` puts an ending after the last line of a text, unless that ends in LF. If the same
is matched of the line with the ending, the diff is read in the same way. Its records have its
lines, one record after the other, so it is the last record that gets the ending
(`Dialect.map_finishWith_of_parse`), and nothing else changes
(`Dialect.parse_append_of_readsAs`).
-/

namespace DiffSections

set_option autoImplicit false

open Bytes

/-! ## An ending for the last line -/

namespace Line

/-- The text with an ending put after its last line, unless that ends in LF. -/
def finishWith (ending text : Bytes) : Bytes :=
  if text = [] ∨ text.getLast? = some lf then text else text ++ ending

variable {ending text : Bytes}

theorem finishWith_of_getLast? (ending : Bytes) (ended : text.getLast? = some lf) :
    finishWith ending text = text :=
  if_pos (.inr ended)

theorem finishWith_of_ne (ending : Bytes) (ne_nil : text ≠ [])
    (unended : text.getLast? ≠ some lf) : finishWith ending text = text ++ ending :=
  if_neg (not_or.2 ⟨ne_nil, unended⟩)

theorem finishWith_append (ending first : Bytes) {later : Bytes} (ne_nil : later ≠ []) :
    finishWith ending (first ++ later) = first ++ finishWith ending later := by
  simp only [finishWith, List.append_eq_nil_iff, ne_nil, and_false, false_or,
    List.getLast?_append_of_ne_nil _ ne_nil]
  split
  · rfl
  · exact List.append_assoc first later ending

/-- A text whose lines are all ended keeps its ending. -/
theorem finishWith_flatten_of_ended (ending : Bytes) {lines : List Bytes}
    (ended : ∀ line ∈ lines, line.getLast? = some lf) :
    finishWith ending lines.flatten = lines.flatten := by
  rcases lines.eq_nil_or_concat' with rfl | ⟨early, last, rfl⟩
  · rfl
  · have isEnd := ended last (by simp)
    have ne_nil : last ≠ [] := by rintro rfl; cases isEnd
    rw [List.flatten_append, List.flatten_singleton, finishWith_append _ _ ne_nil,
      finishWith_of_getLast? _ isEnd]

theorem finishWith_flatten (ending : Bytes) {lines : List Bytes} (cut : IsCut lines) :
    finishWith ending lines.flatten = (lines.map (finishWith ending)).flatten := by
  rcases lines.eq_nil_or_concat' with rfl | ⟨early, last, rfl⟩
  · rfl
  · have same : early.map (finishWith ending) = early.map id := List.map_congr_left
      fun line member => finishWith_of_getLast? _ (cut.ended line (by simpa using member))
    have ne_nil : last ≠ [] := (cut.isLine last (by simp)).ne_nil
    rw [List.flatten_append, List.flatten_singleton, finishWith_append _ _ ne_nil,
      List.map_append, same, List.map_id, List.flatten_append, List.map_singleton,
      List.flatten_singleton]

/-- A line without LF is still a line with an ending that has an LF at most at its end. -/
theorem IsLine.append_ending {line : Bytes} (isLine : IsLine line)
    (unended : line.getLast? ≠ some lf) (unbroken : lf ∉ ending.dropLast) :
    IsLine (line ++ ending) := by
  refine ⟨List.append_ne_nil_of_left_ne_nil isLine.ne_nil ending, ?_⟩
  by_cases none : ending = []
  · rw [none, List.append_nil]
    exact isLine.unbroken
  · obtain ⟨text, noLf, rfl | ⟨rfl, -⟩⟩ := isLine.exists_text
    · simp at unended
    · rw [List.dropLast_append_of_ne_nil none]
      simp [noLf, unbroken]

/-- Putting an ending after the last line is a spelling, if that line reads the same with it. -/
theorem respells_finishWith {data : Bytes} (unbroken : lf ∉ ending.dropLast)
    (readsAs : ∀ line ∈ split data, line.getLast? ≠ some lf → ReadsAs line (line ++ ending)) :
    Respells (finishWith ending) data := by
  have spelled : ∀ line ∈ split data,
      IsLine (finishWith ending line) ∧ ReadsAs line (finishWith ending line) := by
    intro line member
    have isLine := (isCut_split data).isLine line member
    by_cases ended : line.getLast? = some lf
    · rw [finishWith_of_getLast? _ ended]
      exact ⟨isLine, rfl⟩
    · rw [finishWith_of_ne _ isLine.ne_nil ended]
      exact ⟨isLine.append_ending ended unbroken, readsAs line member ended⟩
  refine ⟨fun lines within => finishWith_flatten _ ((isCut_split data).of_stretch within),
    fun line member => (spelled line member).1, fun line _ ended => ?_,
    fun line member => (spelled line member).2⟩
  rw [finishWith_of_getLast? _ ended]
  exact ended

end Line

/-! ## Records and the end of the text -/

namespace Dialect

variable {dialect : Dialect} {data ending : Bytes} {records : List FileRecord}

/-- The last section of a diff has octets. -/
theorem exists_last_of_parse (parsed : dialect.parse data = .ok records)
    (someRecord : records ≠ []) :
    ∃ early last, records = early ++ [last] ∧ last.body ≠ [] := by
  obtain ⟨final, reaches, -, closes⟩ := parseWith_eq_ok_iff.1 parsed
  rcases Reader.close_eq_ok closes with ⟨draft, place, inside, -, rfl⟩ |
    ⟨draft, pending, seeking, rfl⟩ | ⟨pending, seeking, -, rfl⟩
  · have text : draft.text ≠ [] := reaches.text_ne_nil (by rw [inside]; rfl)
    exact ⟨_, _, rfl, text⟩
  · have text : draft.text ≠ [] := reaches.text_ne_nil (by rw [seeking]; rfl)
    refine ⟨_, _, rfl, ?_⟩
    rw [Draft.close_append]
    exact List.append_ne_nil_of_left_ne_nil text _
  · simp [reaches.closed_eq_nil seeking] at someRecord

/-- Of the records of a diff, only the last one can lack an LF at its end. -/
theorem map_finishWith_of_parse (ending : Bytes) (parsed : dialect.parse data = .ok records)
    (unended : data.getLast? ≠ some lf) :
    records.map (FileRecord.mapText (Line.finishWith ending)) =
      records.modifyLast (·.followed ending) := by
  by_cases someRecord : records = []
  · rw [someRecord]
    rfl
  obtain ⟨early, last, rfl, body⟩ := exists_last_of_parse parsed someRecord
  have whole := flatMap_lines_of_parse parsed someRecord
  rw [List.flatMap_append, List.flatMap_singleton, FileRecord.lines, ← List.append_assoc] at whole
  have ended : ∀ line ∈ early.flatMap FileRecord.lines ++ Line.split last.preamble,
      line.getLast? = some lf := by
    intro line member
    refine (Line.isCut_split data).ended line ?_
    rw [← whole, List.dropLast_append_of_ne_nil (Line.split_ne_nil body)]
    exact List.mem_append_left _ member
  have finished : ∀ text, Line.split text ⊆ early.flatMap FileRecord.lines ++
      Line.split last.preamble → Line.finishWith ending text = text := by
    intro text within
    have same := Line.finishWith_flatten_of_ended ending fun line member =>
      ended line (within member)
    rwa [Line.flatten_split] at same
  have sameEarly : early.map (FileRecord.mapText (Line.finishWith ending)) = early.map id := by
    refine List.map_congr_left fun record member => ?_
    have within : record.lines ⊆ early.flatMap FileRecord.lines ++ Line.split last.preamble :=
      fun line here => List.mem_append_left _ (List.mem_flatMap.2 ⟨record, member, here⟩)
    obtain ⟨preamble, body⟩ := List.append_subset.1 within
    rw [FileRecord.mapText, finished _ preamble, finished _ body, id]
  have lastBody : Line.finishWith ending last.body = last.body ++ ending := by
    refine Line.finishWith_of_ne ending body fun isEnd => unended ?_
    rw [← Line.flatten_split data, ← whole, List.flatten_append, Line.flatten_split,
      List.getLast?_append_of_ne_nil _ body, isEnd]
  have sameLast : last.mapText (Line.finishWith ending) = last.followed ending := by
    rw [FileRecord.mapText, finished _ (List.subset_append_right _ _), lastBody,
      FileRecord.followed]
  rw [List.map_append, sameEarly, List.map_id, List.map_singleton, sameLast,
    List.modifyLast_concat]

variable (dialect) in
/-- **An ending that the last line reads the same with changes nothing else.** -/
theorem parse_append_of_readsAs (ne_nil : data ≠ []) (unended : data.getLast? ≠ some lf)
    (unbroken : lf ∉ ending.dropLast)
    (readsAs : ∀ line ∈ Line.split data, line.getLast? ≠ some lf →
      Line.ReadsAs line (line ++ ending)) :
    dialect.parse (data ++ ending) =
      (dialect.parse data).map (List.modifyLast (·.followed ending)) := by
  have read := dialect.parse_of_respells (Line.respells_finishWith unbroken readsAs)
  rw [Line.finishWith_of_ne ending ne_nil unended] at read
  rw [read]
  cases parsed : dialect.parse data with
  | error error => rfl
  | ok records => exact congrArg Except.ok (map_finishWith_of_parse ending parsed unended)

end Dialect

end DiffSections
