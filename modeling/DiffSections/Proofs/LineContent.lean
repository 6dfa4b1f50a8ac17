import DiffSections.Proofs.LastLine
import DiffSections.Proofs.LineIndex

/-!
# DiffSections.Proofs.LineContent -- what is stripped of a line before it is matched

What is matched of a line is the line without its terminator: an LF, and the CR before it. The last
line of a text may have none. Then nothing should be stripped of it, but a CR at its end is
(`Line.eq_content_append_terminator_iff`). No other line ends in a CR, so this is a rule about the
octet at the end of a text: `LineIndex.stripsTerminator_iff`.

The CR that is stripped there is kept in the record, but nothing that is read of the last line knows
of it. The line may end in CR as it may end in LF, in CR LF or in neither
(`Dialect.parse_append_lineEnd`), and a path at the end of a diff has its octets but for a CR at
their end (`Dialect.newPath_of_parse_append`).
-/

namespace DiffSections

set_option autoImplicit false

open Bytes

/-! ## Lines and their terminators -/

namespace Line

/-- What ends a line: an LF, and the CR before it if there is one. Without an LF, nothing does. -/
def terminator (line : Bytes) : Bytes :=
  if line.getLast? = some lf then
    if line.dropLast.getLast? = some cr then [cr, lf] else [lf]
  else []

theorem terminator_of_ne {line : Bytes} (unended : line.getLast? ≠ some lf) :
    terminator line = [] :=
  if_neg unended

/-- Of a line that ends in LF, the terminator is stripped. -/
theorem content_append_terminator_ended (text : Bytes) :
    content (text ++ [lf]) ++ terminator (text ++ [lf]) = text ++ [lf] := by
  have ends : terminator (text ++ [lf]) = if text.getLast? = some cr then [cr, lf] else [lf] := by
    simp [terminator]
  rw [content_ended, ends]
  by_cases isCr : text.getLast? = some cr
  · obtain ⟨early, rfl⟩ := List.getLast?_eq_some_iff.1 isCr
    simp [stripLast]
  · rw [stripLast_of_ne isCr, if_neg isCr]

theorem unended_append_cr (text : Bytes) : (text ++ [cr]).getLast? ≠ some lf := by
  rw [List.getLast?_concat]
  decide

/-- A CR at the end is stripped although no LF follows it. -/
theorem content_append_cr (text : Bytes) : content (text ++ [cr]) = text := by
  rw [content_of_unended (unended_append_cr text)]
  simp [stripLast]

theorem content_append_cr_lf (text : Bytes) : content (text ++ [cr, lf]) = text := by
  have bare : text ++ [cr, lf] = text ++ [cr] ++ [lf] := by simp
  rw [bare, content_ended]
  simp [stripLast]

/-- **The terminator, and nothing else, is stripped of a line that does not end in CR.** -/
theorem eq_content_append_terminator_iff {line : Bytes} :
    line = content line ++ terminator line ↔ line.getLast? ≠ some cr := by
  constructor
  · intro whole last
    obtain ⟨text, rfl⟩ := List.getLast?_eq_some_iff.1 last
    rw [content_append_cr, terminator_of_ne (unended_append_cr text)] at whole
    simp at whole
  · intro notCr
    by_cases ended : line.getLast? = some lf
    · obtain ⟨text, rfl⟩ := List.getLast?_eq_some_iff.1 ended
      exact (content_append_terminator_ended text).symm
    · rw [content_of_unended ended, stripLast_of_ne notCr, terminator_of_ne ended, List.append_nil]

/-- What follows a head on the last line of a text is matched but for a CR at its end. -/
theorem content_append_of_unbroken {head rest : Bytes} (headNotCr : head.getLast? ≠ some cr)
    (unbroken : lf ∉ head ++ rest) : content (head ++ rest) = head ++ stripLast cr rest := by
  rw [content_of_unended fun last => unbroken (List.mem_of_getLast? last)]
  by_cases none : rest = []
  · subst none
    rw [List.append_nil, stripLast_of_ne headNotCr]
    exact (List.append_nil head).symm
  · simp only [stripLast, List.getLast?_append_of_ne_nil _ none]
    split
    · rw [List.dropLast_append_of_ne_nil none]
    · rfl

/-- Only the last line of a text can end in a CR, and does so if the text does. -/
theorem getLast?_getElem_split_eq_cr_iff {text : Bytes} {number : Nat}
    (within : number < (split text).length) :
    (split text)[number].getLast? = some cr ↔
      number + 1 = (split text).length ∧ text.getLast? = some cr := by
  by_cases last : number + 1 = (split text).length
  · have ne_nil := ((isCut_split text).isLine _ (List.getElem_mem within)).ne_nil
    have whole := calc
      text = (split text).flatten := (flatten_split text).symm
      _ = ((split text).take (number + 1)).flatten := by rw [List.take_of_length_le last.ge]
      _ = ((split text).take number).flatten ++ (split text)[number] := by
        rw [← List.take_append_getElem within, List.flatten_append, List.flatten_singleton]
    have same : text.getLast? = (split text)[number].getLast? :=
      (congrArg List.getLast? whole).trans (List.getLast?_append_of_ne_nil _ ne_nil)
    rw [same]
    exact (and_iff_right last).symm
  -- every other line ends in LF
  · have early : number < (split text).dropLast.length := by
      rw [List.length_dropLast]
      omega
    have ended := (isCut_split text).ended _ (List.getElem_mem early)
    rw [List.getElem_dropLast] at ended
    rw [ended]
    exact iff_of_false (by decide) fun both => last both.1

end Line

/-! ## The contents of the lines of an index -/

namespace LineIndex

/-- What is matched of the line of a number, if there are so many. -/
def content? (index : LineIndex) (number : Nat) : Except Panic (Option Bytes) := do
  let line ← index.get? number
  return line.map Line.content

/-- The line of this number is what is matched of it, and its terminator. -/
def StripsTerminator (index : LineIndex) (number : Nat) : Prop :=
  ∃ line content, index.get? number = .ok (some line) ∧
    index.content? number = .ok (some content) ∧ line = content ++ Line.terminator line

variable {text : Bytes} {number : Nat}

theorem get?_of_lt (within : number < (Line.split text).length) :
    (ofText text).get? number = .ok (some (Line.split text)[number]) := by
  rw [get?_ofText, List.getElem?_eq_getElem within]

theorem content?_of_lt (within : number < (Line.split text).length) :
    (ofText text).content? number = .ok (some (Line.content (Line.split text)[number])) := by
  rw [content?, get?_of_lt within]
  rfl

/-- **Only the terminator is stripped of a line, unless it is the last one of a text that ends in
CR.** -/
theorem stripsTerminator_iff (within : number < (ofText text).length) :
    (ofText text).StripsTerminator number ↔
      ¬ (number + 1 = (ofText text).length ∧ text.getLast? = some cr) := by
  rw [length_ofText] at within ⊢
  rw [← Line.getLast?_getElem_split_eq_cr_iff within, ← ne_eq,
    ← Line.eq_content_append_terminator_iff]
  constructor
  · rintro ⟨line, content, gets, reads, whole⟩
    cases (get?_of_lt within).symm.trans gets
    cases (content?_of_lt within).symm.trans reads
    exact whole
  · intro whole
    exact ⟨_, _, get?_of_lt within, content?_of_lt within, whole⟩

/-- Of the last line of a text that ends in CR, the CR is stripped. -/
theorem exists_content?_of_cr (ended : text.getLast? = some cr) :
    ∃ number content, number + 1 = (ofText text).length ∧
      (ofText text).get? number = .ok (some (content ++ [cr])) ∧
      (ofText text).content? number = .ok (some content) := by
  have nonempty : text ≠ [] := by rintro rfl; cases ended
  have counted := List.length_pos_iff.2 (Line.split_ne_nil nonempty)
  obtain ⟨number, isLast⟩ := Nat.exists_eq_add_one.2 counted
  have within : number < (Line.split text).length := by omega
  have last := (Line.getLast?_getElem_split_eq_cr_iff within).2 ⟨isLast.symm, ended⟩
  obtain ⟨content, isLine⟩ := List.getLast?_eq_some_iff.1 last
  refine ⟨number, content, by rw [length_ofText, isLast], ?_, ?_⟩
  · rw [get?_of_lt within, isLine]
  · rw [content?_of_lt within, isLine, Line.content_append_cr]

end LineIndex

/-! ## What is read at the end of a diff -/

namespace Dialect

variable {dialect : Dialect} {text orig new : Bytes} {records : List FileRecord}

variable (dialect) in
/-- **How the last line ends does not matter**, and a CR is as good an end as an LF is. -/
theorem parse_append_lineEnd {ending : Bytes} (isEnd : ending ∈ [[lf], [cr, lf], [cr]])
    (ne_nil : text ≠ []) (noLf : text.getLast? ≠ some lf) (noCr : text.getLast? ≠ some cr) :
    dialect.parse (text ++ ending) =
      (dialect.parse text).map (List.modifyLast (·.followed ending)) := by
  have unbroken : lf ∉ ending.dropLast := by
    revert ending
    decide
  refine dialect.parse_append_of_readsAs ne_nil noLf unbroken fun line member unended => ?_
  have notCr : line.getLast? ≠ some cr := by
    obtain ⟨number, within, rfl⟩ := List.getElem_of_mem member
    rw [ne_eq, Line.getLast?_getElem_split_eq_cr_iff within]
    exact fun last => noCr last.2
  rw [Line.ReadsAs, Line.content_of_unended unended, Line.stripLast_of_ne notCr]
  simp only [List.mem_cons, List.not_mem_nil, or_false] at isEnd
  rcases isEnd with rfl | rfl | rfl
  · exact Line.content_ended_of_ne notCr
  · exact Line.content_append_cr_lf line
  · exact Line.content_append_cr line

/-- A boundary at the end of a diff opens one more section, of which nothing else is known. -/
theorem parse_append_opening {boundary : List Bytes} {opening : Opening}
    (ended : text = [] ∨ text.getLast? = some lf) (through : dialect.ReadsThrough text records)
    (cut : Line.IsCut boundary) (counted : boundary.length = opening.lineCount)
    (opens : dialect.open? boundary = .ok (some opening)) :
    ∃ earlier record, dialect.parse (text ++ boundary.flatten) = .ok (earlier ++ [record]) ∧
      earlier.length = records.length ∧ record.toFileFacts = opening.facts := by
  have starts := (dialect.open?_ne_none_iff boundary).1 (by simp [opens])
  obtain ⟨closed, previous, pending, reaches, -, shown, -⟩ := reaches_seam through starts
  rw [← List.append_nil boundary] at opens
  have started := Reader.Step.start_append dialect.cutRule closed previous pending
    (Line.split text).length counted opens
  rw [List.append_nil] at started
  -- the boundary is all that is ahead, so the reader closes right behind it
  have final := Relation.ReflTransGen.tail reaches started
  refine ⟨((previous.map Draft.close).toList ++ closed).reverse,
    (Reader.startDraft opening pending boundary).close, ?_, ?_, ?_⟩
  · rw [parse, parseWith_eq_ok_iff, Line.split_append _ _ ended, Line.split_flatten cut]
    exact ⟨_, final, rfl, by simp [Reader.close]⟩
  · rw [shown, length_modifyLast]
  · rw [Reader.startDraft_eq]
    rfl

theorem newPath_addRevision (rest : Bytes) (facts : FileFacts) :
    (unified.addRevision .new rest facts).newPath = Text.lossy (revisionName rest) := by
  simp only [addRevision, pairPath?]
  split <;> rfl

/-- **A path at the end of a diff has all its octets, but for a CR at their end.** -/
theorem newPath_of_parse_append (ended : text = [] ∨ text.getLast? = some lf)
    (through : unified.ReadsThrough text records) (origLine : lf ∉ orig) (newLine : lf ∉ new) :
    ∃ earlier record,
      unified.parse (text ++ (origHead ++ orig ++ [lf]) ++ (newHead ++ new)) =
        .ok (earlier ++ [record]) ∧
      earlier.length = records.length ∧
      record.newPath = Text.lossy (revisionName (Line.stripLast cr new)) := by
  have noLfOrig : lf ∉ origHead ++ orig := by
    rw [List.mem_append, not_or]
    exact ⟨by decide, origLine⟩
  have noLfNew : lf ∉ newHead ++ new := by
    rw [List.mem_append, not_or]
    exact ⟨by decide, newLine⟩
  have cut : Line.IsCut [origHead ++ orig ++ [lf], newHead ++ new] := by
    refine Line.isCut_cons ⟨by simp, by simpa using noLfOrig⟩ (by simp) (Line.isCut_singleton ?_)
    exact ⟨List.append_ne_nil_of_left_ne_nil (by decide) new,
      fun member => noLfNew (List.dropLast_subset _ member)⟩
  have opens : ∃ facts, unified.open? [origHead ++ orig ++ [lf], newHead ++ new] =
      .ok (some ⟨facts, true⟩) ∧
        facts.newPath = Text.lossy (revisionName (Line.stripLast cr new)) := by
    have origContent : Line.content (origHead ++ orig ++ [lf]) =
        origHead ++ Line.stripLast cr orig := by
      rw [Line.content_ended, ← Line.content_append_of_unbroken (by decide) noLfOrig,
        Line.content_of_unended fun last => noLfOrig (List.mem_of_getLast? last)]
    have newContent := Line.content_append_of_unbroken (by decide) noLfNew
    simp only [open?, origContent, newContent, after?_append]
    exact ⟨_, rfl, newPath_addRevision _ _⟩
  obtain ⟨facts, opens, newPath⟩ := opens
  obtain ⟨earlier, record, parsed, count, same⟩ :=
    parse_append_opening ended through cut rfl opens
  refine ⟨earlier, record, ?_, count, ?_⟩
  · rw [← parsed]
    simp
  · rw [same, newPath]

end Dialect

/-! ## The rule, and the text that breaks it -/

namespace LineIndex

/-- **Terminators are stripped, and a CR at the end of the text.** Every line is what is matched of
it and its terminator, unless it is the last line of a text that ends in CR: that CR is stripped. So
a reader does not see how a diff ends. To it a CR alone ends the last line as LF and CR LF do, and a
path at the end of a diff has its octets but for a CR at their end. -/
theorem stripsTerminator_ofText (text : Bytes) :
    (∀ number < (ofText text).length, (ofText text).StripsTerminator number ↔
      ¬ (number + 1 = (ofText text).length ∧ text.getLast? = some cr)) ∧
    (text.getLast? = some cr → ∃ number content, number + 1 = (ofText text).length ∧
      (ofText text).get? number = .ok (some (content ++ [cr])) ∧
      (ofText text).content? number = .ok (some content)) ∧
    (∀ (dialect : Dialect), ∀ ending ∈ [[lf], [cr, lf], [cr]],
      text ≠ [] → text.getLast? ≠ some lf → text.getLast? ≠ some cr →
      dialect.parse (text ++ ending) =
        (dialect.parse text).map (List.modifyLast (·.followed ending))) ∧
    (∀ records orig new, text = [] ∨ text.getLast? = some lf →
      Dialect.unified.ReadsThrough text records → lf ∉ orig → lf ∉ new →
      ∃ earlier record,
        Dialect.unified.parse
            (text ++ (Dialect.origHead ++ orig ++ [lf]) ++ (Dialect.newHead ++ new)) =
          .ok (earlier ++ [record]) ∧
        earlier.length = records.length ∧
        record.newPath = Text.lossy (Dialect.revisionName (Line.stripLast cr new))) :=
  ⟨fun _ within => stripsTerminator_iff within, exists_content?_of_cr,
    fun dialect _ isEnd => dialect.parse_append_lineEnd isEnd,
    fun _ _ _ => Dialect.newPath_of_parse_append⟩

/-- Lines that end in CR CR LF, CR LF, LF and CR. The last one gives a path. -/
theorem stripsTerminator_ofText_blank_lines :
    let lead := ofAscii "\r\r\n\r\n\n"
    let text :=
      lead ++ (Dialect.origHead ++ ofAscii "a" ++ [lf]) ++ (Dialect.newHead ++ ofAscii "b")
    let cut := text ++ [cr]
    (ofText cut).length = 5 ∧ (ofText cut).StripsTerminator 0 ∧
    (ofText cut).content? 0 = .ok (some [cr]) ∧ cut.getLast? = some cr ∧
    (∃ number content, number + 1 = 5 ∧
      (ofText cut).get? number = .ok (some (content ++ [cr])) ∧
      (ofText cut).content? number = .ok (some content)) ∧
    (text ≠ [] ∧ text.getLast? ≠ some lf ∧ text.getLast? ≠ some cr) ∧
    (∃ records, Dialect.unified.parse text = .ok records ∧
      Dialect.unified.parse cut = .ok (records.modifyLast (·.followed [cr]))) ∧
    Dialect.unified.ReadsThrough lead [] ∧
    ∃ earlier record, Dialect.unified.parse cut = .ok (earlier ++ [record]) ∧
      earlier.length = 0 ∧ record.newPath = Text.lossy (ofAscii "b") := by
  intro lead text cut
  have length : (ofText cut).length = 5 := by decide +kernel
  have ended : cut.getLast? = some cr := by decide +kernel
  have openEnd : text ≠ [] ∧ text.getLast? ≠ some lf ∧ text.getLast? ≠ some cr := by
    decide +kernel
  have through : Dialect.unified.ReadsThrough lead [] := .inl (by decide +kernel)
  obtain ⟨strips, lastLine, -, -⟩ := stripsTerminator_ofText cut
  obtain ⟨-, -, sameEnd, -⟩ := stripsTerminator_ofText text
  obtain ⟨-, -, -, path⟩ := stripsTerminator_ofText lead
  have first : (ofText cut).StripsTerminator 0 := by
    refine (strips 0 (by rw [length]; decide)).2 fun last => ?_
    rw [length] at last
    exact absurd last.1 (by decide)
  obtain ⟨records, parsed, -⟩ :=
    Dialect.exists_parse_of_length .unified text 1 (by decide +kernel)
  have parsedCut : Dialect.unified.parse cut = .ok (records.modifyLast (·.followed [cr])) := by
    rw [sameEnd .unified [cr] (by decide) openEnd.1 openEnd.2.1 openEnd.2.2, parsed]
    rfl
  refine ⟨length, first, by decide +kernel, ended, ?_, openEnd, ⟨records, parsed, parsedCut⟩,
    through, ?_⟩
  · rw [← length]
    exact lastLine ended
  · exact path [] (ofAscii "a") (ofAscii "b\r") (.inr (by decide +kernel)) through (by decide)
      (by decide)

/-- **A path loses an octet that is no part of a line end.** The text ends in a CR without LF. -/
theorem not_stripsTerminator_of_last_cr :
    let text := ofAscii "--- a\n+++ b\r"
    1 < (ofText text).length ∧ ¬ (ofText text).StripsTerminator 1 ∧
      (ofText text).get? 1 = .ok (some (ofAscii "+++ b\r")) ∧
      (ofText text).content? 1 = .ok (some (ofAscii "+++ b")) ∧
      ∃ record, Dialect.unified.parse text = .ok [record] ∧ record.newPath = "b" := by
  intro text
  have line : (ofText text).get? 1 = .ok (some (ofAscii "+++ b\r")) := by decide +kernel
  have matched : (ofText text).content? 1 = .ok (some (ofAscii "+++ b")) := by decide +kernel
  obtain ⟨records, parsed, paths⟩ := Dialect.exists_parse_of_look .unified text
    (fun records => records.map fun record => record.newPath) ["b"] (by decide +kernel)
  obtain ⟨record, rfl, newPath⟩ := List.map_eq_singleton_iff.1 paths
  refine ⟨by decide +kernel, ?_, line, matched, record, parsed, newPath⟩
  rintro ⟨other, content, gets, reads, whole⟩
  cases line.symm.trans gets
  cases matched.symm.trans reads
  exact absurd whole (by decide)

end LineIndex

end DiffSections
