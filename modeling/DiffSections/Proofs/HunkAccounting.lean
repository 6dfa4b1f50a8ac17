import DiffSections.Proofs.Section

/-!
# DiffSections.Proofs.HunkAccounting -- hunks count their lines, and sections their hunks

In a diff that is read, each section is laid out as a lead, a block of lines for each hunk and a
tail (`FileRecord.LaidOut`); the counts of a section are the sums of those of its hunks; and each
block has exactly the lines of either side that its header declares, counted by the hunk.
-/

namespace DiffSections

set_option autoImplicit false

/-- The lines of a closed section are laid out, and its counts are those of its hunks. -/
structure FileRecord.LaidOut (record : FileRecord) : Prop where
  insertions : record.insertions = (record.hunks.map (·.insertions)).sum
  deletions : record.deletions = (record.hunks.map (·.deletions)).sum
  layout : Layout record.hunks (Line.split record.body)

namespace Draft

variable {draft : Draft} {data : Bytes}

/-- A section is closed laid out, with lines of the diff that follow its own. -/
theorem laidOut_close_append {pending : List Bytes} (balanced : draft.Balanced)
    (layout : Layout draft.hunks.reverse draft.pieces.reverse)
    (within : draft.pieces.reverse ++ pending <:+: Line.split data) :
    (draft.append pending.flatten).close.LaidOut where
  insertions := by
    simp only [close, hunks_append, List.map_reverse, List.sum_reverse]
    exact balanced.insertions
  deletions := by
    simp only [close, hunks_append, List.map_reverse, List.sum_reverse]
    exact balanced.deletions
  layout := by
    show Layout draft.hunks.reverse (Line.split (draft.append pending.flatten).text)
    rw [text_append, text, ← List.flatten_append, Line.split_flatten_of_stretch within]
    exact layout.append pending

theorem laidOut_close (balanced : draft.Balanced)
    (layout : Layout draft.hunks.reverse draft.pieces.reverse)
    (within : draft.pieces.reverse <:+: Line.split data) : draft.close.LaidOut := by
  have appended : (draft.append ([] : List Bytes).flatten).close.LaidOut :=
    laidOut_close_append balanced layout (by simpa using within)
  rwa [List.flatten_nil, close_append_nil] at appended

end Draft

namespace Reader

variable {dialect : Dialect} {cuts : CutRule} {data : Bytes} {reader : Reader}

/-- The closed sections and the one in hand are laid out. -/
structure LaidOut (reader : Reader) : Prop where
  closed : ∀ record ∈ reader.closed, record.LaidOut
  state : reader.state.LaidOut

theorem Reaches.laidOut (reaches : Reaches dialect cuts (ofLines (Line.split data)) reader) :
    reader.LaidOut := by
  induction reaches with
  | refl => exact ⟨by simp [ofLines], by simp [ofLines, ReaderState.LaidOut]⟩
  | tail reaches stepped ih =>
      obtain ⟨earlier, same⟩ := Reaches.follows reaches
      cases stepped with
      | skip => exact ⟨ih.closed, ih.state⟩
      | @start closed previous pending passed line lines opening opens =>
          refine ⟨fun record member => ?_, laidOut_startDraft opens pending⟩
          rcases List.mem_append.1 member with justClosed | before
          · cases previous with
            | none => cases justClosed
            | some draft =>
                obtain ⟨balanced, layout⟩ := ih.state draft rfl
                rw [List.mem_singleton.1 justClosed]
                exact Draft.laidOut_close balanced layout
                  ⟨earlier, pending.reverse ++ line :: lines,
                    by simpa [ReaderState.lines] using same⟩
          · exact ih.closed record before
      | inside moves =>
          have inside := ih.state
          refine ⟨by simpa using ih.closed, ?_⟩
          rw [state_move]
          exact moves.laidOut inside.1 inside.2

/-- All records that a reader closes with are laid out. -/
theorem LaidOut.close {records : List FileRecord} (laidOut : reader.LaidOut)
    (follows : reader.Follows (Line.split data)) (closes : reader.close dialect = .ok records) :
    ∀ record ∈ records, record.LaidOut := by
  obtain ⟨earlier, same⟩ := follows
  have state := laidOut.state
  intro record member
  rcases close_eq_ok closes with ⟨draft, place, inside, notHunk, rfl⟩ |
    ⟨draft, pending, seeking, rfl⟩ | ⟨pending, seeking, -, rfl⟩
  · rcases List.mem_append.1 member with before | last
    · exact laidOut.closed record (List.mem_reverse.1 before)
    · rw [inside] at state same
      rw [List.mem_singleton.1 last]
      exact Draft.laidOut_close state.1 (state.2.layout notHunk)
        ⟨earlier, reader.ahead, by simpa [ReaderState.lines] using same⟩
  · rcases List.mem_append.1 member with before | last
    · exact laidOut.closed record (List.mem_reverse.1 before)
    · rw [seeking] at state same
      obtain ⟨balanced, layout⟩ := state draft rfl
      rw [List.mem_singleton.1 last]
      exact Draft.laidOut_close_append balanced layout
        ⟨earlier, reader.ahead, by simpa [ReaderState.lines] using same⟩
  · exact laidOut.closed record (List.mem_reverse.1 member)

end Reader

/-- All records that are read are laid out. -/
theorem Dialect.laidOut_of_parse {dialect : Dialect} {data : Bytes} {records : List FileRecord}
    (parsed : dialect.parse data = .ok records) : ∀ record ∈ records, record.LaidOut := by
  obtain ⟨final, reaches, -, closes⟩ := Dialect.parseWith_eq_ok_iff.1 parsed
  exact reaches.laidOut.close reaches.follows closes

/-! ## What a block says about its hunk -/

/-- A block holds what its hunk declares: a header with these ranges, and after it exactly the
declared lines of either side, which the hunk has counted. -/
def Hunk.CountedIn (hunk : Hunk) (block : List Bytes) : Prop :=
  ∃ header body, block = header :: body ∧
    Hunk.ofHeader? (Line.content header) = some hunk.declared ∧
    (∀ line ∈ body, BodyLine.ofContent? (Line.content line) ≠ none) ∧
    hunk.insertions = Hunk.countKind .added body ∧ hunk.deletions = Hunk.countKind .removed body ∧
    hunk.origLen = hunk.deletions + Hunk.countKind .context body ∧
    hunk.newLen = hunk.insertions + Hunk.countKind .context body

theorem Hunk.FilledBy.countedIn {hunk : Hunk} {block : List Bytes} (filled : hunk.FilledBy block) :
    hunk.CountedIn block := by
  obtain ⟨last, header, opened, body, rfl, opens, read⟩ := filled
  obtain ⟨rfl, accounts⟩ := read.accounts (Hunk.declared_of_ofHeader? opens)
  exact ⟨header, body, rfl, opens, accounts.bodyLines, accounts.insertions, accounts.deletions,
    accounts.origLen, accounts.newLen⟩

/-- **Hunks count their lines, and sections their hunks.** The lines of each section that is read
are a lead that announces no hunk, one block for each hunk, in which it is counted, and a tail. -/
theorem Dialect.hunks_countedIn_of_parse {dialect : Dialect} {data : Bytes}
    {records : List FileRecord} (parsed : dialect.parse data = .ok records) :
    ∀ record ∈ records,
      record.insertions = (record.hunks.map (·.insertions)).sum ∧
      record.deletions = (record.hunks.map (·.deletions)).sum ∧
      ∃ lead blocks tail, Line.split record.body = lead ++ blocks.flatten ++ tail ∧
        Unannounced lead ∧ List.Forall₂ Hunk.CountedIn record.hunks blocks := by
  intro record member
  obtain ⟨final, reaches, -, closes⟩ := Dialect.parseWith_eq_ok_iff.1 parsed
  have laidOut := reaches.laidOut.close reaches.follows closes record member
  obtain ⟨lead, blocks, tail, lined, unannounced, filled⟩ := laidOut.layout
  exact ⟨laidOut.insertions, laidOut.deletions, lead, blocks, tail, lined, unannounced,
    filled.imp fun _ _ => Hunk.FilledBy.countedIn⟩

/-- Two hunks, a marker between body lines, an empty line as context, and a hunk without lines. -/
theorem Dialect.hunks_countedIn_of_parse_three_hunks :
    let data := Bytes.ofAscii
      "--- a\n+++ b\n@@ -1,2 +1,2 @@\n-p\n\\ none\n+q\n\n@@ -9,0 +9,0 @@\n@@ -20,0 +20 @@ f\n+r\n"
    ∃ record, Dialect.unified.parse data = .ok [record] ∧
      record.insertions = (record.hunks.map (·.insertions)).sum ∧
      record.deletions = (record.hunks.map (·.deletions)).sum ∧
      ∃ lead blocks tail, Line.split record.body = lead ++ blocks.flatten ++ tail ∧
        Unannounced lead ∧ List.Forall₂ Hunk.CountedIn record.hunks blocks := by
  intro data
  obtain ⟨records, parsed, one⟩ :=
    Dialect.exists_parse_of_length .unified data 1 (by decide +kernel)
  obtain ⟨record, rfl⟩ := List.length_eq_one_iff.1 one
  exact ⟨record, parsed, Dialect.hunks_countedIn_of_parse parsed record (by simp)⟩

end DiffSections
