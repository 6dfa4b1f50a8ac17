import DiffSections.Proofs.Reader.Locality
import DiffSections.Proofs.Reader.Sections
import DiffSections.Proofs.Section

/-!
# DiffSections.Proofs.SelfContained -- a record needs no lines but its own

The lines of a diff that is read are, record by record, the lines of its preamble and those of its
section (`FileRecord.lines`). A reader that is given the lines of one record only goes the same way
(`Reader.Retraced`): what it does inside a section is decided without the lines that come after,
and the last line of the text before a boundary is followed by the boundary in both. So each record
is read back from its own octets (`Dialect.parse_data_of_parse`).
-/

namespace DiffSections

set_option autoImplicit false

/-! ## Lines between sections -/

namespace Dialect

variable {dialect : Dialect} {line : Bytes} {lines ahead ahead' : List Bytes}

/-- No section starts in these lines, if `ahead` comes after them. -/
def Quiet (dialect : Dialect) : List Bytes → List Bytes → Prop
  | [], _ => True
  | line :: lines, ahead =>
      dialect.startsSection (line :: (lines ++ ahead)) = false ∧ dialect.Quiet lines ahead

theorem Quiet.append_singleton (quiet : dialect.Quiet lines (line :: ahead))
    (here : dialect.startsSection (line :: ahead) = false) :
    dialect.Quiet (lines ++ [line]) ahead := by
  induction lines with
  | nil => exact ⟨here, trivial⟩
  | cons first lines ih => exact ⟨by simpa using quiet.1, ih quiet.2⟩

/-- Only the first line that comes after counts. -/
theorem Quiet.congr (quiet : dialect.Quiet lines ahead) (same : ahead'.head? = ahead.head?) :
    dialect.Quiet lines ahead' := by
  induction lines with
  | nil => trivial
  | cons first lines ih =>
      refine ⟨?_, ih quiet.2⟩
      rw [← quiet.1]
      cases lines with
      | nil => exact startsSection_congr same
      | cons => exact startsSection_congr rfl

/-- A reader between two sections passes over such lines. -/
theorem Quiet.reaches (quiet : dialect.Quiet lines ahead) (cuts : CutRule)
    (closed : List FileRecord) (previous : Option Draft) (pending : List Bytes) (passed : Nat) :
    Reader.Reaches dialect cuts ⟨closed, .seeking previous pending, passed, lines ++ ahead⟩
      ⟨closed, .seeking previous (lines.reverse ++ pending), passed + lines.length, ahead⟩ := by
  induction lines generalizing pending passed with
  | nil => exact .refl
  | cons line lines ih =>
      have later := ih quiet.2 (line :: pending) (passed + 1)
      rw [List.reverse_cons, List.append_assoc, List.singleton_append, List.length_cons,
        Nat.add_comm lines.length, ← Nat.add_assoc]
      exact .head (.skip (open?_eq_none_iff.2 quiet.1)) later

end Dialect

/-! ## Moves that do not depend on what comes after -/

section Moves

variable {dialect : Dialect} {cuts : CutRule} {draft : Draft} {line : Bytes} {lines : List Bytes}
  {place : Place} {state : ReaderState}

theorem SectionMove.takes_one (moves : SectionMove dialect cuts draft line lines place (.one state))
    (payload : place = .payload → dialect = .git) :
    Takes dialect (.reading draft place) [line] state := by
  refine .of_move fun lines' => moves.of_lines (fun notHunk => ?_) (by simp) fun _ _ _ => rfl
  have starts := moves.startsSection_eq_false (by simp) notHunk payload
  rw [starts, starts]

theorem SectionMove.takes_two (moves : SectionMove dialect cuts draft line lines place (.two state))
    (payload : place = .payload → dialect = .git) :
    ∃ next later, lines = next :: later ∧
      Takes dialect (.reading draft place) [line, next] state := by
  obtain ⟨next, later, rfl⟩ := moves.exists_next
  refine ⟨next, later, rfl, .of_move_two fun lines' => ?_⟩
  refine moves.of_lines (fun notHunk => ?_) (fun _ _ => rfl) fun _ _ _ => rfl
  have starts := moves.startsSection_eq_false (by simp) notHunk payload
  rw [starts, starts]

theorem SectionMove.ne_hunk_of_handBack {later : Draft}
    (moves : SectionMove dialect cuts draft line lines place (.handBack later)) :
    later = draft ∧ ∀ left last, place ≠ .hunk left last := by
  cases moves <;> exact ⟨rfl, by simp⟩

/-- A section that one line completes has no text after it yet. -/
theorem SectionMove.of_one_seeking {previous : Option Draft} {pending : List Bytes}
    (moves : SectionMove dialect cuts draft line lines place (.one (.seeking previous pending))) :
    ∃ later, previous = some later ∧ pending = [] := by
  cases moves
  exact ⟨_, rfl, rfl⟩

theorem SectionMove.of_two
    (moves : SectionMove dialect cuts draft line lines place (.two state)) :
    ∃ later place, state = .reading later place := by
  cases moves
  exact ⟨_, _, rfl⟩

end Moves

/-! ## The lines of a record -/

/-- The lines of a record: those of its preamble, and those of its section. -/
def FileRecord.lines (record : FileRecord) : List Bytes :=
  Line.split record.preamble ++ Line.split record.body

namespace Draft

/-- The lines of a section in hand, behind those of its preamble. -/
def lines (draft : Draft) : List Bytes :=
  Line.split (draft.preamble.getD []) ++ draft.pieces.reverse

variable {draft : Draft} {all : List Bytes}

/-- A section that is closed with lines of the diff after it has these lines too. -/
theorem lines_close_append {pending : List Bytes} (cut : Line.IsCut all)
    (within : draft.lines ++ pending <:+: all) :
    (draft.append pending.flatten).close.lines = draft.lines ++ pending := by
  have stretch : draft.pieces.reverse ++ pending <:+: all :=
    .trans ⟨Line.split (draft.preamble.getD []), [], by simp [lines]⟩ within
  show Line.split (draft.preamble.getD []) ++ Line.split (draft.append pending.flatten).text = _
  rw [text_append, text, ← List.flatten_append, Line.split_flatten (cut.of_stretch stretch),
    lines, List.append_assoc]

theorem lines_close (cut : Line.IsCut all) (within : draft.lines <:+: all) :
    draft.close.lines = draft.lines := by
  have appended : (draft.append (List.flatten [])).close.lines = draft.lines ++ [] :=
    lines_close_append cut (by simpa using within)
  rwa [List.flatten_nil, close_append_nil, List.append_nil] at appended

end Draft

/-- The lines of the section in hand and of the text after it. -/
def ReaderState.allLines : ReaderState → List Bytes
  | .seeking previous pending => (previous.map Draft.lines).getD [] ++ pending.reverse
  | .reading draft _ => draft.lines

/-- The lines that a move takes are added to those of the section. -/
theorem SectionMove.allLines {dialect : Dialect} {cuts : CutRule} {draft : Draft} {line : Bytes}
    {lines : List Bytes} {place : Place} {move : Move}
    (moves : SectionMove dialect cuts draft line lines place move) :
    match move with
    | .one state => state.allLines = draft.lines ++ [line]
    | .two state => ∃ next later, lines = next :: later ∧
        state.allLines = draft.lines ++ [line, next]
    | .handBack later => later = draft := by
  cases moves with
  | headerBoundary | payloadBoundary | text | afterHunks => rfl
  | pair _ _ _ _ ahead => exact ⟨_, _, ahead, by simp [ReaderState.allLines, Draft.lines]⟩
  | summary | patch | extended | firstHunk | payloadLine | marker | change | lateMarker
  | nextHunk => simp [ReaderState.allLines, Draft.lines]

/-! ## Reading a record alone -/

section Alone

variable {dialect : Dialect} {lines : List Bytes} {state : ReaderState} {record : FileRecord}

/-- A plain reader that is given these lines only reads them into the one record. -/
def Dialect.ReadsAlone (dialect : Dialect) (lines : List Bytes) (record : FileRecord) : Prop :=
  ∃ final, Reader.Reaches dialect .never (Reader.ofLines lines) final ∧ final.ahead = [] ∧
    final.close dialect = .ok [record]

theorem Takes.readsAlone (takes : Takes dialect (.seeking none []) lines state)
    (closes : ∀ passed, Reader.close dialect ⟨[], state, passed, []⟩ = .ok [record]) :
    dialect.ReadsAlone lines record := by
  have reaches := takes [] 0 []
  rw [List.append_nil] at reaches
  exact ⟨_, reaches, rfl, closes _⟩

/-- A reader that is given the lines of the section in hand, and those after it, gets to the same
state. -/
def ReaderState.Retraced (dialect : Dialect) (ahead : List Bytes) : ReaderState → Prop
  | .seeking none pending => dialect.Quiet pending.reverse ahead
  | .seeking (some draft) pending =>
      dialect.Quiet pending.reverse ahead ∧ dialect.ReadsAlone draft.lines draft.close ∧
        ∃ passed, Reader.Reaches dialect .never
          (Reader.ofLines (draft.lines ++ (pending.reverse ++ ahead)))
          ⟨[], .seeking (some draft) pending, passed, ahead⟩
  | .reading draft place => Takes dialect (.seeking none []) draft.lines (.reading draft place)

/-- What was taken of a section, up to the line that ends it, is the section. -/
theorem ReaderState.retraced_handBack {draft : Draft} {place : Place} {line : Bytes}
    (takes : Takes dialect (.seeking none []) draft.lines (.reading draft place))
    (moves : SectionMove dialect .never draft line lines place (.handBack draft)) :
    ReaderState.Retraced dialect (line :: lines) (.seeking (some draft) []) := by
  have alone := takes.readsAlone fun passed =>
    Reader.close_reading moves.ne_hunk_of_handBack.2 [] passed []
  have reaches := (takes [] 0 (line :: lines)).tail (.inside moves)
  exact ⟨trivial, alone, _, reaches⟩

/-- A section that is complete after these lines is the section, whatever comes next. -/
theorem ReaderState.retraced_seeking {draft : Draft} (ahead : List Bytes)
    (takes : Takes dialect (.seeking none []) draft.lines (.seeking (some draft) [])) :
    ReaderState.Retraced dialect ahead (.seeking (some draft) []) := by
  refine ⟨trivial, takes.readsAlone fun passed => ?_, _, takes [] 0 ahead⟩
  simp [Reader.close, Draft.close_append_nil]

/-- **A move is made alone too.** -/
theorem SectionMove.retraced {draft : Draft} {place : Place} {line : Bytes} {move : Move}
    {closed : List FileRecord} {passed : Nat} {next : Reader}
    (moves : SectionMove dialect .never draft line lines place move)
    (payload : place = .payload → dialect = .git)
    (takes : Takes dialect (.seeking none []) draft.lines (.reading draft place))
    (moved : next = Reader.move ⟨closed, .reading draft place, passed, line :: lines⟩ move) :
    next.state.Retraced dialect next.ahead := by
  subst moved
  have taken := moves.allLines
  cases move with
  | handBack later =>
      obtain rfl : later = draft := taken
      exact ReaderState.retraced_handBack takes moves
  | one state =>
      have further := takes.append (moves.takes_one payload)
      rw [← taken] at further
      cases state with
      | reading draft place => exact further
      | seeking previous pending =>
          obtain ⟨later, rfl, rfl⟩ := moves.of_one_seeking
          exact ReaderState.retraced_seeking lines (by simpa [ReaderState.allLines] using further)
  | two state =>
      obtain ⟨next, later, rfl, taken⟩ := taken
      obtain ⟨_, _, ⟨⟩, takesTwo⟩ := moves.takes_two payload
      have further := takes.append takesTwo
      rw [← taken] at further
      obtain ⟨later, place, rfl⟩ := moves.of_two
      exact further

/-- **A boundary is found alone too**, behind the lines of its preamble. -/
theorem ReaderState.retraced_start {opening : Opening} {pending ahead all : List Bytes}
    (cut : Line.IsCut all) (within : pending.reverse <:+: all)
    (quiet : dialect.Quiet pending.reverse ahead)
    (opens : dialect.open? ahead = .ok (some opening)) :
    ReaderState.Retraced dialect (ahead.drop opening.lineCount)
      (.reading (Reader.startDraft opening pending (ahead.take opening.lineCount))
        (.header opening.pairSeen)) := by
  obtain ⟨boundary, rest, rfl, counted, opens⟩ := Dialect.exists_boundary_of_opens opens
  rw [← counted, List.take_left]
  have isLines : (Reader.startDraft opening pending boundary).lines =
      pending.reverse ++ boundary := by
    rw [Reader.startDraft_eq]
    simp [Draft.lines, Line.split_flatten (cut.of_stretch within)]
  intro closed passed rest'
  obtain ⟨line, later, isBoundary⟩ : ∃ line later, boundary = line :: later :=
    List.exists_cons_of_length_pos (counted ▸ Reader.lineCount_pos opening)
  have same : (boundary ++ rest').head? = (boundary ++ rest).head? := by simp [isBoundary]
  have passes := (quiet.congr same).reaches .never closed none [] passed
  have started := Reader.Step.start_append .never closed none pending
    (passed + pending.length) counted (opens rest')
  rw [isLines, List.append_assoc, List.length_append, List.length_reverse, ← Nat.add_assoc]
  rw [List.reverse_reverse, List.append_nil, List.length_reverse] at passes
  exact passes.tail started

end Alone

namespace Reader

variable {dialect : Dialect} {all : List Bytes} {reader before after : Reader}

/-- The lines that a reader has taken are those of its records and of the section in hand, and each
of these is read alone. -/
structure Retraced (dialect : Dialect) (all : List Bytes) (reader : Reader) : Prop where
  whole : reader.closed.reverse.flatMap FileRecord.lines ++
    (reader.state.allLines ++ reader.ahead) = all
  closed : ∀ record ∈ reader.closed, dialect.ReadsAlone record.lines record
  state : reader.state.Retraced dialect reader.ahead

/-- The lines in hand are a stretch of those of the diff. -/
theorem Retraced.within (retraced : reader.Retraced dialect all) :
    reader.state.allLines <:+: all :=
  ⟨reader.closed.reverse.flatMap FileRecord.lines, reader.ahead, by
    rw [List.append_assoc]
    exact retraced.whole⟩

theorem allLines_move {closed : List FileRecord} {draft : Draft} {place : Place} {passed : Nat}
    {line : Bytes} {lines : List Bytes} {move : Move} {cuts : CutRule}
    (moves : SectionMove dialect cuts draft line lines place move) {next : Reader}
    (moved : next = Reader.move ⟨closed, .reading draft place, passed, line :: lines⟩ move) :
    next.state.allLines ++ next.ahead = draft.lines ++ line :: lines := by
  subst moved
  have taken := moves.allLines
  cases move with
  | handBack later =>
      obtain rfl : later = draft := taken
      simp [ReaderState.allLines]
  | one state =>
      have taken : state.allLines = draft.lines ++ [line] := taken
      simp [taken]
  | two state =>
      obtain ⟨next, later, rfl, taken⟩ := taken
      simp [taken]

/-- A section that was passed over is closed with its lines, and is read alone. -/
theorem Retraced.closed_start {previous : Option Draft} {pending ahead : List Bytes}
    {closed : List FileRecord} {passed : Nat} (cut : Line.IsCut all)
    (retraced : Retraced dialect all ⟨closed, .seeking previous pending, passed, ahead⟩) :
    (∀ record ∈ (previous.map Draft.close).toList ++ closed,
      dialect.ReadsAlone record.lines record) ∧
    ((previous.map Draft.close).toList ++ closed).reverse.flatMap FileRecord.lines =
      closed.reverse.flatMap FileRecord.lines ++ (previous.map Draft.lines).getD [] := by
  cases previous with
  | none => exact ⟨by simpa using retraced.closed, by simp⟩
  | some draft =>
      have within : draft.lines <:+: all :=
        .trans ⟨[], pending.reverse, by simp [ReaderState.allLines]⟩ retraced.within
      have lines := Draft.lines_close cut within
      refine ⟨fun record member => ?_, by simp [lines]⟩
      rcases List.mem_append.1 member with justClosed | earlier
      · rw [List.mem_singleton.1 justClosed, lines]
        exact retraced.state.2.1
      · exact retraced.closed record earlier

theorem Step.retraced (cut : Line.IsCut all) (stepped : Step dialect .never before after)
    (payload : ∀ draft, before.state = .reading draft .payload → dialect = .git)
    (retraced : before.Retraced dialect all) : after.Retraced dialect all := by
  cases stepped with
  | @skip closed previous pending passed line lines closedSection =>
      have here := Dialect.open?_eq_none_iff.1 closedSection
      refine ⟨?_, retraced.closed, ?_⟩
      · rw [← retraced.whole]
        simp [ReaderState.allLines]
      · have state := retraced.state
        cases previous with
        | none =>
            show dialect.Quiet (line :: pending).reverse lines
            rw [List.reverse_cons]
            exact Dialect.Quiet.append_singleton state here
        | some draft =>
            obtain ⟨quiet, alone, passed, reaches⟩ := state
            refine ⟨?_, alone, passed + 1, ?_⟩
            · rw [List.reverse_cons]
              exact quiet.append_singleton here
            · rw [List.reverse_cons, List.append_assoc, List.singleton_append]
              exact reaches.tail (.skip closedSection)
  | @start closed previous pending passed line lines opening opens =>
      obtain ⟨alone, lines_closed⟩ := retraced.closed_start cut
      have within : pending.reverse <:+: all :=
        .trans ⟨(previous.map Draft.lines).getD [], [], by simp [ReaderState.allLines]⟩
          retraced.within
      have quiet : dialect.Quiet pending.reverse (line :: lines) := by
        have state := retraced.state
        cases previous with
        | none => exact state
        | some draft => exact state.1
      refine ⟨?_, alone, ReaderState.retraced_start cut within quiet opens⟩
      rw [← retraced.whole]
      simp only [Reader.start, take, lines_closed, ReaderState.allLines, Draft.lines, startDraft_eq,
        Option.getD_some, List.reverse_reverse, Line.split_flatten (cut.of_stretch within),
        List.append_assoc, List.take_append_drop]
  | @inside closed draft place passed line lines move moves =>
      refine ⟨?_, by simpa using retraced.closed, moves.retraced (fun inPayload => ?_)
        retraced.state rfl⟩
      · rw [closed_move, allLines_move moves rfl]
        exact retraced.whole
      · subst inPayload
        exact payload draft rfl

theorem Reaches.retraced (cut : Line.IsCut all)
    (reaches : Reaches dialect .never (ofLines all) reader) : reader.Retraced dialect all := by
  induction reaches with
  | refl => exact ⟨rfl, by simp [ofLines], trivial⟩
  | tail reaches stepped ih =>
      exact stepped.retraced cut (fun _ inside => Reaches.git_of_payload reaches inside) ih

/-- The section that is last in hand is closed with the text after it, and is read alone. -/
theorem Retraced.close_last {draft : Draft} {pending : List Bytes} {closed : List FileRecord}
    {passed : Nat} (cut : Line.IsCut all)
    (retraced : Retraced dialect all ⟨closed, .seeking (some draft) pending, passed, []⟩) :
    (draft.append pending.reverse.flatten).close.lines = draft.lines ++ pending.reverse ∧
      dialect.ReadsAlone (draft.lines ++ pending.reverse)
        (draft.append pending.reverse.flatten).close := by
  obtain ⟨-, -, _, reaches⟩ := retraced.state
  rw [List.append_nil] at reaches
  exact ⟨Draft.lines_close_append cut retraced.within, _, reaches, rfl, rfl⟩

/-- The records that a reader closes with have the lines of the diff, and each is read alone. -/
theorem Reaches.readsAlone {records : List FileRecord} (cut : Line.IsCut all)
    (reaches : Reaches dialect .never (ofLines all) reader) (nothing : reader.ahead = [])
    (closes : reader.close dialect = .ok records) :
    (∀ record ∈ records, dialect.ReadsAlone record.lines record) ∧
      (records ≠ [] → records.flatMap FileRecord.lines = all) := by
  have retraced := Reaches.retraced cut reaches
  have whole := retraced.whole
  obtain ⟨closed, state, passed, ahead⟩ := reader
  obtain rfl : ahead = [] := nothing
  rcases close_eq_ok closes with ⟨draft, place, rfl, notHunk, rfl⟩ | ⟨draft, pending, rfl, rfl⟩ |
    ⟨pending, rfl, -, rfl⟩
  · have takes : Takes dialect (.seeking none []) draft.lines (.reading draft place) :=
      retraced.state
    have lines := Draft.lines_close cut retraced.within
    refine ⟨fun record member => ?_, fun _ => ?_⟩
    · rcases List.mem_append.1 member with earlier | last
      · exact retraced.closed record (List.mem_reverse.1 earlier)
      · rw [List.mem_singleton.1 last, lines]
        exact takes.readsAlone fun passed => close_reading notHunk [] passed []
    · simpa [lines, ReaderState.allLines] using whole
  · obtain ⟨lines, alone⟩ := retraced.close_last cut
    refine ⟨fun record member => ?_, fun _ => ?_⟩
    · rcases List.mem_append.1 member with earlier | last
      · exact retraced.closed record (List.mem_reverse.1 earlier)
      · rw [List.mem_singleton.1 last, lines]
        exact alone
    · simpa [lines, ReaderState.allLines] using whole
  · have none : closed = [] := reaches.closed_eq_nil rfl
    subst none
    exact ⟨by simp, by simp⟩

end Reader

namespace Dialect

variable {dialect : Dialect} {data : Bytes} {records : List FileRecord}

/-- **A diff has the lines of its records.** -/
theorem flatMap_lines_of_parse (parsed : dialect.parse data = .ok records)
    (someRecord : records ≠ []) : records.flatMap FileRecord.lines = Line.split data := by
  obtain ⟨final, reaches, nothing, closes⟩ := parseWith_eq_ok_iff.1 parsed
  exact (Reader.Reaches.readsAlone (Line.isCut_split data) reaches.plain nothing closes).2
    someRecord

/-- **A record needs no lines but its own.** Of a diff that is read, each record is read back from
its own octets: they are read into this record alone, with the same preamble and the same section.
So nothing that a record says depends on what stands before or after it. -/
theorem parse_data_of_parse (parsed : dialect.parse data = .ok records) :
    ∀ record ∈ records, dialect.parse record.data = .ok [record] := by
  intro record member
  obtain ⟨final, reaches, nothing, closes⟩ := parseWith_eq_ok_iff.1 parsed
  obtain ⟨final, alone⟩ := (Reader.Reaches.readsAlone (Line.isCut_split data) reaches.plain nothing
    closes).1 record member
  have within : record.lines <:+: Line.split data := by
    rw [← flatMap_lines_of_parse parsed (List.ne_nil_of_mem member), List.flatMap_def]
    exact List.infix_of_mem_flatten (List.mem_map_of_mem member)
  have isData : record.lines.flatten = record.data := by
    rw [FileRecord.lines, List.flatten_append, Line.flatten_split, Line.flatten_split]
    rfl
  rw [parse_eq_ok_iff_plain, parseWith_eq_ok_iff, ← isData, Line.split_flatten_of_stretch within]
  exact ⟨final, alone⟩

/-- The last line of a hunk looks like the first one of a pair, whose second one is in the next
preamble; and text comes after the last section. -/
theorem parse_data_of_parse_split_pair :
    let data := Bytes.ofAscii
      "note\n--- a\n+++ b\n@@ -1 +0,0 @@\n--- x\n+++ y\n--- c\n+++ d\n@@ -0,0 +1 @@\n+z\ntail"
    ∃ records, Dialect.unified.parse data = .ok records ∧ records.length = 2 ∧
      ∀ record ∈ records, Dialect.unified.parse record.data = .ok [record] := by
  intro data
  obtain ⟨records, parsed, two⟩ := exists_parse_of_length .unified data 2 (by decide +kernel)
  exact ⟨records, parsed, two, parse_data_of_parse parsed⟩

end Dialect

end DiffSections
