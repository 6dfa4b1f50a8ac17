import DiffSections.Proofs.Conservation
import DiffSections.Proofs.Hunk.Markers
import DiffSections.Proofs.HunkAccounting
import DiffSections.Proofs.Reader.Records

/-!
# DiffSections.Proofs.Markers -- hunks note the markers of all their lines

A marker is read in an open hunk and directly after a complete one, there only once. So a section
is left with no marker unread: if its last line is a body line, then what follows is no marker
(`Draft.Settled`). A step keeps this (`SectionMove.settles`), so the markers that speak of the lines
of a hunk are those that its record notes, at whatever place of the diff (`unended_iff_of_parse`).

A hunk notes a side also for a line of it that is not the last one. Then its record says that the
last line has no line end although nothing in the diff does (`unended_of_early_marker`).
-/

namespace DiffSections

set_option autoImplicit false

open Hunk (IsChange MarkerFirst InTurn)

/-- The lines behind the section in hand that were taken already. -/
def ReaderState.behind : ReaderState → List Bytes
  | .seeking _ pending => pending.reverse
  | .reading _ _ => []

namespace Draft

variable {draft : Draft} {following : List Bytes} {last : Option BodyKind}

/-- The lines of the section and those that follow are a lead, a block for each hunk and a rest, and
the hunks note what the markers say. -/
def Settled (draft : Draft) (following : List Bytes) : Prop :=
  ∃ lead blocks rest, draft.pieces.reverse ++ following = lead ++ blocks.flatten ++ rest ∧
    lead ++ blocks.flatten <+: draft.pieces.reverse ∧ Unannounced lead ∧
    InTurn rest draft.hunks.reverse blocks

/-- The newest line is no body line. So no marker that follows speaks of it. -/
def EndsPlain (draft : Draft) : Prop := ∀ line ∈ draft.pieces.head?, ¬ IsChange line

theorem settled_of_hunks_eq_nil (hunks : draft.hunks = []) (following : List Bytes) :
    draft.Settled following := by
  refine ⟨[], [], draft.pieces.reverse ++ following, rfl, List.nil_prefix, nofun, ?_⟩
  rw [hunks]
  exact .nil

theorem InHunk.settled (inHunk : draft.InHunk ⟨0, 0⟩ last)
    (unmarked : draft.EndsPlain ∨ ¬ MarkerFirst following) : draft.Settled following := by
  obtain ⟨newest, older, lead, blocks, block, hunks, pieces, unannounced, filled, read⟩ := inHunk
  have lined : draft.pieces.reverse = lead ++ (blocks ++ [block]).flatten := by simp [pieces]
  have allFilled : List.Forall₂ Hunk.FilledBy draft.hunks.reverse (blocks ++ [block]) := by
    rw [hunks, List.reverse_cons]
    exact List.rel_append filled (.cons ⟨last, read⟩ .nil)
  refine ⟨lead, blocks ++ [block], following, by rw [lined], lined ▸ List.prefix_rfl, unannounced,
    Hunk.inTurn_of_filledBy allFilled fun line isLast change => ?_⟩
  have newestLine : line ∈ draft.pieces.head? := by
    rw [← List.reverse_reverse draft.pieces, List.head?_reverse, lined, List.getLast?_append,
      Option.mem_def.1 isLast]
    rfl
  exact unmarked.resolve_left fun plain => plain line newestLine change

end Draft

/-! ## Every step leaves sections settled -/

/-- The section before the text at hand is settled, and a hunk that takes no more markers ends in a
marker or has no body. -/
def ReaderState.Settles : ReaderState → List Bytes → Prop
  | .seeking previous pending, ahead =>
      ∀ draft ∈ previous, draft.Settled (pending.reverse ++ ahead)
  | .reading draft (.between none), _ => draft.EndsPlain
  | .reading _ _, _ => True

theorem ReaderState.settles_inHunk {draft : Draft} {left : Remaining} {last : Option BodyKind}
    (plain : last = none → draft.EndsPlain) (ahead : List Bytes) :
    (reading draft (.inHunk left last)).Settles ahead := by
  unfold Place.inHunk
  split
  · cases last with
    | none => exact plain rfl
    | some kind => trivial
  · trivial

theorem Hunk.endsPlain_of_ofHeader? {draft : Draft} {line : Bytes} {hunk : Hunk}
    (opens : Hunk.ofHeader? (Line.content line) = some hunk) : (draft.append line).EndsPlain := by
  obtain ⟨text, isHeader, -⟩ := Hunk.exists_of_ofHeader? opens
  rintro newest ⟨⟩ ⟨kind, change⟩
  rw [isHeader] at change
  cases change

/-- **A move settles the section it leaves.** -/
theorem SectionMove.settles {dialect : Dialect} {cuts : CutRule} {draft : Draft} {line : Bytes}
    {lines : List Bytes} {place : Place} {move : Move}
    (moves : SectionMove dialect cuts draft line lines place move) (laidOut : draft.LaidOut place)
    (settles : (ReaderState.reading draft place).Settles (line :: lines)) :
    move.state.Settles ((line :: lines).drop move.lineCount) := by
  cases moves with
  | headerBoundary | text =>
      rintro _ ⟨⟩
      exact Draft.settled_of_hunks_eq_nil laidOut.1 _
  | payloadBoundary =>
      rintro _ ⟨⟩
      exact Draft.settled_of_hunks_eq_nil laidOut _
  | summary =>
      have none : (draft.markBinary.append line).hunks = [] := laidOut.1
      rintro _ ⟨⟩
      exact Draft.settled_of_hunks_eq_nil none _
  | patch | extended | pair | payloadLine | marker => trivial
  -- a hunk without lines takes no markers either
  | firstHunk _ _ _ _ _ opens | nextHunk _ opens =>
      exact ReaderState.settles_inHunk (fun _ => Hunk.endsPlain_of_ofHeader? opens) _
  | @change _ after _ kind =>
      have kept : some kind = none → ((draft.count kind).append line).EndsPlain := nofun
      exact ReaderState.settles_inHunk kept _
  | lateMarker marks =>
      intro newest isNewest change
      cases isNewest
      exact change.no_marker marks
  | @afterHunks last unmarked =>
      obtain ⟨kind, inHunk, -⟩ := laidOut
      rintro _ ⟨⟩
      refine inHunk.settled ?_
      -- the line at hand may still be a marker if the last body line has had one
      rcases unmarked with rfl | unmarked
      · exact .inl settles
      · exact .inr (Hunk.markerFirst_cons.not.2 unmarked)

namespace Reader

variable {dialect : Dialect} {cuts : CutRule} {data : Bytes} {before after reader : Reader}

theorem Step.settles (stepped : Step dialect cuts before after) (laidOut : before.state.LaidOut)
    (settles : before.state.Settles before.ahead) : after.state.Settles after.ahead := by
  cases stepped with
  | skip =>
      intro draft isPrevious
      simpa using settles draft isPrevious
  | start => trivial
  | inside moves =>
      rw [state_move, ahead_move]
      exact moves.settles laidOut.2 settles

theorem Reaches.settles (reaches : Reaches dialect cuts (ofLines (Line.split data)) reader) :
    reader.state.Settles reader.ahead := by
  induction reaches with
  | refl => simp [ofLines, ReaderState.Settles]
  | tail earlier stepped ih => exact stepped.settles (Reaches.laidOut earlier).state ih

/-- A section is settled when it is closed. -/
theorem Closes.settled {record : FileRecord} {draft : Draft} {more : List Bytes}
    (closing : Closes dialect cuts (Line.split data) record draft more reader) :
    draft.Settled (reader.state.behind ++ reader.ahead) := by
  have settles := Reaches.settles closing.reaches
  have laidOut := (Reaches.laidOut closing.reaches).state
  have inHand := closing.inHand
  have notHunk := closing.notHunk
  have atEnd := closing.atEnd
  cases state : reader.state with
  | seeking previous pending =>
      rw [state] at settles inHand
      exact settles draft inHand
  | reading other place =>
      rw [state] at laidOut inHand
      cases inHand
      rw [atEnd place state]
      cases place with
      | header => exact Draft.settled_of_hunks_eq_nil laidOut.2.1 _
      | payload => exact Draft.settled_of_hunks_eq_nil laidOut.2 _
      | hunk left last => exact absurd rfl (notHunk _ state left last)
      | between last =>
          obtain ⟨kind, inHunk, -⟩ := laidOut.2
          exact inHunk.settled (.inr Hunk.not_markerFirst_nil)

theorem held_of_inHand {state : ReaderState} {draft : Draft}
    (inHand : state.inHand = some draft) : state.held = draft.data ++ state.behind.flatten := by
  cases state <;> cases inHand <;> simp [ReaderState.held, ReaderState.behind]

/-- The text of a section in hand and the lines that follow are the body of its record and the
records after it. -/
theorem Closes.text_append_following {record : FileRecord} {draft : Draft} {more : List Bytes}
    {later : List FileRecord}
    (closing : Closes dialect cuts (Line.split data) record draft more reader)
    (whole : (reader.closed.reverse ++ record :: later).flatMap FileRecord.data = data) :
    draft.text ++ (reader.state.behind ++ reader.ahead).flatten =
      record.body ++ later.flatMap FileRecord.data := by
  have kept := closing.reaches.taken_append_ahead
  have sameData : record.data = draft.preamble.getD [] ++ record.body := by
    rw [closing.record_eq]
    rfl
  rw [taken, held_of_inHand closing.inHand, taken_ofLines, List.nil_append,
    show (ofLines (Line.split data)).ahead.flatten = data from Line.flatten_split data, ← whole,
    List.flatMap_append, List.flatMap_cons, sameData, Draft.data] at kept
  simp only [List.append_assoc, List.append_cancel_left_eq] at kept
  rw [List.flatten_append]
  exact kept

end Reader

/-! ## Records -/

/-- **A hunk notes the markers of all its lines.** From the section of a record on, the lines of a
diff are a lead, in which no line announces a hunk, a block for each hunk of the record, and a rest.
A hunk has noted a side exactly if the last line of that side is followed by a marker, or an earlier
line of it is. -/
theorem Dialect.unended_iff_of_parse {dialect : Dialect} {data : Bytes} {records : List FileRecord}
    (parsed : dialect.parse data = .ok records) :
    ∀ earlier record later, records = earlier ++ record :: later →
      ∃ lead blocks rest, Line.split (record.body ++ later.flatMap FileRecord.data) =
          lead ++ blocks.flatten ++ rest ∧
        lead ++ blocks.flatten <+: Line.split record.body ∧ Unannounced lead ∧
        Hunk.InTurn rest record.hunks blocks := by
  intro earlier record later split
  obtain ⟨final, reaches, nothing, closes⟩ := Dialect.parseWith_eq_ok_iff.1 parsed
  obtain ⟨draft, more, reader, closing, rfl⟩ := reaches.accounted_of_close nothing closes split
  have whole : records.flatMap FileRecord.data = data := by
    have kept := reaches.taken_append_ahead
    rw [nothing, Reader.taken_ofLines, List.flatten_nil, List.append_nil, List.nil_append] at kept
    rw [Reader.flatMap_data_of_close reaches closes (by simp [split]), kept]
    exact Line.flatten_split data
  have following := closing.text_append_following (split ▸ whole)
  obtain ⟨before, placed⟩ := Reader.Reaches.follows closing.reaches
  have lined : Line.split (record.body ++ later.flatMap FileRecord.data) =
      draft.pieces.reverse ++ (reader.state.behind ++ reader.ahead) := by
    rw [← following, Draft.text, ← List.flatten_append]
    refine Line.split_flatten_of_stretch (?_ : _ <:+: Line.split data)
    refine ⟨before, [], ?_⟩
    rw [← placed]
    have inHand := closing.inHand
    cases state : reader.state <;> rw [state] at inHand <;> cases inHand <;>
      simp [ReaderState.lines, ReaderState.behind]
  obtain ⟨lead, blocks, rest, same, within, unannounced, inTurn⟩ := closing.settled
  refine ⟨lead, blocks, rest, lined.trans same, ?_, unannounced, ?_⟩
  · rw [closing.split_body]
    exact within.trans (List.prefix_append _ _)
  · rw [closing.record_eq]
    exact inTurn

/-- Markers behind the last line of a side, in a hunk and after one, and behind an earlier line. -/
theorem Dialect.unended_iff_of_parse_two_hunks :
    let data := Bytes.ofAscii
      "--- a\n+++ b\n@@ -1 +1 @@\n-p\n\\ none\n+q\n\\ none\n@@ -5,2 +5 @@\n-a\n\\ none\n-b\n+c\n"
    ∃ record, Dialect.unified.parse data = .ok [record] ∧
      record.hunks.map (fun hunk => (hunk.unended .orig, hunk.unended .new)) =
        [(true, true), (true, false)] ∧
      ∃ lead blocks rest, Line.split (record.body ++ [].flatMap FileRecord.data) =
          lead ++ blocks.flatten ++ rest ∧
        lead ++ blocks.flatten <+: Line.split record.body ∧ Unannounced lead ∧
        Hunk.InTurn rest record.hunks blocks := by
  intro data
  obtain ⟨records, parsed, look⟩ := Dialect.exists_parse_of_look .unified data
    (fun records => records.map fun record =>
      record.hunks.map fun hunk => (hunk.unended .orig, hunk.unended .new))
    [[(true, true), (true, false)]] (by decide +kernel)
  obtain ⟨record, rfl, flags⟩ := List.map_eq_singleton_iff.1 look
  exact ⟨record, parsed, flags, Dialect.unended_iff_of_parse parsed [] record [] rfl⟩

/-- **A hunk may say that a side has no line end because an earlier line of it has none.** The
marker is behind the first of two removed lines. -/
theorem Dialect.unended_of_early_marker :
    let data := Bytes.ofAscii
      "--- a\n+++ b\n@@ -1,2 +1 @@\n-a\n\\ No newline at end of file\n-b\n+c\n"
    let body := ["-a\n", "\\ No newline at end of file\n", "-b\n", "+c\n"].map Bytes.ofAscii
    ∃ record hunk lead header, Dialect.unified.parse data = .ok [record] ∧
      record.hunks = [hunk] ∧ Line.split record.body = lead ++ header :: body ∧
      Hunk.ofHeader? (Line.content header) = some hunk.declared ∧ hunk.Accounts body ⟨0, 0⟩ ∧
      hunk.unended .orig = true ∧ ¬ Hunk.LastMarked .orig body [] := by
  intro data body
  obtain ⟨records, parsed, look⟩ := Dialect.exists_parse_of_look .unified data
    (fun records => records.map fun record => (record.hunks, Line.split record.body))
    [([⟨1, 2, 1, 1, none, 1, 2, true, false⟩],
      ["--- a\n", "+++ b\n", "@@ -1,2 +1 @@\n"].map Bytes.ofAscii ++ body)] (by decide +kernel)
  obtain ⟨record, rfl, same⟩ := List.map_eq_singleton_iff.1 look
  obtain ⟨hunks, lines⟩ := Prod.mk.inj same
  refine ⟨record, _, ["--- a\n", "+++ b\n"].map Bytes.ofAscii, Bytes.ofAscii "@@ -1,2 +1 @@\n",
    parsed, hunks, lines, by decide, ⟨by decide, rfl, rfl, rfl, rfl⟩, rfl, ?_⟩
  have isLast : ∀ other ∈ [Bytes.ofAscii "+c\n"], ¬ Hunk.StandsOn .orig other := by decide
  rw [show body = body.take 2 ++ Bytes.ofAscii "-b\n" :: [Bytes.ofAscii "+c\n"] from rfl,
    Hunk.lastMarked_iff_of_last (by decide) isLast, List.append_nil, Hunk.markerFirst_cons]
  decide

end DiffSections
