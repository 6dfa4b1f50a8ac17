import DiffSections.Proofs.Reader.BodyLines
import DiffSections.Proofs.Reader.Faults
import DiffSections.Proofs.SelfContained
import DiffSections.Proofs.Writer.Hunk

/-!
# DiffSections.Proofs.ViablePrefix -- errors are noticed at the first line that cannot be

The lines before the one at which a diff is refused can begin a diff that is read
(`Dialect.exists_parse_take_append`). A reader that has got through some lines gets through them
again whatever comes after (`Reader.Reaches.revisited`): only the last line of the text between
sections has to be kept from making a pair with what comes next, and a section that was handed back
there may be still open now. From wherever it stands a few lines make the diff complete
(`Reader.Revisited.completes`): the lines that an open hunk owes, a boundary where no section was
found, and none elsewhere.
-/

namespace DiffSections

set_option autoImplicit false

open Bytes

/-! ## The lines that were passed -/

namespace Dialect

/-- These lines make no boundary of the line before them. -/
def Apart (dialect : Dialect) (lines : List Bytes) : Prop :=
  ∀ line, dialect.startsSection (line :: lines) = dialect.startsSection [line]

variable {dialect : Dialect} {line : Bytes} {lines : List Bytes}

theorem apart_nil : dialect.Apart [] := fun _ => rfl

theorem apart_of_startsSection (boundary : dialect.startsSection lines = true) :
    dialect.Apart lines :=
  fun line => startsSection_cons_of_startsSection line boundary

/-- Lines that come after can make a boundary of a line, and never the other way round. -/
theorem startsSection_singleton (stays : dialect.startsSection (line :: lines) = false) :
    dialect.startsSection [line] = false := by
  cases dialect with
  | git => exact stays
  | unified => rfl

end Dialect

namespace Reader

variable {dialect : Dialect} {all : List Bytes} {reader before after : Reader}

/-- The lines that a reader has passed are passed again with other lines after them. Inside a
section it does not matter what these are. Between sections it comes to the same state if the line
at hand is the same, and a boundary or none as before. And if the next lines are no part of a pair
with the line before, it comes to a state that has the same section in hand and owes nothing. -/
def Revisited (dialect : Dialect) (all : List Bytes) (reader : Reader) : Prop :=
  match reader.state with
  | .reading _ _ =>
      ∀ rest, Reaches dialect .never (ofLines (all.take reader.passed ++ rest))
        { reader with ahead := rest }
  | .seeking previous _ =>
      (∀ rest, rest.head? = reader.ahead.head? →
        dialect.startsSection rest = dialect.startsSection reader.ahead →
          Reaches dialect .never (ofLines (all.take reader.passed ++ rest))
            { reader with ahead := rest }) ∧
      ∀ rest, dialect.Apart rest → ∃ state : ReaderState, state.inHand = previous ∧
        (∀ draft left last, state ≠ .reading draft (.hunk left last)) ∧
          Reaches dialect .never (ofLines (all.take reader.passed ++ rest))
            { reader with state, ahead := rest }

/-- The lines passed after a step are those passed before, and the lines that the step takes. -/
theorem take_passed_append {passed count : Nat} {taken : List Bytes} (rest : List Bytes)
    (isTaken : (all.drop passed).take count = taken) :
    all.take (passed + count) ++ rest = all.take passed ++ (taken ++ rest) := by
  rw [List.take_add, isTaken, List.append_assoc]

/-- What a step takes whatever comes next is passed again. -/
theorem revisited_of_takes {closed : List FileRecord} {draft : Draft} {place : Place}
    {passed : Nat} {state : ReaderState} (taken : List Bytes) {ahead : List Bytes}
    (kept : Revisited dialect all ⟨closed, .reading draft place, passed, taken ++ ahead⟩)
    (isTaken : (all.drop passed).take taken.length = taken)
    (takes : Takes dialect (.reading draft place) taken state) :
    Revisited dialect all ⟨closed, state, passed + taken.length, ahead⟩ := by
  have again : ∀ rest, Reaches dialect .never
      (ofLines (all.take (passed + taken.length) ++ rest))
      ⟨closed, state, passed + taken.length, rest⟩ := by
    intro rest
    rw [take_passed_append rest isTaken]
    exact (kept (taken ++ rest)).trans (takes closed passed rest)
  cases state with
  | reading draft place => exact again
  | seeking previous pending => exact ⟨fun rest _ _ => again rest,
      fun rest _ => ⟨_, rfl, by simp, again rest⟩⟩

theorem Step.revisited (stepped : Step dialect .never before after)
    (follows : before.ahead = all.drop before.passed)
    (payload : ∀ draft, before.state = .reading draft .payload → dialect = .git)
    (kept : before.Revisited dialect all) : after.Revisited dialect all := by
  cases stepped with
  | @skip closed previous pending passed line lines closedSection =>
      have here := Dialect.open?_eq_none_iff.1 closedSection
      obtain ⟨same, -⟩ := kept
      have again : ∀ rest, dialect.startsSection (line :: rest) = false →
          Reaches dialect .never (ofLines (all.take (passed + 1) ++ rest))
            ⟨closed, .seeking previous (line :: pending), passed + 1, rest⟩ := by
        intro rest stays
        rw [take_passed_append rest (by rw [← follows]; rfl : _ = [line])]
        exact (same (line :: rest) rfl (stays.trans here.symm)).tail
          (.skip (Dialect.open?_eq_none_iff.2 stays))
      refine ⟨fun rest head _ => again rest ?_, fun rest apart => ⟨_, rfl, by simp, again rest ?_⟩⟩
      · rw [← here]
        exact Dialect.startsSection_congr head
      · rw [apart line]
        exact Dialect.startsSection_singleton here
  | @start closed previous pending passed line lines opening opens =>
      obtain ⟨same, -⟩ := kept
      have starts := (Dialect.open?_ne_none_iff dialect (line :: lines)).1 (by simp [opens])
      obtain ⟨boundary, ahead, isAhead, counted, opens⟩ := Dialect.exists_boundary_of_opens opens
      have isTaken : (all.drop passed).take opening.lineCount = boundary := by
        rw [← follows, isAhead, ← counted, List.take_left]
      intro rest
      have comes : Reaches dialect .never (ofLines (all.take passed ++ (boundary ++ rest)))
          ⟨closed, .seeking previous pending, passed, boundary ++ rest⟩ := by
        refine same _ ?_ ?_
        · obtain ⟨first, later, rfl⟩ : ∃ first later, boundary = first :: later :=
            List.exists_cons_of_length_pos (counted ▸ lineCount_pos opening)
          rw [isAhead, List.cons_append, List.cons_append, List.head?_cons, List.head?_cons]
        · rw [starts, ← Dialect.open?_ne_none_iff, opens rest]
          simp
      have started := Step.start_append .never closed previous pending passed counted (opens rest)
      simp only [Reader.start, take, isAhead]
      rw [take_passed_append rest isTaken, ← counted, List.take_left]
      exact comes.tail started
  | @inside closed draft place passed line lines move moves =>
      have git : place = .payload → dialect = .git := by
        rintro rfl
        exact payload draft rfl
      have ahead : all.drop passed = line :: lines := follows.symm
      cases move with
      | one state =>
          exact revisited_of_takes [line] kept (by simp [ahead]) (moves.takes_one git)
      | two state =>
          obtain ⟨next, later, rfl, takes⟩ := moves.takes_two git
          exact revisited_of_takes [line, next] kept (by simp [ahead]) takes
      | handBack later =>
          obtain ⟨rfl, notHunk⟩ := moves.ne_hunk_of_handBack
          refine ⟨fun rest head starts => ?_,
            fun rest _ => ⟨.reading later place, rfl, ?_, kept rest⟩⟩
          · obtain ⟨lines', rfl⟩ := List.head?_eq_some_iff.1 head
            exact (kept (line :: lines')).tail
              (.inside (moves.of_lines (fun _ => starts) (by simp) fun _ _ _ => rfl))
          · rintro _ left last ⟨⟩
            exact notHunk left last rfl

theorem Reaches.revisited (reaches : Reaches dialect .never (ofLines all) reader) :
    reader.Revisited dialect all := by
  induction reaches with
  | refl => exact ⟨fun rest _ _ => .refl, fun rest _ => ⟨_, rfl, by simp, .refl⟩⟩
  | tail reaches stepped ih =>
      exact stepped.revisited (Reaches.ahead_eq_drop reaches)
        (fun _ inside => Reaches.git_of_payload reaches inside) ih

end Reader

/-! ## Lines that complete a diff -/

/-- The removed and the added lines that a hunk may owe, without a text. -/
def Remaining.filling (left : Remaining) : List BodyText :=
  List.replicate left.orig ⟨.removed, [], none, by simp, by simp⟩ ++
    List.replicate left.new ⟨.added, [], none, by simp, by simp⟩

theorem Remaining.owed_filling (left : Remaining) : BodyText.owed left.filling = left := by
  simp [filling, BodyText.owed, BodyText.lengthOn, List.countP_replicate, BodyKind.standsOn]

/-- The lines of a body complete the hunk that owes them. -/
theorem BodyText.takes_flatMap_lines (dialect : Dialect) (body : List BodyText) (draft : Draft)
    (last : Option BodyKind) :
    ∃ draft' last', Takes dialect (.reading draft (.inHunk (owed body) last))
      (body.flatMap lines) (.reading draft' (.between last')) := by
  induction body generalizing draft last with
  | nil => exact ⟨draft, last, .nil⟩
  | cons line body ih =>
      obtain ⟨last', first⟩ := line.takes_lines dialect body draft last
      obtain ⟨draft', last'', later⟩ := ih (line.addTo draft) last'
      exact ⟨draft', last'', first.append later⟩

namespace Dialect

/-- A boundary. -/
def someBoundary : Dialect → List Bytes
  | .git => [ofAscii "diff --git a/f b/f" ++ [lf]]
  | .unified => [ofAscii "--- f" ++ [lf], ofAscii "+++ f" ++ [lf]]

theorem exists_opening_someBoundary (dialect : Dialect) :
    ∃ opening, dialect.open? dialect.someBoundary = .ok (some opening) ∧
      dialect.someBoundary.length = opening.lineCount := by
  cases dialect <;> exact ⟨_, rfl, rfl⟩

theorem ended_someBoundary (dialect : Dialect) :
    ∀ line ∈ dialect.someBoundary, Line.Ended line := by
  intro line member
  cases dialect with
  | git =>
      obtain rfl := List.mem_singleton.1 member
      exact Line.ended_append (by decide)
  | unified =>
      rcases List.mem_pair.1 member with rfl | rfl <;> exact Line.ended_append (by decide)

end Dialect

namespace Reader

variable {dialect : Dialect} {all : List Bytes} {reader : Reader}

/-- A section that owes nothing can be closed, and so can the text after it. -/
theorem exists_close {draft : Draft} (inHand : reader.state.inHand = some draft)
    (notHunk : ∀ draft left last, reader.state ≠ .reading draft (.hunk left last)) :
    ∃ records, reader.close dialect = .ok records := by
  obtain ⟨closed, state, passed, ahead⟩ := reader
  cases state with
  | seeking previous pending =>
      obtain rfl : previous = some draft := inHand
      exact ⟨_, rfl⟩
  | reading draft place =>
      exact ⟨_, close_reading (fun left last isHunk => notHunk draft left last (by rw [isHunk]))
        closed passed ahead⟩

/-- **From wherever a reader stands some lines make the diff complete.** -/
theorem Revisited.completes (revisited : reader.Revisited dialect all)
    (owes : ∀ draft left last, reader.state = .reading draft (.hunk left last) →
      left.isDone = false) :
    ∃ more final records, (∀ line ∈ more, Line.Ended line) ∧
      Reaches dialect .never (ofLines (all.take reader.passed ++ more)) final ∧
      final.ahead = [] ∧ final.close dialect = .ok records := by
  obtain ⟨closed, state, passed, ahead⟩ := reader
  cases state with
  | reading draft place =>
      cases place with
      | hunk left last =>
          have inHunk : Place.inHunk (BodyText.owed left.filling) last = .hunk left last := by
            simp [Place.inHunk, left.owed_filling, owes draft left last rfl]
          obtain ⟨draft', last', takes⟩ :=
            BodyText.takes_flatMap_lines dialect left.filling draft last
          have fills := takes closed passed []
          rw [inHunk, List.append_nil] at fills
          refine ⟨left.filling.flatMap BodyText.lines, _, _, fun line member => ?_,
            (revisited _).trans fills, rfl, rfl⟩
          obtain ⟨body, -, isLine⟩ := List.mem_flatMap.1 member
          exact body.ended_lines line isLine
      | header | payload | between => exact ⟨[], _, _, by simp, revisited [], rfl, rfl⟩
  | seeking previous pending =>
      cases previous with
      | some draft =>
          obtain ⟨state, inHand, notHunk, reaches⟩ := revisited.2 [] Dialect.apart_nil
          obtain ⟨records, closes⟩ : ∃ records,
              Reader.close dialect ⟨closed, state, passed, []⟩ = .ok records :=
            exists_close inHand notHunk
          exact ⟨[], _, records, by simp, reaches, rfl, closes⟩
      | none =>
          obtain ⟨opening, opens, counted⟩ := dialect.exists_opening_someBoundary
          have starts : dialect.startsSection dialect.someBoundary = true :=
            (Dialect.open?_ne_none_iff dialect dialect.someBoundary).1 (by simp [opens])
          obtain ⟨state, inHand, -, reaches⟩ :=
            revisited.2 _ (Dialect.apart_of_startsSection starts)
          obtain ⟨pending', rfl⟩ : ∃ pending', state = .seeking none pending' := by
            cases state with
            | seeking previous pending' => exact ⟨pending', by rw [← inHand]; rfl⟩
            | reading => cases inHand
          rw [← List.append_nil dialect.someBoundary] at opens
          have started := Step.start_append .never closed none pending' passed counted opens
          rw [List.append_nil] at started
          exact ⟨dialect.someBoundary, _, _, dialect.ended_someBoundary, reaches.tail started, rfl,
            rfl⟩

/-! ## The reader before an error -/

/-- Where a diff is refused the reader has passed the lines before, and the line is there. -/
theorem exists_of_eq_error {data : Bytes} {error : ParseError}
    (failed : dialect.parse data = .error error)
    (recognized : error.fault.kind ≠ .notRecognized) :
    ∃ reader, Reaches dialect dialect.cutRule (ofLines (Line.split data)) reader ∧
      error.line = reader.passed + 1 ∧ error.line ≤ (Line.split data).length := by
  -- A hunk is cut after its last line, which the reader has passed; that is one line too many.
  have cut : ∀ reader draft left last,
      Reaches dialect dialect.cutRule (ofLines (Line.split data)) reader →
      reader.state = .reading draft (.hunk left last) → error = ⟨.truncated left, reader.passed⟩ →
      ∃ reader, Reaches dialect dialect.cutRule (ofLines (Line.split data)) reader ∧
        error.line = reader.passed + 1 ∧ error.line ≤ (Line.split data).length := by
    rintro reader draft left last reaches inHunk rfl
    have counted := reaches.passed_add_length
    rcases reaches.cases_tail with rfl | ⟨before, comes, stepped⟩
    · cases inHunk
    · exact ⟨before, comes, stepped.passed_eq_of_hunk inHunk, by dsimp only; omega⟩
  rcases Dialect.parseWith_eq_error failed with ⟨stuck, line, lines, reaches, ahead, refused⟩ |
    ⟨final, reaches, nothing, closes⟩
  · rcases step_eq_error refused with ⟨-, number⟩ | ⟨draft, left, last, inHunk, -, isCut⟩
    · have counted := reaches.passed_add_length
      rw [ahead, List.length_cons] at counted
      refine ⟨stuck, reaches, number, ?_⟩
      rw [number, Line.number]
      omega
    · exact cut stuck draft left last reaches inHunk isCut
  · rcases close_eq_error closes with ⟨draft, left, last, inHunk, isCut⟩ | ⟨_, _, _, rfl⟩
    · exact cut final draft left last reaches inHunk isCut
    · exact absurd rfl recognized

end Reader

/-- **Errors are noticed at the first line that cannot be.** Let a diff be refused at some line,
and not as a whole. The diff has this line, and the lines before it are those of a diff that is
read, with some others after them. -/
theorem Dialect.exists_parse_take_append {dialect : Dialect} {data : Bytes} {error : ParseError}
    (failed : dialect.parse data = .error error)
    (recognized : error.fault.kind ≠ .notRecognized) :
    1 ≤ error.line ∧ error.line ≤ (Line.split data).length ∧
      ∃ more records,
        dialect.parse (((Line.split data).take (error.line - 1)).flatten ++ more) =
          .ok records := by
  obtain ⟨reader, reaches, number, inRange⟩ := Reader.exists_of_eq_error failed recognized
  refine ⟨by omega, inRange, ?_⟩
  have revisited := Reader.Reaches.revisited reaches.plain
  obtain ⟨more, final, records, ended, completes, nothing, closes⟩ :=
    revisited.completes reaches.owes
  refine ⟨more.flatten, records, ?_⟩
  have before : error.line - 1 = reader.passed := by omega
  rw [parse_eq_ok_iff_plain, parseWith_eq_ok_iff, before,
    Line.split_take_append (by omega), Line.split_flatten_of_ended ended]
  exact ⟨final, completes, nothing, closes⟩

/-- The last line before the error starts like a boundary, and its hunk still owes lines. -/
theorem Dialect.exists_parse_take_append_open_hunk :
    let data := ofAscii "--- a\n+++ b\n@@ -1,2 +1,2 @@\n--- c\nbad\n x\n"
    let error : ParseError := ⟨.bodyLine (ofAscii "bad"), 5⟩
    Dialect.unified.parse data = .error error ∧ error.fault.kind ≠ .notRecognized ∧
      1 ≤ error.line ∧ error.line ≤ (Line.split data).length ∧
      ∃ more records,
        Dialect.unified.parse (((Line.split data).take (error.line - 1)).flatten ++ more) =
          .ok records := by
  intro data error
  have failed : Dialect.unified.parse data = .error error := by decide +kernel
  have recognized : error.fault.kind ≠ .notRecognized := by decide
  exact ⟨failed, recognized, Dialect.exists_parse_take_append failed recognized⟩

end DiffSections
