import DiffSections.Proofs.Checked
import DiffSections.Proofs.Line

/-!
# DiffSections.Proofs.LineIndex -- the lines of a text, looked up by where they start

`Line.split` cuts a text into lines. A `LineIndex` leaves it whole and keeps only the offsets at
which its lines start: that of the first octet, and that of every octet behind an LF. An LF at the
end of the text starts no line. A line runs to the start of the next one, or to the end of the text,
and is cut out of it when it is looked up, with a panic where that range leaves the text.

* `starts_ofText`: the offsets are those at which the lines of `Line.split` follow one another;
* `get?_ofText`: every look-up gives the line of that number, or none behind the last, and no range
  leaves the text;
* `yields_ofText`: so what an index yields is the one way of cutting its text into lines.
-/

namespace DiffSections

set_option autoImplicit false

open Bytes

/-- A text, and the offsets at which its lines start. -/
structure LineIndex where
  text : Bytes
  starts : List Nat
  deriving DecidableEq, Repr

namespace LineIndex

/-- Note that a line starts behind an octet, if it is an LF and more octets follow. -/
def noteStart (total : Nat) (starts : List Nat) : UInt8 × Nat → List Nat
  | (b, offset) => if b = lf ∧ offset + 1 < total then starts ++ [offset + 1] else starts

/-- Index the lines of a text. -/
def ofText (text : Bytes) : LineIndex :=
  { text
    starts := if text.isEmpty then [] else text.zipIdx.foldl (noteStart text.length) [0] }

/-- How many lines there are. -/
def length (index : LineIndex) : Nat := index.starts.length

/-- The line of a number, counted from zero, if there are so many. -/
def get? (index : LineIndex) (number : Nat) : Except Panic (Option Bytes) :=
  match index.starts[number]? with
  | none => return none
  | some start => do
      let stop := index.starts[number + 1]?.getD index.text.length
      let line ← slice index.text start stop
      return some line

/-- The lines that an index has, each under its number and none behind them. -/
structure Yields (index : LineIndex) (lines : List Bytes) : Prop where
  length : index.length = lines.length
  get? : ∀ number, index.get? number = .ok lines[number]?

/-! ## Where lines start -/

/-- The offsets at which lines start that follow one another from `start` on. -/
def offsets : Nat → List Bytes → List Nat
  | _, [] => []
  | start, line :: lines => start :: offsets (start + line.length) lines

/-- An octet in front is a line of its own, or goes into the first one. Either way the lines behind
that one stay where they are. -/
theorem tail_offsets_consByte (start : Nat) (b : UInt8) (lines : List Bytes) :
    (offsets start (Line.consByte b lines)).tail =
      (if b = lf ∧ lines ≠ [] then [start + 1] else []) ++ (offsets (start + 1) lines).tail := by
  cases lines with
  | nil => simp [Line.consByte, offsets]
  | cons line lines =>
      by_cases isEnd : b = lf
      · simp [Line.consByte, isEnd, offsets]
      · simp [Line.consByte, isEnd, offsets, Nat.add_right_comm, Nat.add_assoc]

theorem noteStart_of_length {total offset : Nat} {b : UInt8} {rest : Bytes} (starts : List Nat)
    (counted : total = offset + (b :: rest).length) :
    noteStart total starts (b, offset) =
      starts ++ if b = lf ∧ Line.split rest ≠ [] then [offset + 1] else [] := by
  have more : offset + 1 < total ↔ Line.split rest ≠ [] := by
    subst counted
    cases rest with
    | nil => simp [Line.split_nil]
    | cons c rest => simp [Line.split_ne_nil]
  simp only [noteStart, more]
  split <;> simp

/-- The octets from `offset` on add the starts of their lines, but for the line they begin in. -/
theorem foldl_noteStart {total : Nat} (rest : Bytes) (offset : Nat) (starts : List Nat)
    (counted : total = offset + rest.length) :
    (rest.zipIdx offset).foldl (noteStart total) starts =
      starts ++ (offsets offset (Line.split rest)).tail := by
  induction rest generalizing offset starts with
  | nil => simp [Line.split_nil, offsets]
  | cons b rest ih =>
      have countedLater : total = offset + 1 + rest.length := by
        rw [counted, List.length_cons]
        omega
      rw [List.zipIdx_cons, List.foldl_cons, ih _ _ countedLater,
        noteStart_of_length starts counted, Line.split_cons, tail_offsets_consByte,
        List.append_assoc]

/-- **The offsets kept are those at which the lines of the text start.** -/
theorem starts_ofText (text : Bytes) : (ofText text).starts = offsets 0 (Line.split text) := by
  cases text with
  | nil => rfl
  | cons b rest =>
      have starts := foldl_noteStart (b :: rest) 0 [0] (Nat.zero_add _).symm
      have lines := Line.split_ne_nil (List.cons_ne_nil b rest)
      show (b :: rest).zipIdx.foldl (noteStart (b :: rest).length) [0] = _
      rw [starts]
      cases split : Line.split (b :: rest) with
      | nil => exact absurd split lines
      | cons line lines => rfl

/-! ## Looking lines up -/

theorem length_offsets (start : Nat) (lines : List Bytes) :
    (offsets start lines).length = lines.length := by
  induction lines generalizing start with
  | nil => rfl
  | cons line lines ih => simp [offsets, ih]

/-- A line starts where the octets of those before it end. -/
theorem getElem?_offsets (start number : Nat) (lines : List Bytes) :
    (offsets start lines)[number]? =
      if number < lines.length then some (start + (lines.take number).flatten.length)
      else none := by
  induction lines generalizing start number with
  | nil => simp [offsets]
  | cons line lines ih =>
      cases number with
      | zero => simp [offsets]
      | succ number => simp [offsets, ih, Nat.add_assoc]

/-- It ends where the next one starts, or at the end of the text. -/
theorem getD_offsets {number : Nat} {lines : List Bytes} (within : number < lines.length) :
    (offsets 0 lines)[number + 1]?.getD lines.flatten.length =
      (lines.take (number + 1)).flatten.length := by
  rw [getElem?_offsets]
  split
  · simp
  · rw [List.take_of_length_le (by omega)]
    rfl

/-- So the range in between is the line. -/
theorem slice_flatten {number : Nat} {lines : List Bytes} (within : number < lines.length) :
    slice lines.flatten (lines.take number).flatten.length
      (lines.take (number + 1)).flatten.length = .ok lines[number] := by
  have before : (lines.take (number + 1)).flatten =
      (lines.take number).flatten ++ lines[number] := by
    rw [← List.take_append_getElem within, List.flatten_append, List.flatten_singleton]
  have whole : lines.flatten =
      (lines.take (number + 1)).flatten ++ (lines.drop (number + 1)).flatten := by
    rw [← List.flatten_append, List.take_append_drop]
  have inside : (lines.take number).flatten.length ≤ (lines.take (number + 1)).flatten.length ∧
      (lines.take (number + 1)).flatten.length ≤ lines.flatten.length := by
    rw [whole, before]
    simp
  rw [slice, if_pos inside, whole, List.take_left, before, List.drop_left]

/-- **Every look-up gives the line of that number**, or none if there are not so many, and its range
does not leave the text. -/
theorem get?_ofText (text : Bytes) (number : Nat) :
    (ofText text).get? number = .ok (Line.split text)[number]? := by
  rw [get?, starts_ofText, getElem?_offsets]
  by_cases within : number < (Line.split text).length
  case pos =>
    have stop := getD_offsets within
    have line := slice_flatten within
    rw [Line.flatten_split] at stop line
    have shown : (ofText text).text = text := rfl
    simp only [if_pos within, Nat.zero_add, shown, stop, line, List.getElem?_eq_getElem within,
      ok_bind, pure_eq_ok]
  case neg =>
    rw [if_neg within, List.getElem?_eq_none (Nat.le_of_not_lt within)]
    rfl

theorem length_ofText (text : Bytes) : (ofText text).length = (Line.split text).length := by
  rw [length, starts_ofText, length_offsets]

/-- An index yields the lines of its text and nothing else. -/
theorem yields_iff {text : Bytes} {lines : List Bytes} :
    (ofText text).Yields lines ↔ Line.split text = lines := by
  constructor
  · intro yields
    refine List.ext_getElem? fun number => ?_
    have same := (get?_ofText text number).symm.trans (yields.get? number)
    exact Except.ok.inj same
  · rintro rfl
    exact ⟨length_ofText text, get?_ofText text⟩

/-! ## The one way of cutting a text into lines -/

/-- **An index yields the lines of its text, which are cut in one way only.** They are joined to the
text, none is empty, and an LF stands at the end of each but perhaps the last and nowhere else.
There are none if there are no octets, and none behind the last. After a text that ends in LF, or is
empty, the lines of another one follow. -/
theorem yields_ofText (text : Bytes) :
    (ofText text).Yields (Line.split text) ∧
    (∀ lines, (ofText text).Yields lines ↔ lines.flatten = text ∧ Line.IsCut lines) ∧
    (∀ number, (ofText text).get? number = .ok none ↔ (ofText text).length ≤ number) ∧
    ((ofText text).length = 0 ↔ text = []) ∧
    (∀ later lines others, text = [] ∨ text.getLast? = some lf → (ofText text).Yields lines →
      (ofText later).Yields others → (ofText (text ++ later)).Yields (lines ++ others)) := by
  refine ⟨yields_iff.2 rfl, fun lines => yields_iff.trans Line.split_eq_iff, fun number => ?_, ?_,
    ?_⟩
  · rw [get?_ofText, length_ofText, Except.ok.injEq, List.getElem?_eq_none_iff]
  · rw [length_ofText, List.length_eq_zero_iff]
    constructor
    · intro none
      by_contra nonempty
      exact Line.split_ne_nil nonempty none
    · rintro rfl
      rfl
  · intro later lines others ended yields yieldsLater
    rw [yields_iff] at yields yieldsLater ⊢
    rw [Line.split_append text later ended, yields, yieldsLater]

/-- A text with an empty line, and a line without LF after it. -/
theorem yields_ofText_empty_line :
    let text := ofAscii "a\n\nb\r\n"
    let later := ofAscii "c\r"
    let lines := [ofAscii "a\n", ofAscii "\n", ofAscii "b\r\n"]
    let others := [ofAscii "c\r"]
    (ofText (text ++ later)).starts = [0, 2, 3, 6] ∧ text.getLast? = some lf ∧
      (ofText text).Yields lines ∧ (ofText later).Yields others ∧
      (ofText (text ++ later)).Yields (lines ++ others) ∧ lines.flatten = text := by
  intro text later lines others
  have ended : text.getLast? = some lf := by decide +kernel
  obtain ⟨yields, unique, -, -, append⟩ := yields_ofText text
  have yieldsLines : (ofText text).Yields lines := yields
  have yieldsOthers : (ofText later).Yields others := (yields_ofText later).1
  exact ⟨by decide +kernel, ended, yieldsLines, yieldsOthers,
    append later lines others (.inr ended) yieldsLines yieldsOthers,
    ((unique lines).1 yieldsLines).1⟩

end LineIndex

end DiffSections
