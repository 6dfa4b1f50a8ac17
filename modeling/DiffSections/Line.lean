import DiffSections.Bytes

/-!
# DiffSections.Line -- an octet string as lines that keep their ends

A line runs up to and including the next LF; the last one may have none. Nothing is dropped, so the
lines of a text joined again are the text. What is matched against the formats is a line's
`content`: the line without a final LF and then without a final CR. What is kept is the line itself.

* `flatten_split`: the lines, joined, are the input.
* `split_append`: cutting the input after a line end cuts its lines at the same place.
-/

namespace DiffSections.Line

set_option autoImplicit false

open Bytes

/-- Put one octet in front of a text already cut into lines. -/
def consByte (b : UInt8) : List Bytes → List Bytes
  | [] => [[b]]
  | line :: lines => if b = lf then [b] :: line :: lines else (b :: line) :: lines

/-- The lines of a text, each with its end. -/
def split (data : Bytes) : List Bytes :=
  data.foldr consByte []

/-- Lines are counted from one. -/
def number (index : Nat) : Nat := index + 1

/-- Take `b` off the end of a line that ends in it. -/
def stripLast (b : UInt8) (line : Bytes) : Bytes :=
  if line.getLast? = some b then line.dropLast else line

/-- A line as the formats read it. -/
def content (line : Bytes) : Bytes :=
  stripLast cr (stripLast lf line)

/-! ## The lines are the text -/

theorem split_nil : split [] = [] := rfl

theorem split_cons (b : UInt8) (data : Bytes) : split (b :: data) = consByte b (split data) := rfl

theorem flatten_consByte (b : UInt8) (lines : List Bytes) :
    (consByte b lines).flatten = b :: lines.flatten := by
  cases lines with
  | nil => rfl
  | cons line lines => by_cases h : b = lf <;> simp [consByte, h]

theorem flatten_split (data : Bytes) : (split data).flatten = data := by
  induction data with
  | nil => rfl
  | cons b data ih => rw [split_cons, flatten_consByte, ih]

theorem split_ne_nil {data : Bytes} (h : data ≠ []) : split data ≠ [] := by
  intro none
  exact h (by simpa [none] using (flatten_split data).symm)

theorem consByte_append (b : UInt8) {first : List Bytes} (h : first ≠ []) (later : List Bytes) :
    consByte b (first ++ later) = consByte b first ++ later := by
  cases first with
  | nil => exact absurd rfl h
  | cons line lines => by_cases e : b = lf <;> simp [consByte, e]

/-- **Lines are cut at line ends.** After a text that ends in LF the next one starts afresh. -/
theorem split_append (first later : Bytes) (h : first = [] ∨ first.getLast? = some lf) :
    split (first ++ later) = split first ++ split later := by
  induction first with
  | nil => simp [split_nil]
  | cons b first ih =>
      rw [List.cons_append, split_cons, split_cons]
      cases first with
      | nil =>
          have isEnd : b = lf := by simpa using h
          subst isEnd
          cases tail : split later with
          | nil => simp [tail, split_nil, consByte]
          | cons line lines => simp [tail, split_nil, consByte]
      | cons c first =>
          have later := ih (.inr (by simpa using h))
          rw [later, consByte_append b (split_ne_nil (by simp))]

end DiffSections.Line
