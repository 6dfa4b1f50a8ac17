import DiffSections.Proofs.Checked
import DiffSections.Proofs.Path.Boundary
import Mathlib.Data.List.Basic

/-!
# DiffSections.Proofs.Path.Slices -- the two paths of a boundary, cut out by index

`Boundary.split?` takes a `diff --git` line apart as a list. `Boundary.splitAt?` does the same with
indices and ranges: it looks for the quote or the space to cut at, and takes the octets before and
behind it with `Bytes.slice`, which panics where a range leaves the text. `splitAt?_eq` says that
none of its ranges does, and that it finds the same two paths.
-/

namespace DiffSections

set_option autoImplicit false

open Bytes

namespace Quoted

theorem endIndexFrom?_lt {escaped : Bool} {index last : Nat} {raw : Bytes}
    (ends : endIndexFrom? escaped index raw = some last) : last < index + raw.length := by
  fun_induction endIndexFrom? escaped index raw with
  | case1 => cases ends
  | case2 index b rest ih | case3 index rest ih | case5 index b rest _ _ ih =>
      have later := ih ends
      simp only [List.length_cons]
      omega
  | case4 index rest =>
      cases ends
      simp

/-- The closing quote stands in the text. -/
theorem endIndex?_lt {raw : Bytes} {last : Nat} (ends : endIndex? raw = some last) :
    last < raw.length := by
  cases raw with
  | nil => cases ends
  | cons b rest =>
      have within := endIndexFrom?_lt ends
      simp only [List.tail_cons] at within
      simp only [List.length_cons]
      omega

end Quoted

namespace Boundary

/-! ## Cuts by index -/

/-- The indices of the spaces of a text, from the left. -/
def spaces (text : Bytes) : List Nat :=
  (List.range text.length).filter fun index => text[index]? = some space

/-- The octets before the one at an index, and those behind it. -/
def cutAt (line : Bytes) (index : Nat) : Except Panic (Bytes × Bytes) := do
  let before ← slice line 0 index
  let after ← slice line (index + 1) line.length
  return (before, after)

/-- The first of these indices at which the cut has a property. -/
def firstCut? (line : Bytes) (holds : Bytes → Bytes → Bool) :
    List Nat → Except Panic (Option Nat)
  | [] => return none
  | index :: later => do
      let (before, after) ← cutAt line index
      if holds before after then return some index else firstCut? line holds later

/-- Whether one path stands on both sides, each behind its side's head or bare. -/
def sameSides (before after : Bytes) : Bool :=
  stripSide .orig before == stripSide .new after

/-- Cut two paths of which neither is quoted. -/
def splitPlainAt? (line : Bytes) : Except Panic (Option (Bytes × Bytes)) :=
  let candidates := spaces line
  if candidates.isEmpty then return none
  else do
    let symmetric ← firstCut? line sameSides candidates
    let found ← match symmetric with
      | some index => pure (some index)
      | none => firstCut? line (fun _ after => startsWith after (sideHead .new)) candidates.reverse
    let first ← match candidates[0]? with
      | some index => pure index
      | none => throw .outOfBounds
    let cut ← cutAt line (found.getD first)
    return some cut

/-- The index of the first space with a quote behind it. -/
def quotedSpace? (text : Bytes) : Option Nat :=
  (List.range text.length).find? fun index =>
    text[index]? = some space ∧ text[index + 1]? = some quote

/-- The two paths of a line, unquoted, cut out by index. -/
def splitAt? (line : Bytes) : Except Panic (Option (Bytes × Bytes)) :=
  if line.head? = some quote then
    match Quoted.endIndex? line with
    | none => return none
    | some last => do
        let quoted ← slice line 0 (last + 1)
        let rest ← slice line (last + 1) line.length
        return do
          let orig ← Quoted.decode? quoted
          let rest ← after? [space] rest
          let new ← Quoted.pathOf? rest
          return (orig, new)
  else
    match if line.getLast? = some quote then quotedSpace? line else none with
    | some index => do
        let after ← slice line (index + 1) line.length
        let before ← slice line 0 index
        return (Quoted.decode? after).map (before, ·)
    | none => splitPlainAt? line

/-! ## The cuts are those of the spaces -/

variable {line : Bytes} {index : Nat}

theorem lt_length_of_mem_spaces (member : index ∈ spaces line) : index < line.length :=
  List.mem_range.1 (List.mem_filter.1 member).1

theorem spaces_cons (b : UInt8) (line : Bytes) :
    spaces (b :: line) = (if b = space then [0] else []) ++ (spaces line).map (· + 1) := by
  rw [spaces, List.length_cons, List.range_succ_eq_map, List.filter_cons, List.filter_map]
  by_cases isSpace : b = space <;> simp [isSpace, spaces, Function.comp_def]

/-- What `spaceCuts` lists are the cuts at the spaces. -/
theorem spaceCuts_eq_map (before line : Bytes) :
    spaceCuts before line =
      (spaces line).map fun index =>
        ((line.take index).reverse ++ before, line.drop (index + 1)) := by
  induction line generalizing before with
  | nil => rfl
  | cons b line ih =>
      rw [spaceCuts, ih, spaces_cons]
      by_cases isSpace : b = space <;> simp [isSpace, Function.comp_def]

theorem cutAt_eq (within : index < line.length) :
    cutAt line index = .ok (line.take index, line.drop (index + 1)) := by
  rw [cutAt, slice_zero (Nat.le_of_lt within), slice_length within]
  rfl

theorem firstCut?_eq (holds : Bytes → Bytes → Bool) {indices : List Nat}
    (within : ∀ index ∈ indices, index < line.length) :
    firstCut? line holds indices =
      .ok (indices.find? fun index => holds (line.take index) (line.drop (index + 1))) := by
  induction indices with
  | nil => rfl
  | cons index later ih =>
      have here := cutAt_eq (within index (by simp))
      have rest := ih fun other member => within other (List.mem_cons_of_mem index member)
      rw [firstCut?, here, rest, List.find?_cons]
      simp only [ok_bind, pure_eq_ok]
      cases holds (line.take index) (line.drop (index + 1)) <;> rfl

/-- The search for the cut of an unquoted line, among the indices of its spaces. -/
theorem splitPlain?_eq (line : Bytes) :
    splitPlain? line =
      ((spaces line).find? (fun index => sameSides (line.take index) (line.drop (index + 1)))
        <|> (spaces line).reverse.find? (fun index =>
          startsWith (line.drop (index + 1)) (sideHead .new))
        <|> (spaces line).head?).map fun index => (line.take index, line.drop (index + 1)) := by
  have cuts := spaceCuts_eq_map [] line
  simp only [List.append_nil] at cuts
  rw [splitPlain?, cuts, List.find?_map, List.filter_map, List.getLast?_map, List.head?_map,
    List.getLast?_filter]
  simp only [isSymmetric, sameSides, Function.comp_def, List.reverse_reverse]
  cases (spaces line).find? fun index =>
      stripSide .orig (line.take index) == stripSide .new (line.drop (index + 1)) with
  | some index => simp
  | none =>
      cases (spaces line).reverse.find? fun index =>
          startsWith (line.drop (index + 1)) (sideHead .new) with
      | some index => simp
      | none => cases (spaces line).head? <;> simp

theorem splitPlainAt?_eq (line : Bytes) : splitPlainAt? line = .ok (splitPlain? line) := by
  have within : ∀ index ∈ spaces line, index < line.length := fun _ => lt_length_of_mem_spaces
  have backwards : ∀ index ∈ (spaces line).reverse, index < line.length := by simpa using within
  rw [splitPlainAt?, splitPlain?_eq]
  simp only [firstCut?_eq _ within, firstCut?_eq _ backwards, ok_bind, pure_eq_ok]
  cases candidates : spaces line with
  | nil => rfl
  | cons first later =>
      rw [candidates] at within backwards
      simp only [List.isEmpty_cons, Bool.false_eq_true, if_false, List.getElem?_cons_zero,
        List.head?_cons]
      cases symmetric : (first :: later).find? fun index =>
          sameSides (line.take index) (line.drop (index + 1)) with
      | some index =>
          simp [cutAt_eq (within index (List.mem_of_find?_eq_some symmetric))]
      | none =>
          cases headed : (first :: later).reverse.find? fun index =>
              startsWith (line.drop (index + 1)) (sideHead .new) with
          | some index => simp [cutAt_eq (backwards index (List.mem_of_find?_eq_some headed))]
          | none => simp [cutAt_eq (within first (by simp))]

/-- The space before the quoted path at the end of a line is one of the spaces. -/
theorem quotedCut?_eq (line : Bytes) :
    quotedCut? line = (if line.getLast? = some quote then quotedSpace? line else none).map
      fun index => ((line.take index).reverse, line.drop (index + 1)) := by
  have cuts := spaceCuts_eq_map [] line
  simp only [List.append_nil] at cuts
  rw [quotedCut?]
  split
  · rw [cuts, List.find?_map, quotedSpace?, spaces, List.find?_filter]
    simp [Bool.decide_and]
  · rfl

theorem quotedSpace?_lt (found : quotedSpace? line = some index) : index < line.length :=
  List.mem_range.1 (List.mem_of_find?_eq_some found)

/-- **No range leaves the line**, and the cuts by index are the same two paths. -/
theorem splitAt?_eq (line : Bytes) : splitAt? line = .ok (split? line) := by
  rw [splitAt?, split?]
  split
  · cases ends : Quoted.endIndex? line with
    | none => rfl
    | some last =>
        have within := Quoted.endIndex?_lt ends
        simp only [slice_zero within, slice_length within]
        rfl
  · rw [quotedCut?_eq]
    cases found : if line.getLast? = some quote then quotedSpace? line else none with
    | none => exact splitPlainAt?_eq line
    | some index =>
        have within : index < line.length := by
          split at found
          · exact quotedSpace?_lt found
          · cases found
        simp only [slice_zero (Nat.le_of_lt within), slice_length within, Option.map_some,
          List.reverse_reverse]
        rfl

end Boundary

end DiffSections
