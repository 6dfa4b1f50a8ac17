import DiffSections.Path.Boundary

/-!
# DiffSections.Proofs.Path.Boundary -- one path on both sides of a boundary is found

A `diff --git` line that writes one path twice, with the heads of the two sides in front, has one
symmetric cut only, whatever spaces the path holds (`eq_of_isSymmetric`): a cut elsewhere makes the
two paths differ in length, or puts a letter where the space is. So the path is read back
(`paths?_sameText`), unless quotes come in.
-/

namespace DiffSections.Boundary

set_option autoImplicit false

open Bytes

/-- The cuts of a line are the ways to see it as two texts with a space between them. -/
theorem mem_spaceCuts {before line : Bytes} {cut : Bytes × Bytes} :
    cut ∈ spaceCuts before line ↔
      ∃ left, line = left ++ space :: cut.2 ∧ cut.1 = left.reverse ++ before := by
  induction line generalizing before with
  | nil => simp [spaceCuts]
  | cons b line ih =>
      have later : cut ∈ spaceCuts (b :: before) line ↔
          ∃ left, b :: line = b :: left ++ space :: cut.2 ∧
            cut.1 = (b :: left).reverse ++ before := by
        rw [ih]
        simp
      constructor
      · intro member
        unfold spaceCuts at member
        split at member
        · rename_i isSpace
          rcases List.mem_cons.1 member with rfl | after
          · exact ⟨[], by simp [isSpace]⟩
          · obtain ⟨left, same, front⟩ := later.1 after
            exact ⟨b :: left, same, front⟩
        · obtain ⟨left, same, front⟩ := later.1 member
          exact ⟨b :: left, same, front⟩
      · rintro ⟨left, same, front⟩
        unfold spaceCuts
        cases left with
        | nil =>
            obtain ⟨isSpace, rfl⟩ := List.cons.inj same
            rw [if_pos isSpace]
            exact List.mem_cons.2 (.inl (Prod.ext front rfl))
        | cons c left =>
            obtain ⟨rfl, -⟩ := List.cons.inj same
            have member := later.2 ⟨left, same, front⟩
            split
            · exact List.mem_cons_of_mem _ member
            · exact member

/-! ## One path on both sides -/

/-- What follows the head of a boundary that names one path. -/
def sameText (path : Bytes) : Bytes :=
  (sideHead .orig ++ path) ++ space :: (sideHead .new ++ path)

theorem stripSide_append (side : Side) (path : Bytes) :
    stripSide side (sideHead side ++ path) = path := by
  simp [stripSide]

/-- A symmetric cut is the one between the two paths. -/
theorem eq_of_isSymmetric {path left right : Bytes} (cut : sameText path = left ++ space :: right)
    (symmetric : stripSide .orig left = stripSide .new right) :
    left = sideHead .orig ++ path ∧ right = sideHead .new ++ path := by
  obtain ⟨inner, rfl⟩ : ∃ inner, left = sideHead .orig ++ inner := by
    match left with
    | [] => cases cut
    | [_] => cases cut
    | a :: b :: inner =>
        obtain ⟨rfl, later⟩ := List.cons.inj cut
        obtain ⟨rfl, -⟩ := List.cons.inj later
        exact ⟨inner, rfl⟩
  rw [stripSide_append] at symmetric
  have tails : path ++ space :: (sideHead .new ++ path) = inner ++ space :: right := by
    rw [sameText, List.append_assoc, List.append_assoc] at cut
    exact List.append_cancel_left cut
  have lengths := congrArg List.length tails
  simp only [List.length_append, List.length_cons] at lengths
  -- The two stripped paths are equal, so the lengths fix the cut, given whether `b/` was stripped.
  cases headed : after? (sideHead .new) right with
  | some rest =>
      obtain rfl := after?_eq_some_iff.1 headed
      rw [stripSide_append] at symmetric
      subst symmetric
      have same : inner.length = path.length := by
        simp only [List.length_append] at lengths
        omega
      obtain ⟨rfl, -⟩ := List.append_inj tails same.symm
      exact ⟨rfl, rfl⟩
  | none =>
      have whole : inner = right := by rw [symmetric, stripSide, headed, Option.getD_none]
      subst whole
      have longer : inner.length = path.length + 1 := by
        have two : (sideHead .new).length = 2 := rfl
        omega
      -- One octet on, the cut would take the `b` of the second path for its space.
      rw [List.append_cons] at tails
      obtain ⟨-, shifted⟩ := List.append_inj tails (by simp [longer])
      exact absurd (List.cons.inj shifted).1 (by decide)

theorem splitPlain?_sameText (path : Bytes) :
    splitPlain? (sameText path) = some (sideHead .orig ++ path, sideHead .new ++ path) := by
  have member : ((sideHead .orig ++ path).reverse, sideHead .new ++ path) ∈
      spaceCuts [] (sameText path) :=
    mem_spaceCuts.2 ⟨sideHead .orig ++ path, rfl, by simp⟩
  have found : (spaceCuts [] (sameText path)).find? isSymmetric =
      some ((sideHead .orig ++ path).reverse, sideHead .new ++ path) := by
    cases first : (spaceCuts [] (sameText path)).find? isSymmetric with
    | none =>
        have asymmetric := List.find?_eq_none.1 first _ member
        simp [isSymmetric, stripSide_append] at asymmetric
    | some cut =>
        obtain ⟨left, same, front⟩ := mem_spaceCuts.1 (List.mem_of_find?_eq_some first)
        rw [List.append_nil] at front
        have symmetric := List.find?_some first
        simp only [isSymmetric, front, List.reverse_reverse, beq_iff_eq] at symmetric
        obtain ⟨rfl, right⟩ := eq_of_isSymmetric same symmetric
        rw [← front, ← right]
  simp [splitPlain?, found]

/-- **One path on both sides is read back**, whatever spaces it holds. -/
theorem paths?_sameText {path : Bytes} (unquoted : quote ∉ path) :
    paths? (sameText path) = some (Text.lossy path, Text.lossy path) := by
  have notFirst : (sameText path).head? ≠ some quote := by
    show some (97 : UInt8) ≠ some quote
    decide
  have notLast : (sameText path).getLast? ≠ some quote := by
    intro last
    have member := List.mem_of_getLast? last
    simp only [sameText, List.mem_append, List.mem_cons, unquoted, or_false] at member
    revert member
    decide
  simp only [paths?, split?, notFirst, quotedCut?, notLast, if_false, splitPlain?_sameText,
    Option.map_some, pathText, stripSide_append]

end DiffSections.Boundary
