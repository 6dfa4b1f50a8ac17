import DiffSections.Proofs.Path.Boundary
import DiffSections.Proofs.Path.Spelling

/-!
# DiffSections.Proofs.Path.BoundaryForms -- every form of a boundary gives its two paths back

A `diff --git` line names a path on each side, and each of the two may stand in quotes
(`Boundary.Written`). What is read are the two paths, whatever the form (`paths?_of_written`).

Quotes show where a path ends. Two plain paths have only the `b/` behind a space between them, the
seam. If neither of them holds a seam of its own, a cut elsewhere that looks right would put this
one inside a path (`eq_of_isSymmetric_of_apart`, `eq_of_startsWith_of_apart`). If they are one path,
it may hold what it likes.
-/

namespace DiffSections.Boundary

set_option autoImplicit false

open Bytes

/-- What stands between two plain paths: a space and the head of the new side. -/
def seam : Bytes := space :: sideHead .new

/-- The forms of a line that names these paths, from the first one on. -/
inductive Written (orig new : Bytes) : Bytes → Prop where
  | plain (origPlain : quote ∉ orig) (newPlain : quote ∉ new)
      (apart : orig = new ∨ ¬ seam <:+: orig ∧ ¬ seam <:+: new) :
      Written orig new ((sideHead .orig ++ orig) ++ space :: (sideHead .new ++ new))
  | quoted {origRaw newRaw : Bytes} (origQuotes : Quoted.Quotes origRaw (sideHead .orig ++ orig))
      (newQuotes : Quoted.Quotes newRaw (sideHead .new ++ new)) :
      Written orig new (origRaw ++ space :: newRaw)
  | quotedOrig {origRaw : Bytes} (origQuotes : Quoted.Quotes origRaw (sideHead .orig ++ orig)) :
      Written orig new (origRaw ++ space :: (sideHead .new ++ new))
  | quotedNew {newRaw : Bytes} (origPlain : quote ∉ orig)
      (newQuotes : Quoted.Quotes newRaw (sideHead .new ++ new)) :
      Written orig new ((sideHead .orig ++ orig) ++ space :: newRaw)

/-! ## Where two plain paths can be cut -/

variable {orig new left right : Bytes}

/-- No head of a side holds a space. -/
theorem exists_of_sideHead_cut {side : Side} {path : Bytes}
    (cut : sideHead side ++ path = left ++ space :: right) :
    ∃ lead, left = sideHead side ++ lead ∧ path = lead ++ space :: right := by
  obtain ⟨a, same, notSpace⟩ : ∃ a, sideHead side = [a, slash] ∧ a ≠ space := by
    cases side <;> exact ⟨_, rfl, by decide⟩
  rw [same] at cut ⊢
  match left with
  | [] => exact absurd (List.cons.inj cut).1 notSpace
  | [_] =>
      obtain ⟨-, later⟩ := List.cons.inj cut
      exact absurd (List.cons.inj later).1 (by decide)
  | _ :: _ :: lead =>
      obtain ⟨rfl, later⟩ := List.cons.inj cut
      obtain ⟨rfl, path⟩ := List.cons.inj later
      exact ⟨lead, rfl, path⟩

/-- A line of two plain paths is cut between them, or inside one of them. -/
theorem cut_cases
    (cut : (sideHead .orig ++ orig) ++ space :: (sideHead .new ++ new) = left ++ space :: right) :
    (left = sideHead .orig ++ orig ∧ right = sideHead .new ++ new) ∨
    (∃ lead tail, orig = lead ++ space :: tail ∧ left = sideHead .orig ++ lead ∧
      right = tail ++ (seam ++ new)) ∨
    ∃ lead, new = lead ++ space :: right ∧ left = sideHead .orig ++ (orig ++ (seam ++ lead)) := by
  rcases List.append_eq_append_iff.1 cut with ⟨more, isLeft, later⟩ | ⟨more, isOrig, later⟩
  · cases more with
    | nil =>
        obtain ⟨-, isRight⟩ := List.cons.inj later
        exact .inl ⟨by simpa using isLeft, isRight.symm⟩
    | cons b more =>
        obtain ⟨rfl, rest⟩ := List.cons.inj later
        obtain ⟨lead, rfl, isNew⟩ := exists_of_sideHead_cut rest
        exact .inr (.inr ⟨lead, isNew, by simp [isLeft, seam]⟩)
  · cases more with
    | nil =>
        obtain ⟨-, isRight⟩ := List.cons.inj later
        exact .inl ⟨by simpa using isOrig.symm, isRight⟩
    | cons b more =>
        obtain ⟨rfl, rfl⟩ := List.cons.inj later
        obtain ⟨lead, rfl, inner⟩ := exists_of_sideHead_cut isOrig
        exact .inr (.inl ⟨lead, more, inner, rfl, by simp [seam]⟩)

/-- What starts with the new side's head before the seam holds the head whole. -/
theorem exists_of_after?_seam {tail rest : Bytes}
    (headed : after? (sideHead .new) (tail ++ (seam ++ new)) = some rest) :
    ∃ more, tail = sideHead .new ++ more := by
  have starts := after?_eq_some_iff.1 headed
  match tail with
  | [] => exact absurd (List.cons.inj starts).1 (by decide)
  | [_] =>
      obtain ⟨-, later⟩ := List.cons.inj starts
      exact absurd (List.cons.inj later).1 (by decide)
  | _ :: _ :: more =>
      obtain ⟨rfl, later⟩ := List.cons.inj starts
      obtain ⟨rfl, -⟩ := List.cons.inj later
      exact ⟨more, rfl⟩

theorem stripSide_isSuffix (side : Side) (path : Bytes) : stripSide side path <:+ path := by
  unfold stripSide
  cases headed : after? (sideHead side) path with
  | none => exact List.suffix_refl path
  | some rest =>
      obtain rfl := after?_eq_some_iff.1 headed
      exact List.suffix_append _ rest

section Apart

variable (origApart : ¬ seam <:+: orig) (newApart : ¬ seam <:+: new)
  (cut : (sideHead .orig ++ orig) ++ space :: (sideHead .new ++ new) = left ++ space :: right)

include origApart newApart cut

/-- A cut that leaves the new side's head behind it is the one between the two paths. -/
theorem eq_of_startsWith_of_apart (headed : startsWith right (sideHead .new) = true) :
    left = sideHead .orig ++ orig ∧ right = sideHead .new ++ new := by
  obtain ⟨rest, starts⟩ := startsWith_iff.1 headed
  rcases cut_cases cut with between | ⟨lead, tail, inOrig, -, isRight⟩ | ⟨lead, inNew, -⟩
  · exact between
  · rw [isRight] at starts
    obtain ⟨more, rfl⟩ := exists_of_after?_seam (after?_eq_some_iff.2 starts)
    exact absurd ⟨lead, more, by simp [inOrig, seam]⟩ origApart
  · exact absurd ⟨lead, rest, by simp [inNew, starts, seam]⟩ newApart

/-- A symmetric cut is the one between the two paths. -/
theorem eq_of_isSymmetric_of_apart
    (symmetric : stripSide .orig left = stripSide .new right) :
    left = sideHead .orig ++ orig ∧ right = sideHead .new ++ new := by
  rcases cut_cases cut with between | ⟨lead, tail, inOrig, isLeft, isRight⟩ | ⟨lead, inNew, isLeft⟩
  · exact between
  · rw [isLeft, stripSide_append, isRight, stripSide] at symmetric
    cases headed : after? (sideHead .new) (tail ++ (seam ++ new)) with
    | none =>
        -- The new path as it stands, with the seam in it, would be a part of the old one.
        rw [headed, Option.getD_none] at symmetric
        exact absurd ⟨tail, new ++ space :: tail, by simp [inOrig, symmetric]⟩ origApart
    | some rest =>
        obtain ⟨more, rfl⟩ := exists_of_after?_seam headed
        exact absurd ⟨lead, more, by simp [inOrig, seam]⟩ origApart
  · rw [isLeft, stripSide_append] at symmetric
    have inStripped : seam <:+: stripSide .new right := by
      rw [← symmetric]
      exact ⟨orig, lead, by simp⟩
    have inRight : seam <:+: right := inStripped.trans (stripSide_isSuffix .new right).isInfix
    have inNew' : right <:+: new := ⟨lead ++ [space], [], by simp [inNew]⟩
    exact absurd (inRight.trans inNew') newApart

end Apart

/-! ## Two plain paths -/

/-- **Two plain paths without a seam in them are cut at the seam between them.** -/
theorem splitPlain?_of_apart (apart : orig = new ∨ ¬ seam <:+: orig ∧ ¬ seam <:+: new) :
    splitPlain? ((sideHead .orig ++ orig) ++ space :: (sideHead .new ++ new)) =
      some (sideHead .orig ++ orig, sideHead .new ++ new) := by
  by_cases same : orig = new
  · subst same
    exact splitPlain?_sameText orig
  obtain ⟨origApart, newApart⟩ := apart.resolve_left same
  generalize isLine : (sideHead .orig ++ orig) ++ space :: (sideHead .new ++ new) = line
  have asymmetric : (spaceCuts [] line).find? isSymmetric = none := by
    rw [List.find?_eq_none]
    intro cut member symmetric
    obtain ⟨left, here, front⟩ := mem_spaceCuts.1 member
    simp only [isSymmetric, front, List.append_nil, List.reverse_reverse, beq_iff_eq] at symmetric
    obtain ⟨rfl, isRight⟩ :=
      eq_of_isSymmetric_of_apart origApart newApart (isLine.trans here) symmetric
    rw [isRight, stripSide_append, stripSide_append] at symmetric
    exact same symmetric
  have between : ((sideHead .orig ++ orig).reverse, sideHead .new ++ new) ∈
      (spaceCuts [] line).filter fun cut => startsWith cut.2 (sideHead .new) := by
    refine List.mem_filter.2 ⟨mem_spaceCuts.2 ⟨_, isLine.symm, by simp⟩, ?_⟩
    exact startsWith_iff.2 ⟨new, rfl⟩
  have headed : ((spaceCuts [] line).filter fun cut => startsWith cut.2 (sideHead .new)).getLast? =
      some ((sideHead .orig ++ orig).reverse, sideHead .new ++ new) := by
    obtain ⟨cut, last⟩ :=
      Option.isSome_iff_exists.1 (List.getLast?_isSome.2 (List.ne_nil_of_mem between))
    obtain ⟨member, starts⟩ := List.mem_filter.1 (List.mem_of_getLast? last)
    obtain ⟨left, here, front⟩ := mem_spaceCuts.1 member
    obtain ⟨rfl, isRight⟩ :=
      eq_of_startsWith_of_apart origApart newApart (isLine.trans here) starts
    rw [last]
    exact congrArg some (Prod.ext (by simp [front]) isRight)
  simp [splitPlain?, asymmetric, headed]

/-! ## Every form -/

/-- The cuts of a line are those of its first part, then the one behind it, then those later. -/
theorem spaceCuts_append (before left right : Bytes) :
    spaceCuts before (left ++ space :: right) =
      (spaceCuts before left).map (fun cut => (cut.1, cut.2 ++ space :: right)) ++
        (left.reverse ++ before, right) :: spaceCuts (space :: (left.reverse ++ before)) right := by
  induction left generalizing before with
  | nil => simp [spaceCuts]
  | cons b left ih =>
      rw [List.cons_append, spaceCuts, ih, spaceCuts]
      split <;> simp

/-- The quoted path at the end of a line is cut off where it starts. -/
theorem quotedCut?_append {raw path : Bytes} (origPlain : quote ∉ left)
    (quotes : Quoted.Quotes raw path) :
    quotedCut? (left ++ space :: raw) = some (left.reverse, raw) := by
  have last : (left ++ space :: raw).getLast? = some quote := by
    rw [List.getLast?_append, List.getLast?_cons, quotes.getLast?]
    rfl
  have earlier : ((spaceCuts [] left).map fun cut => (cut.1, cut.2 ++ space :: raw)).find?
      (fun cut => cut.2.head? = some quote) = none := by
    rw [List.find?_eq_none]
    intro cut member starts
    obtain ⟨inner, isInner, rfl⟩ := List.mem_map.1 member
    obtain ⟨lead, isLeft, -⟩ := mem_spaceCuts.1 isInner
    cases behind : inner.2 with
    | nil =>
        have isQuote : space = quote := by simpa [behind] using starts
        exact absurd isQuote (by decide)
    | cons b rest =>
        have isQuote : b = quote := by simpa [behind] using starts
        exact origPlain (by simp [isLeft, behind, isQuote])
  rw [quotedCut?, if_pos last, spaceCuts_append, List.find?_append, earlier, Option.none_or,
    List.find?_cons_of_pos (by simp [quotes.head?]), List.append_nil]

/-- A path in quotes at the start of a line is taken off it, with the space behind it. -/
theorem split?_of_quotes {raw path rest : Bytes} (quotes : Quoted.Quotes raw path) :
    split? (raw ++ space :: rest) = (Quoted.pathOf? rest).map (path, ·) := by
  have first : (raw ++ space :: rest).head? = some quote := by
    rw [List.head?_append, quotes.head?]
    rfl
  have whole : raw.length - 1 + 1 = raw.length := Nat.sub_add_cancel quotes.length_pos
  have gap : after? [space] (space :: rest) = some rest := after?_append [space] rest
  rw [split?, if_pos first, quotes.endIndex?, Option.bind_eq_bind, Option.bind_some, whole,
    List.take_left, List.drop_left, quotes.decode?, gap]
  show (Quoted.pathOf? rest).bind (fun new => some (path, new)) = _
  cases Quoted.pathOf? rest <;> rfl

theorem pathOf?_sideHead_append (side : Side) (path : Bytes) :
    Quoted.pathOf? (sideHead side ++ path) = some (sideHead side ++ path) := by
  cases side <;> rfl

/-- A line that starts with a side's head does not start with a quote. -/
theorem head?_sideHead_append (side : Side) (path rest : Bytes) :
    ((sideHead side ++ path) ++ rest).head? ≠ some quote := by
  intro first
  cases side <;> cases first

variable {line : Bytes}

theorem split?_of_written (written : Written orig new line) :
    split? line = some (sideHead .orig ++ orig, sideHead .new ++ new) := by
  cases written with
  | plain origPlain newPlain apart =>
      have notLast : quotedCut? ((sideHead .orig ++ orig) ++ space :: (sideHead .new ++ new)) =
          none := by
        refine if_neg fun last => ?_
        have member := List.mem_of_getLast? last
        simp only [List.mem_append, List.mem_cons, origPlain, newPlain, or_false] at member
        revert member
        decide
      rw [split?, if_neg (head?_sideHead_append .orig orig _), notLast]
      exact splitPlain?_of_apart apart
  | quoted origQuotes newQuotes =>
      rw [split?_of_quotes origQuotes, newQuotes.pathOf?, Option.map_some]
  | quotedOrig origQuotes =>
      rw [split?_of_quotes origQuotes, pathOf?_sideHead_append, Option.map_some]
  | quotedNew origPlain newQuotes =>
      have notQuoted : quote ∉ sideHead .orig ++ orig := by
        rw [List.mem_append]
        exact fun member => member.elim (by decide) origPlain
      rw [split?, if_neg (head?_sideHead_append .orig orig _),
        quotedCut?_append notQuoted newQuotes]
      simp only [newQuotes.decode?, Option.map_some, List.reverse_reverse]

/-- **The paths of a boundary are read back from every form of it.** -/
theorem paths?_of_written (written : Written orig new line) :
    paths? line = some (Text.lossy orig, Text.lossy new) := by
  simp only [paths?, split?_of_written written, Option.map_some, pathText, stripSide_append]

/-- The new path holds a tab and an accent, of which half is escaped; the old one ends like a
seam. -/
theorem paths?_of_written_accent :
    let orig := ofAscii "x b"
    let new : Bytes := [116, tab, 195, 169]
    let line := ofAscii "a/x b \"b/t\\t\\303" ++ [169, quote]
    Written orig new line ∧ paths? line = some (Text.lossy orig, Text.lossy new) := by
  intro orig new line
  have spells : Quoted.Spells
      ([98] ++ ([slash] ++ ([116] ++
        ([backslash, 116] ++ ([backslash, 51, 48, 51] ++ ([169] ++ []))))))
      (sideHead .new ++ new) :=
    .cons (.plain (by decide) (by decide)) <| .cons (.plain (by decide) (by decide)) <|
      .cons (.plain (by decide) (by decide)) <| .cons (.named .tab) <| .cons (.octal 195) <|
      .cons (.plain (by decide) (by decide)) .nil
  have written : Written orig new line := .quotedNew (by decide) ⟨_, rfl, spells⟩
  exact ⟨written, paths?_of_written written⟩

end DiffSections.Boundary
