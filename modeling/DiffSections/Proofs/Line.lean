import DiffSections.Line
import DiffSections.Proofs.Bytes
import Mathlib.Data.List.Basic

/-!
# DiffSections.Proofs.Line -- a text has its lines in one way only

A line is not empty and holds an LF at most at its end; a text's lines all end in one, but for the
last (`IsCut`). `split_eq_iff` says that these words fix the lines of a text. So any stretch of the
lines of a text is the lines of that stretch (`split_flatten_of_stretch`), and lines that are
written with an LF after each are read back as they were written (`split_flatten_of_ended`).
-/

namespace DiffSections.Line

set_option autoImplicit false

open Bytes

/-- A line: not empty, and without an LF before its end. -/
structure IsLine (line : Bytes) : Prop where
  ne_nil : line ≠ []
  unbroken : lf ∉ line.dropLast

/-- The lines of one text: each but the last ends in LF. -/
structure IsCut (lines : List Bytes) : Prop where
  isLine : ∀ line ∈ lines, IsLine line
  ended : ∀ line ∈ lines.dropLast, line.getLast? = some lf

/-! ## The lines that a text is split into -/

theorem isLine_singleton (b : UInt8) : IsLine [b] := ⟨by simp, by simp⟩

theorem isLine_cons {b : UInt8} {line : Bytes} (isLine : IsLine line) (inner : b ≠ lf) :
    IsLine (b :: line) := by
  refine ⟨by simp, ?_⟩
  rw [List.dropLast_cons_of_ne_nil isLine.ne_nil]
  simpa [inner.symm] using isLine.unbroken

theorem isCut_nil : IsCut [] := ⟨by simp, by simp⟩

theorem isCut_singleton {line : Bytes} (isLine : IsLine line) : IsCut [line] :=
  ⟨by simpa using isLine, by simp⟩

theorem isCut_cons {line : Bytes} {lines : List Bytes} (isLine : IsLine line)
    (ended : line.getLast? = some lf) (cut : IsCut lines) : IsCut (line :: lines) := by
  refine ⟨by simpa using ⟨isLine, cut.isLine⟩, fun other inner => ?_⟩
  cases lines with
  | nil => simp at inner
  | cons next lines =>
      rcases List.mem_cons.1 inner with rfl | later
      · exact ended
      · exact cut.ended other later

theorem isCut_consByte (b : UInt8) {lines : List Bytes} (cut : IsCut lines) :
    IsCut (consByte b lines) := by
  cases lines with
  | nil => exact isCut_singleton (isLine_singleton b)
  | cons line lines =>
      by_cases isEnd : b = lf
      · subst isEnd
        simpa [consByte] using isCut_cons (isLine_singleton lf) (by simp) cut
      · have first := cut.isLine line (by simp)
        simp only [consByte, isEnd, if_false]
        refine ⟨fun other member => ?_, fun other inner => ?_⟩
        · rcases List.mem_cons.1 member with rfl | later
          · exact isLine_cons first isEnd
          · exact cut.isLine other (by simp [later])
        · cases lines with
          | nil => simp at inner
          | cons next lines =>
              rcases List.mem_cons.1 inner with rfl | later
              · rw [List.getLast?_cons_of_ne_nil first.ne_nil]
                exact cut.ended line (by simp)
              · exact cut.ended other (by simp [later])

theorem isCut_split (data : Bytes) : IsCut (split data) := by
  induction data with
  | nil => exact isCut_nil
  | cons b data ih => exact isCut_consByte b ih

/-! ## A text is split in one way only -/

theorem split_of_isLine {line : Bytes} (isLine : IsLine line) : split line = [line] := by
  induction line with
  | nil => exact absurd rfl isLine.ne_nil
  | cons b line ih =>
      cases line with
      | nil => rfl
      | cons c line =>
          have unbroken := isLine.unbroken
          rw [List.dropLast_cons_of_ne_nil (by simp)] at unbroken
          have inner : b ≠ lf := fun isEnd => unbroken (by simp [isEnd])
          have later := ih ⟨by simp, fun broken => unbroken (List.mem_cons_of_mem b broken)⟩
          rw [split_cons, later]
          simp [consByte, inner]

theorem split_flatten {lines : List Bytes} (cut : IsCut lines) :
    split lines.flatten = lines := by
  induction lines with
  | nil => rfl
  | cons line lines ih =>
      have first := split_of_isLine (cut.isLine line (by simp))
      cases lines with
      | nil => simpa using first
      | cons next lines =>
          have ended := cut.ended line (by simp)
          have later : IsCut (next :: lines) :=
            ⟨fun other member => cut.isLine other (List.mem_cons_of_mem line member),
              fun other inner => cut.ended other (by simp [inner])⟩
          rw [List.flatten_cons, split_append _ _ (.inr ended), first, ih later]
          rfl

/-- **A text has its lines in one way only.** -/
theorem split_eq_iff {data : Bytes} {lines : List Bytes} :
    split data = lines ↔ lines.flatten = data ∧ IsCut lines := by
  constructor
  · rintro rfl
    exact ⟨flatten_split data, isCut_split data⟩
  · rintro ⟨rfl, cut⟩
    exact split_flatten cut

/-! ## Stretches of lines, and written lines -/

theorem IsCut.of_stretch {inner lines : List Bytes} (cut : IsCut lines)
    (within : inner <:+: lines) : IsCut inner := by
  refine ⟨fun line member => cut.isLine line (within.mem member), fun line early => ?_⟩
  obtain ⟨before, after, rfl⟩ := within
  refine cut.ended line ?_
  cases after with
  | nil =>
      have nonempty : inner ≠ [] := by rintro rfl; simp at early
      rw [List.append_nil, List.dropLast_append_of_ne_nil nonempty]
      simp [early]
  | cons next after =>
      rw [List.dropLast_append_of_ne_nil (by simp)]
      simp [List.dropLast_subset _ early]

/-- A stretch of the lines of a text is the lines of that stretch. -/
theorem split_flatten_of_stretch {data : Bytes} {inner : List Bytes}
    (within : inner <:+: split data) : split inner.flatten = inner :=
  split_flatten ((isCut_split data).of_stretch within)

/-- A text that is put after some lines, but not all, of another one starts a line of its own. -/
theorem split_take_append {data : Bytes} {count : Nat} (early : count < (split data).length)
    (more : Bytes) :
    split (((split data).take count).flatten ++ more) = (split data).take count ++ split more := by
  have ended : ((split data).take count).flatten = [] ∨
      ((split data).take count).flatten.getLast? = some lf := by
    rcases List.eq_nil_or_concat ((split data).take count) with none | ⟨lead, last, isLast⟩
    · exact .inl (by rw [none, List.flatten_nil])
    · right
      have early : (split data).take count <+: (split data).dropLast := by
        rw [List.dropLast_eq_take]
        exact List.take_prefix_take_left (by omega)
      have isEnd := (isCut_split data).ended last (early.subset (by simp [isLast]))
      simp [isLast, List.getLast?_append, isEnd]
  rw [split_append _ _ ended, split_flatten_of_stretch (List.take_prefix _ _).isInfix]

/-- A line is a text with an LF after it, or, at the end of the input, without one. -/
theorem IsLine.exists_text {line : Bytes} (isLine : IsLine line) :
    ∃ text, lf ∉ text ∧ (line = text ++ [lf] ∨ line = text ∧ text ≠ []) := by
  by_cases last : line.getLast? = some lf
  · exact ⟨line.dropLast, isLine.unbroken, .inl (List.dropLast_append_getLast? lf last).symm⟩
  · refine ⟨line, fun broken => ?_, .inr ⟨rfl, isLine.ne_nil⟩⟩
    obtain ⟨early, b, rfl⟩ := line.eq_nil_or_concat'.resolve_left isLine.ne_nil
    rcases List.mem_append.1 broken with inner | isEnd
    · exact isLine.unbroken (by simpa using inner)
    · exact last (by simp [List.mem_singleton.1 isEnd])

/-- A line written out: a text without LF, and an LF after it. -/
def Ended (line : Bytes) : Prop := ∃ text, line = text ++ [lf] ∧ lf ∉ text

theorem ended_append {text : Bytes} (unbroken : lf ∉ text) : Ended (text ++ [lf]) :=
  ⟨text, rfl, unbroken⟩

/-- Lines that are written one after the other are read back. -/
theorem split_flatten_of_ended {lines : List Bytes} (ended : ∀ line ∈ lines, Ended line) :
    split lines.flatten = lines := by
  refine split_flatten ⟨fun line member => ?_, fun line early => ?_⟩
  · obtain ⟨text, rfl, unbroken⟩ := ended line member
    exact ⟨by simp, by simpa using unbroken⟩
  · obtain ⟨text, rfl, -⟩ := ended line (List.dropLast_subset _ early)
    simp

/-! ## What is matched of a written line -/

theorem stripLast_of_ne {b : UInt8} {line : Bytes} (other : line.getLast? ≠ some b) :
    stripLast b line = line := by
  simp [stripLast, other]

theorem content_ended (text : Bytes) : content (text ++ [lf]) = stripLast cr text := by
  simp [content, stripLast]

/-- The text of a written line that does not end in CR is what is matched of it. -/
theorem content_ended_of_ne {text : Bytes} (other : text.getLast? ≠ some cr) :
    content (text ++ [lf]) = text := by
  rw [content_ended, stripLast_of_ne other]

/-- A CR is stripped of a line without LF too. -/
theorem content_of_unended {line : Bytes} (unended : line.getLast? ≠ some lf) :
    content line = stripLast cr line := by
  rw [content, stripLast_of_ne unended]

theorem stripLast_isPrefix (b : UInt8) (line : Bytes) : stripLast b line <+: line := by
  unfold stripLast
  split
  · exact List.dropLast_prefix line
  · exact List.prefix_refl line

theorem content_isPrefix (line : Bytes) : content line <+: line :=
  (stripLast_isPrefix cr _).trans (stripLast_isPrefix lf line)

theorem stripLast_cons {b c : UInt8} (rest : Bytes) (other : b ≠ c) :
    ∃ rest', stripLast c (b :: rest) = b :: rest' := by
  unfold stripLast
  split
  · rename_i last
    have nonempty : rest ≠ [] := by
      rintro rfl
      exact other (by simpa using last)
    exact ⟨rest.dropLast, List.dropLast_cons_of_ne_nil nonempty⟩
  · exact ⟨rest, rfl⟩

/-- The first octet of a line, unless it belongs to the line's end, is the first one matched. -/
theorem content_cons {b : UInt8} (rest : Bytes) (notCr : b ≠ cr) (notLf : b ≠ lf) :
    ∃ rest', content (b :: rest) = b :: rest' := by
  obtain ⟨rest', stripped⟩ := stripLast_cons rest notLf
  rw [content, stripped]
  exact stripLast_cons rest' notCr

/-- The first octet of a written line, unless it is a CR, is the first one matched. -/
theorem content_ended_cons {b : UInt8} (text : Bytes) (other : b ≠ cr) :
    ∃ rest, content (b :: text ++ [lf]) = b :: rest := by
  rw [content_ended]
  cases text with
  | nil => exact ⟨[], by simp [stripLast, other]⟩
  | cons c text =>
      by_cases isCr : (c :: text).getLast? = some cr
      · exact ⟨(c :: text).dropLast, by simp_all [stripLast]⟩
      · exact ⟨c :: text, by simp_all [stripLast]⟩

/-- A text that can stand on one line whole: neither of the octets that end lines. -/
def OneLine (text : Bytes) : Prop := ∀ b ∈ text, b ≠ cr ∧ b ≠ lf

instance (text : Bytes) : Decidable (OneLine text) :=
  List.decidableBAll (fun b => b ≠ cr ∧ b ≠ lf) text

theorem OneLine.append {first later : Bytes} (firstLine : OneLine first)
    (laterLine : OneLine later) : OneLine (first ++ later) := by
  intro b member
  rcases List.mem_append.1 member with early | late
  · exact firstLine b early
  · exact laterLine b late

/-- A class without the octets that end lines has texts on one line only. -/
theorem oneLine_of_all {holds : UInt8 → Bool} {text : Bytes} (all : text.all holds = true)
    (noCr : holds cr = false) (noLf : holds lf = false) : OneLine text := by
  intro b member
  have here := List.all_eq_true.1 all b member
  constructor
  · rintro rfl
    rw [noCr] at here
    cases here
  · rintro rfl
    rw [noLf] at here
    cases here

theorem oneLine_digits (n : Nat) : OneLine (digits n) :=
  oneLine_of_all (List.all_eq_true.2 fun _ => isDigit_of_mem_digits) (by decide) (by decide)

theorem OneLine.ended {text : Bytes} (oneLine : OneLine text) : Ended (text ++ [lf]) :=
  ended_append fun member => (oneLine lf member).2 rfl

/-- What is matched of such a text, once it is written as a line, is the text. -/
theorem OneLine.content {text : Bytes} (oneLine : OneLine text) :
    content (text ++ [lf]) = text :=
  content_ended_of_ne fun last => (oneLine cr (List.mem_of_getLast? last)).1 rfl

end DiffSections.Line
