import DiffSections.Hunk.Header
import DiffSections.Proofs.Bytes
import Mathlib.Data.Nat.Digits.Lemmas

/-!
# DiffSections.Proofs.Hunk.Grammar -- the lines that open a hunk

A hunk header writes two ranges, each with a numeral for its start and, behind a comma, one for its
length, which may be left out. What stands behind the closing `@@` is free. `HeaderSpelling` is such
a line taken apart, and a line can be taken apart in one way only (`HeaderSpelling.text_injective`):
a numeral goes on to the first octet that is no digit.

A line is read as a hunk exactly if it has such a spelling and its numbers fit a word
(`ofHeader?_eq_some_iff`).
-/

namespace DiffSections

set_option autoImplicit false

/-! ## Numerals -/

namespace Bytes

/-- A number as it is written: digits, and at least one. -/
structure IsNumeral (text : Bytes) : Prop where
  nonempty : text ≠ []
  isDigit : ∀ b ∈ text, isDigit b = true

/-- The number that a numeral writes; its last digit counts the ones. -/
def numeralValue (text : Bytes) : Nat :=
  Nat.ofDigits 10 (text.reverse.map digitValue)

theorem decimal_eq_numeralValue (text : Bytes) : decimal text = numeralValue text := by
  induction text using List.reverseRecOn with
  | nil => rfl
  | append_singleton text b ih =>
      rw [decimal] at ih ⊢
      rw [List.foldl_append, List.foldl_cons, List.foldl_nil, ih, numeralValue, numeralValue,
        List.reverse_concat, List.map_cons, Nat.ofDigits_cons]
      omega

theorem isNumeral_digits (n : Nat) : IsNumeral (digits n) :=
  ⟨digits_ne_nil n, fun _ => isDigit_of_mem_digits⟩

theorem numeralValue_digits (n : Nat) : numeralValue (digits n) = n := by
  rw [← decimal_eq_numeralValue, decimal_digits]

/-- Two numerals in front of what is no digit are the same if the texts are. -/
theorem IsNumeral.eq_of_append_eq {text other rest later : Bytes} (numeral : IsNumeral text)
    (numeral' : IsNumeral other) (stops : ∀ b ∈ rest.head?, Bytes.isDigit b = false)
    (stops' : ∀ b ∈ later.head?, Bytes.isDigit b = false) (same : text ++ rest = other ++ later) :
    text = other ∧ rest = later := by
  have taken := congrArg (List.takeWhile Bytes.isDigit) same
  have left := congrArg (List.dropWhile Bytes.isDigit) same
  rw [takeWhile_append_of_stops numeral.isDigit stops,
    takeWhile_append_of_stops numeral'.isDigit stops'] at taken
  rw [dropWhile_append_of_stops numeral.isDigit stops,
    dropWhile_append_of_stops numeral'.isDigit stops'] at left
  exact ⟨taken, left⟩

end Bytes

namespace Hunk

open Bytes

/-- A numeral is read up to the first octet that is no digit. -/
theorem number?_append {text rest : Bytes} (numeral : IsNumeral text)
    (fits : numeralValue text < wordLimit) (stops : ∀ b ∈ rest.head?, isDigit b = false) :
    number? (text ++ rest) = some (numeralValue text, rest) := by
  have readable : ¬ (text = [] ∨ wordLimit ≤ numeralValue text) :=
    not_or.2 ⟨numeral.nonempty, Nat.not_le.2 fits⟩
  rw [number?, takeWhile_append_of_stops numeral.isDigit stops,
    dropWhile_append_of_stops numeral.isDigit stops, decimal_eq_numeralValue]
  exact if_neg readable

theorem exists_of_number? {line rest : Bytes} {n : Nat} (reads : number? line = some (n, rest)) :
    ∃ text, line = text ++ rest ∧ IsNumeral text ∧ numeralValue text = n ∧ n < wordLimit := by
  unfold number? at reads
  simp only at reads
  split at reads
  · cases reads
  · rename_i checked
    cases reads
    rw [not_or, Nat.not_le] at checked
    exact ⟨line.takeWhile isDigit, List.takeWhile_append_dropWhile.symm,
      ⟨checked.1, List.all_eq_true.1 List.all_takeWhile⟩, (decimal_eq_numeralValue _).symm,
      checked.2⟩

/-! ## Ranges -/

/-- A range as it is written: its start and, if it is there, its length. -/
structure RangeSpelling where
  start : Bytes
  length : Option Bytes

namespace RangeSpelling

/-- What stands behind the start of a range. -/
def lengthText (length : Option Bytes) : Bytes :=
  match length with
  | none => []
  | some length => comma :: length

def text (range : RangeSpelling) : Bytes := range.start ++ lengthText range.length

/-- A length that is left out is one. -/
def len (range : RangeSpelling) : Nat :=
  match range.length with
  | none => 1
  | some length => numeralValue length

structure IsNumeric (range : RangeSpelling) : Prop where
  start : IsNumeral range.start
  length : ∀ length ∈ range.length, IsNumeral length

/-- Both numbers fit a word. -/
structure Fits (range : RangeSpelling) : Prop where
  start : numeralValue range.start < wordLimit
  length : ∀ length ∈ range.length, numeralValue length < wordLimit

/-- Whether a range that is followed by this text ends there. -/
def EndsAt (rest : Bytes) : Prop :=
  ∀ b ∈ rest.head?, isDigit b = false ∧ b ≠ comma

variable {range other : RangeSpelling} {rest later : Bytes}

theorem stops_lengthText (ends : EndsAt rest) (length : Option Bytes) :
    ∀ b ∈ (lengthText length ++ rest).head?, isDigit b = false := by
  cases length with
  | none => exact fun b first => (ends b first).1
  | some length =>
      rintro b ⟨⟩
      decide

theorem range?_append (numeric : range.IsNumeric) (fits : range.Fits) (ends : EndsAt rest) :
    range? (range.text ++ rest) = some (numeralValue range.start, range.len, rest) := by
  obtain ⟨start, length⟩ := range
  have first := number?_append numeric.start fits.start (stops_lengthText ends length)
  rw [← List.append_assoc] at first
  rw [range?, text, first]
  cases length with
  | none =>
      have noComma : after? [comma] rest = none := by
        cases rest with
        | nil => rfl
        | cons b rest => simp [after?, (ends b rfl).2.symm]
      simp [lengthText, noComma, len]
  | some length =>
      have second := number?_append (numeric.length length rfl) (fits.length length rfl)
        fun b first => (ends b first).1
      simp [lengthText, after?, second, len]

theorem exists_of_range? {line : Bytes} {start length : Nat}
    (reads : range? line = some (start, length, rest)) :
    ∃ range : RangeSpelling, line = range.text ++ rest ∧ range.IsNumeric ∧ range.Fits ∧
      numeralValue range.start = start ∧ range.len = length := by
  simp only [range?, Option.bind_eq_bind, Option.bind_eq_some_iff, Prod.exists] at reads
  obtain ⟨n, behind, first, reads⟩ := reads
  obtain ⟨startText, rfl, isStart, rfl, startFits⟩ := exists_of_number? first
  cases comma? : after? [comma] behind with
  | none =>
      rw [comma?] at reads
      cases reads
      exact ⟨⟨startText, none⟩, by simp [text, lengthText], ⟨isStart, nofun⟩, ⟨startFits, nofun⟩,
        rfl, rfl⟩
  | some line =>
      rw [comma?] at reads
      simp only [Option.bind_eq_some_iff, Prod.exists] at reads
      obtain ⟨m, behind', second, reads⟩ := reads
      cases reads
      obtain ⟨lengthDigits, rfl, isLength, rfl, lengthFits⟩ := exists_of_number? second
      obtain rfl := after?_eq_some_iff.1 comma?
      refine ⟨⟨startText, some lengthDigits⟩, by simp [text, lengthText], ⟨isStart, ?_⟩,
        ⟨startFits, ?_⟩, rfl, rfl⟩
      · rintro _ ⟨⟩
        exact isLength
      · rintro _ ⟨⟩
        exact lengthFits

/-- A range is taken apart in one way. -/
theorem eq_of_append_eq (numeric : range.IsNumeric) (numeric' : other.IsNumeric)
    (ends : EndsAt rest) (ends' : EndsAt later) (same : range.text ++ rest = other.text ++ later) :
    range = other ∧ rest = later := by
  obtain ⟨start, length⟩ := range
  obtain ⟨start', length'⟩ := other
  simp only [text, List.append_assoc] at same
  obtain ⟨rfl, behind⟩ := numeric.start.eq_of_append_eq numeric'.start
    (stops_lengthText ends length) (stops_lengthText ends' length') same
  cases length with
  | none =>
      cases length' with
      | none => exact ⟨rfl, behind⟩
      | some length' =>
          have first : comma ∈ rest.head? := by rw [show rest = _ from behind]; rfl
          exact absurd rfl (ends comma first).2
  | some length =>
      cases length' with
      | none =>
          have first : comma ∈ later.head? := by rw [show later = _ from behind.symm]; rfl
          exact absurd rfl (ends' comma first).2
      | some length' =>
          obtain ⟨rfl, rfl⟩ := (numeric.length length rfl).eq_of_append_eq
            (numeric'.length length' rfl) (fun b first => (ends b first).1)
            (fun b first => (ends' b first).1) (List.cons.inj behind).2
          exact ⟨rfl, rfl⟩

end RangeSpelling

/-! ## Headings -/

/-- What the text behind the closing `@@` says: one space is no part of the heading, and an empty
heading is none. -/
inductive HasHeading : Bytes → Option String → Prop where
  | nothing : HasHeading [] none
  | blank : HasHeading [space] none
  | spaced {text : Bytes} (nonempty : text ≠ []) :
      HasHeading (space :: text) (some (Text.lossy text))
  | joined {b : UInt8} {text : Bytes} (notSpace : b ≠ space) :
      HasHeading (b :: text) (some (Text.lossy (b :: text)))

theorem headingOf_eq_iff {rest : Bytes} {heading : Option String} :
    headingOf rest = heading ↔ HasHeading rest heading := by
  constructor
  · rintro rfl
    cases rest with
    | nil => exact .nothing
    | cons b text =>
        by_cases isSpace : b = space
        · subst isSpace
          cases text with
          | nil => exact .blank
          | cons c text => exact .spaced (by simp)
        · have noSpace : after? [space] (b :: text) = none := by simp [after?, Ne.symm isSpace]
          rw [headingOf, noSpace]
          exact .joined isSpace
  · intro hasHeading
    cases hasHeading with
    | nothing | blank => rfl
    | @spaced text nonempty =>
        obtain ⟨b, rest, rfl⟩ := List.exists_cons_of_ne_nil nonempty
        rfl
    | joined notSpace => simp [headingOf, after?, notSpace.symm]

/-! ## Headers -/

/-- A hunk header taken apart. -/
structure HeaderSpelling where
  orig : RangeSpelling
  new : RangeSpelling
  /-- What stands behind the closing `@@`. -/
  rest : Bytes

namespace HeaderSpelling

def text (header : HeaderSpelling) : Bytes :=
  ofAscii "@@ -" ++ (header.orig.text ++ (ofAscii " +" ++ (header.new.text ++
    (ofAscii " @@" ++ header.rest))))

structure IsNumeric (header : HeaderSpelling) : Prop where
  orig : header.orig.IsNumeric
  new : header.new.IsNumeric

structure Fits (header : HeaderSpelling) : Prop where
  orig : header.orig.Fits
  new : header.new.Fits

/-- The hunk that a header with this heading declares. -/
def hunk (header : HeaderSpelling) (heading : Option String) : Hunk where
  origStart := numeralValue header.orig.start
  origLen := header.orig.len
  newStart := numeralValue header.new.start
  newLen := header.new.len
  heading := heading

variable {header other : HeaderSpelling}

theorem endsAt_append (gap : Bytes) (spaced : gap.head? = some space) (rest : Bytes) :
    RangeSpelling.EndsAt (gap ++ rest) := by
  intro b first
  have isSpace : b = space := by
    rw [List.head?_append, spaced] at first
    exact (Option.some.inj first).symm
  subst isSpace
  decide

/-- **A header is taken apart in one way**, whatever its heading holds. -/
theorem text_injective (numeric : header.IsNumeric) (numeric' : other.IsNumeric)
    (same : header.text = other.text) : header = other := by
  obtain ⟨orig, new, rest⟩ := header
  obtain ⟨orig', new', rest'⟩ := other
  obtain ⟨rfl, behindOrig⟩ := RangeSpelling.eq_of_append_eq numeric.orig numeric'.orig
    (endsAt_append _ rfl _) (endsAt_append _ rfl _) (List.append_cancel_left same)
  obtain ⟨rfl, behindNew⟩ := RangeSpelling.eq_of_append_eq numeric.new numeric'.new
    (endsAt_append _ rfl _) (endsAt_append _ rfl _) (List.append_cancel_left behindOrig)
  obtain rfl : rest = rest' := List.append_cancel_left behindNew
  rfl

theorem ofHeader?_text (numeric : header.IsNumeric) (fits : header.Fits) :
    ofHeader? header.text = some (header.hunk (headingOf header.rest)) := by
  have orig := RangeSpelling.range?_append numeric.orig fits.orig
    (endsAt_append (ofAscii " +") rfl (header.new.text ++ (ofAscii " @@" ++ header.rest)))
  have new := RangeSpelling.range?_append numeric.new fits.new
    (endsAt_append (ofAscii " @@") rfl header.rest)
  simp only [ofHeader?, text, after?_append, Option.bind_eq_bind, Option.bind_some, orig, new,
    Option.pure_def]
  rfl

end HeaderSpelling

/-- **A line is read as a hunk exactly if it is a header whose numbers fit a word.** -/
theorem ofHeader?_eq_some_iff {line : Bytes} {hunk : Hunk} :
    ofHeader? line = some hunk ↔
      ∃ (header : HeaderSpelling) (heading : Option String), line = header.text ∧
        header.IsNumeric ∧ header.Fits ∧ HasHeading header.rest heading ∧
        hunk = header.hunk heading := by
  constructor
  · intro opens
    simp only [ofHeader?, Option.bind_eq_bind, Option.bind_eq_some_iff, Option.pure_def,
      Prod.exists] at opens
    obtain ⟨_, opening, _, _, _, orig, _, between, _, _, _, new, rest, closing, same⟩ := opens
    obtain ⟨origRange, rfl, origNumeric, origFits, rfl, rfl⟩ := RangeSpelling.exists_of_range? orig
    obtain rfl := after?_eq_some_iff.1 between
    obtain ⟨newRange, rfl, newNumeric, newFits, rfl, rfl⟩ := RangeSpelling.exists_of_range? new
    obtain rfl := after?_eq_some_iff.1 closing
    cases same
    exact ⟨⟨origRange, newRange, rest⟩, headingOf rest, after?_eq_some_iff.1 opening,
      ⟨origNumeric, newNumeric⟩, ⟨origFits, newFits⟩, headingOf_eq_iff.1 rfl, rfl⟩
  · rintro ⟨header, heading, rfl, numeric, fits, hasHeading, rfl⟩
    rw [header.ofHeader?_text numeric fits, headingOf_eq_iff.2 hasHeading]

end Hunk

end DiffSections
