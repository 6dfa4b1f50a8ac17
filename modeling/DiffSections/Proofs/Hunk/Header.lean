import DiffSections.Proofs.Hunk.Body
import DiffSections.Proofs.Hunk.Grammar
import DiffSections.Proofs.Line
import DiffSections.Proofs.Text.Utf8

/-!
# DiffSections.Proofs.Hunk.Header -- a written hunk header is read back

`headerText` writes the line that opens a hunk, with both lengths. It is one of the spellings of a
header, so reading it gives back what the hunk declares (`ofHeader?_headerText`), if its numbers fit
a word and its heading is not empty. With that, what is read of which lines is complete
(`ofHeader?_grammar`).
-/

namespace DiffSections.Hunk

set_option autoImplicit false

open Bytes

/-- A range with its length written out. -/
def rangeText (start length : Nat) : Bytes := digits start ++ comma :: digits length

/-! ## Headings -/

/-- What stands after the closing `@@` of a written header. -/
def headingText : Option String → Bytes
  | none => []
  | some heading => space :: ofString heading

theorem headingOf_headingText {heading : Option String} (nonempty : heading ≠ some "") :
    headingOf (headingText heading) = heading := by
  cases heading with
  | none => rfl
  | some heading =>
      have read := Text.lossy_ofString heading
      have written : ofString heading ≠ [] :=
        Text.ofString_ne_nil fun empty => nonempty (by rw [empty])
      obtain ⟨b, rest, octets⟩ := List.exists_cons_of_ne_nil written
      rw [octets] at read
      simp [headingOf, headingText, octets, after?, read]

/-! ## Headers -/

/-- The line that opens a hunk. -/
def headerText (hunk : Hunk) : Bytes :=
  ofAscii "@@ -" ++ (rangeText hunk.origStart hunk.origLen ++ (ofAscii " +" ++
    (rangeText hunk.newStart hunk.newLen ++ (ofAscii " @@" ++ headingText hunk.heading))))

/-- What the numbers and the heading of a hunk must be for its header to be read. -/
structure Writable (hunk : Hunk) : Prop where
  origStart : hunk.origStart < wordLimit
  origLen : hunk.origLen < wordLimit
  newStart : hunk.newStart < wordLimit
  newLen : hunk.newLen < wordLimit
  heading : hunk.heading ≠ some ""

/-- The numerals of a written range. -/
def rangeSpelling (start length : Nat) : RangeSpelling := ⟨digits start, some (digits length)⟩

theorem isNumeric_rangeSpelling (start length : Nat) : (rangeSpelling start length).IsNumeric := by
  refine ⟨isNumeral_digits start, ?_⟩
  rintro _ ⟨⟩
  exact isNumeral_digits length

theorem fits_rangeSpelling {start length : Nat} (startFits : start < wordLimit)
    (lengthFits : length < wordLimit) : (rangeSpelling start length).Fits := by
  refine ⟨(numeralValue_digits start).trans_lt startFits, ?_⟩
  rintro _ ⟨⟩
  exact (numeralValue_digits length).trans_lt lengthFits

/-- A written header, taken apart. -/
def spelling (hunk : Hunk) : HeaderSpelling where
  orig := rangeSpelling hunk.origStart hunk.origLen
  new := rangeSpelling hunk.newStart hunk.newLen
  rest := headingText hunk.heading

theorem headerText_eq (hunk : Hunk) : hunk.headerText = hunk.spelling.text := rfl

theorem hunk_spelling (hunk : Hunk) : hunk.spelling.hunk hunk.heading = hunk.declared := by
  simp only [HeaderSpelling.hunk, spelling, rangeSpelling, RangeSpelling.len, numeralValue_digits]
  rfl

/-- **A written header is read back**, as what the hunk declares. -/
theorem ofHeader?_headerText {hunk : Hunk} (writable : hunk.Writable) :
    ofHeader? hunk.headerText = some hunk.declared := by
  have numeric : hunk.spelling.IsNumeric :=
    ⟨isNumeric_rangeSpelling _ _, isNumeric_rangeSpelling _ _⟩
  have fits : hunk.spelling.Fits :=
    ⟨fits_rangeSpelling writable.origStart writable.origLen,
      fits_rangeSpelling writable.newStart writable.newLen⟩
  have heading : headingOf hunk.spelling.rest = hunk.heading :=
    headingOf_headingText writable.heading
  rw [headerText_eq, HeaderSpelling.ofHeader?_text numeric fits, heading, hunk_spelling]

/-- **A line is read as a hunk exactly if it is a header whose numbers fit a word**, and it says
then what the numerals and the heading are. It is a header in one way only; and a header that is
written for a hunk is read as what the hunk declares. -/
theorem ofHeader?_grammar :
    (∀ line hunk, ofHeader? line = some hunk ↔
      ∃ (header : HeaderSpelling) (heading : Option String), line = header.text ∧
        header.IsNumeric ∧ header.Fits ∧ HasHeading header.rest heading ∧
        hunk = header.hunk heading) ∧
    (∀ header other : HeaderSpelling, header.IsNumeric → other.IsNumeric →
      header.text = other.text → header = other) ∧
    ∀ hunk : Hunk, hunk.Writable → ofHeader? hunk.headerText = some hunk.declared :=
  ⟨fun _ _ => ofHeader?_eq_some_iff,
    fun _ _ numeric numeric' => HeaderSpelling.text_injective numeric numeric',
    fun _ => ofHeader?_headerText⟩

/-- Leading zeros, a length that is left out, and a heading that holds another end of a header. -/
theorem ofHeader?_grammar_leading_zeros :
    ofHeader? (ofAscii "@@ -007 +3,12 @@  @@ -1") =
      some { origStart := 7, origLen := 1, newStart := 3, newLen := 12, heading := " @@ -1" } := by
  have heading : Text.lossy (ofAscii " @@ -1") = " @@ -1" := Text.lossy_ofString " @@ -1"
  have spaced : HasHeading (ofAscii "  @@ -1") (some (Text.lossy (ofAscii " @@ -1"))) :=
    .spaced (by decide)
  have zeros : IsNumeral (ofAscii "007") := ⟨by decide, List.all_eq_true.1 rfl⟩
  have three : IsNumeral (ofAscii "3") := ⟨by decide, List.all_eq_true.1 rfl⟩
  have twelve : IsNumeral (ofAscii "12") := ⟨by decide, List.all_eq_true.1 rfl⟩
  obtain ⟨reads, -, -⟩ := ofHeader?_grammar
  refine (reads _ _).2 ⟨⟨⟨ofAscii "007", none⟩, ⟨ofAscii "3", some (ofAscii "12")⟩,
    ofAscii "  @@ -1"⟩, some " @@ -1", rfl, ⟨⟨zeros, nofun⟩, three, ?_⟩,
    ⟨⟨by decide, nofun⟩, by decide, ?_⟩, heading ▸ spaced, by decide +kernel⟩
  · rintro _ ⟨⟩
    exact twelve
  · rintro _ ⟨⟩
    decide

theorem oneLine_rangeText (start length : Nat) : Line.OneLine (rangeText start length) := by
  have gap : Line.OneLine [comma] := by decide
  exact (Line.oneLine_digits start).append (gap.append (Line.oneLine_digits length))

theorem oneLine_headerText {hunk : Hunk} (heading : Line.OneLine (headingText hunk.heading)) :
    Line.OneLine hunk.headerText := by
  have opening : Line.OneLine (ofAscii "@@ -") := by decide
  have between : Line.OneLine (ofAscii " +") := by decide
  have closing : Line.OneLine (ofAscii " @@") := by decide
  exact opening.append ((oneLine_rangeText _ _).append
    (between.append ((oneLine_rangeText _ _).append (closing.append heading))))

end DiffSections.Hunk
