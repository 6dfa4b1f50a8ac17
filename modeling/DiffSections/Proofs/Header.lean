import DiffSections.Proofs.Bytes
import DiffSections.Proofs.Dialect
import DiffSections.Proofs.Line
import DiffSections.Proofs.Text.Utf8

/-!
# DiffSections.Proofs.Header -- a written extended header line is read back

`Header.text` writes a header: the head of its kind and its value, paths without quotes. Reading
the line gives the header back (`read_text`), whatever its kind, if its value is one that a header
of its kind can have (`Header.Valid`).
-/

namespace DiffSections

set_option autoImplicit false

open Bytes

/-! ## Values -/

namespace HeaderValue

/-- A file mode as text. -/
def IsMode (mode : String) : Prop :=
  ofString mode ≠ [] ∧ (ofString mode).length ≤ 6 ∧ (ofString mode).all isOctalDigit = true

/-- An object id as text. -/
def IsObjectId (id : String) : Prop :=
  ofString id ≠ [] ∧ (ofString id).all isHexDigit = true

theorem mode?_ofString {mode : String} (isMode : IsMode mode) :
    mode? (ofString mode) = some mode := by
  obtain ⟨nonempty, short, octal⟩ := isMode
  simp only [mode?, nonempty, short, octal, ne_eq, not_false_eq_true, and_self, if_true,
    Text.lossy_ofString]

theorem objectId?_ofString {id : String} (isId : IsObjectId id) :
    objectId? (ofString id) = some id := by
  obtain ⟨nonempty, hex⟩ := isId
  simp only [objectId?, nonempty, hex, ne_eq, not_false_eq_true, and_self, if_true,
    Text.lossy_ofString]

theorem percent?_digits {n : Nat} (small : n ≤ 100) :
    percent? (digits n ++ [percent]) = some n := by
  have isDigits : (digits n).all isDigit = true := List.all_eq_true.2 fun b => isDigit_of_mem_digits
  simp only [percent?, List.getLast?_concat, List.dropLast_concat, digits_ne_nil, isDigits,
    decimal_digits, small, ne_eq, not_false_eq_true, and_self, if_true]

/-- A path may stand without quotes if it does not stand between quotes itself. -/
theorem path?_ofString {path : String} (nonempty : path ≠ "")
    (unquoted : Quoted.decode? (ofString path) = none) : path? (ofString path) = some path := by
  simp only [path?, Text.ofString_ne_nil nonempty, unquoted, Option.getD_none, if_false,
    Text.lossy_ofString]

/-- What stands after the ids of an index line. -/
def indexModeText : Option String → Bytes
  | none => []
  | some mode => space :: ofString mode

def indexText (orig new : String) (mode : Option String) : Bytes :=
  ofString orig ++ (ofAscii ".." ++ (ofString new ++ indexModeText mode))

theorem index?_indexText {orig new : String} {mode : Option String} (origId : IsObjectId orig)
    (newId : IsObjectId new) (isMode : ∀ text ∈ mode, IsMode text) :
    index? (indexText orig new mode) = some (.index orig new mode) := by
  have origHex : ∀ b ∈ ofString orig, isHexDigit b = true := List.all_eq_true.1 origId.2
  have newHex : ∀ b ∈ ofString new, isHexDigit b = true := List.all_eq_true.1 newId.2
  have dots : ∀ b ∈ (ofAscii ".." ++ (ofString new ++ indexModeText mode)).head?,
      isHexDigit b = false := by
    rintro b ⟨⟩
    decide
  have stops : ∀ b ∈ (indexModeText mode).head?, isHexDigit b = false := by
    cases mode with
    | none => nofun
    | some mode =>
        rintro b ⟨⟩
        decide
  simp only [index?, indexText, takeWhile_append_of_stops origHex dots,
    dropWhile_append_of_stops origHex dots, objectId?_ofString origId, after?_append,
    takeWhile_append_of_stops newHex stops, dropWhile_append_of_stops newHex stops,
    objectId?_ofString newId, Option.bind_eq_bind, Option.bind_some]
  cases mode with
  | none => rfl
  | some mode => simp [indexModeText, mode?_ofString (isMode mode rfl)]

/-! ### Values stand on one line -/

theorem oneLine_mode {mode : String} (isMode : IsMode mode) : Line.OneLine (ofString mode) :=
  Line.oneLine_of_all isMode.2.2 (by decide) (by decide)

theorem oneLine_objectId {id : String} (isId : IsObjectId id) : Line.OneLine (ofString id) :=
  Line.oneLine_of_all isId.2 (by decide) (by decide)

theorem oneLine_indexText {orig new : String} {mode : Option String} (origId : IsObjectId orig)
    (newId : IsObjectId new) (isMode : ∀ text ∈ mode, IsMode text) :
    Line.OneLine (indexText orig new mode) := by
  have last : Line.OneLine (indexModeText mode) := by
    cases mode with
    | none => nofun
    | some mode =>
        have gap : Line.OneLine [space] := by decide
        exact gap.append (oneLine_mode (isMode mode rfl))
  exact (oneLine_objectId origId).append
    (Line.OneLine.append (by decide) ((oneLine_objectId newId).append last))

end HeaderValue

/-! ## Lines -/

namespace Header

/-- The kind of a header's line. -/
def kind : Header → HeaderKind
  | .newFileMode _ => .newFileMode
  | .deletedFileMode _ => .deletedFileMode
  | .oldMode _ => .oldMode
  | .newMode _ => .newMode
  | .similarityIndex _ => .similarityIndex
  | .dissimilarityIndex _ => .dissimilarityIndex
  | .renameFrom _ => .renameFrom
  | .renameTo _ => .renameTo
  | .copyFrom _ => .copyFrom
  | .copyTo _ => .copyTo
  | .index _ _ _ => .index

/-- The value of a header as its line writes it. -/
def value : Header → Bytes
  | .newFileMode mode | .deletedFileMode mode | .oldMode mode | .newMode mode => ofString mode
  | .similarityIndex n | .dissimilarityIndex n => digits n ++ [percent]
  | .renameFrom path | .renameTo path | .copyFrom path | .copyTo path => ofString path
  | .index orig new mode => HeaderValue.indexText orig new mode

/-- The text of a header's line. -/
def text (header : Header) : Bytes := header.kind.head ++ header.value

def line (header : Header) : Bytes := header.text ++ [lf]

/-- The values that a header can have, and that its line can write as they are. -/
def Valid : Header → Prop
  | .newFileMode mode | .deletedFileMode mode | .oldMode mode | .newMode mode =>
      HeaderValue.IsMode mode
  | .similarityIndex n | .dissimilarityIndex n => n ≤ 100
  | .renameFrom path | .renameTo path | .copyFrom path | .copyTo path =>
      path ≠ "" ∧ Quoted.decode? (ofString path) = none
  | .index orig new mode =>
      HeaderValue.IsObjectId orig ∧ HeaderValue.IsObjectId new ∧
        ∀ text ∈ mode, HeaderValue.IsMode text

theorem header?_value {header : Header} (valid : header.Valid) :
    header.kind.header? header.value = some header := by
  cases header with
  | newFileMode | deletedFileMode | oldMode | newMode =>
      simp [kind, value, HeaderKind.header?, HeaderValue.mode?_ofString valid]
  | similarityIndex | dissimilarityIndex =>
      simp [kind, value, HeaderKind.header?, HeaderValue.percent?_digits valid]
  | renameFrom | renameTo | copyFrom | copyTo =>
      simp [kind, value, HeaderKind.header?, HeaderValue.path?_ofString valid.1 valid.2]
  | index => exact HeaderValue.index?_indexText valid.1 valid.2.1 valid.2.2

/-- No kind's head starts another's. -/
theorem kindOf?_head_append (kind : HeaderKind) (value : Bytes) :
    kindOf? (kind.head ++ value) = some (kind, value) := by
  cases kind <;> rfl

/-- **A written header line is read back.** -/
theorem read_text {header : Header} (valid : header.Valid) :
    read header.text = .ok (some header) := by
  simp only [read, text, kindOf?_head_append, header?_value valid]

/-! ## What a written header line is not -/

/-- Whether a header is about the place of a file: a rename or a copy. -/
def relocates : Header → Bool
  | .renameFrom _ | .renameTo _ | .copyFrom _ | .copyTo _ => true
  | _ => false

theorem oneLine_value {header : Header} (valid : header.Valid)
    (stays : header.relocates = false) : Line.OneLine header.value := by
  cases header with
  | newFileMode | deletedFileMode | oldMode | newMode => exact HeaderValue.oneLine_mode valid
  | similarityIndex n | dissimilarityIndex n =>
      exact (Line.oneLine_digits n).append (by decide)
  | renameFrom | renameTo | copyFrom | copyTo => cases stays
  | index => exact HeaderValue.oneLine_indexText valid.1 valid.2.1 valid.2.2

/-- A written header that moves no file stands on one line. -/
theorem oneLine_text {header : Header} (valid : header.Valid)
    (stays : header.relocates = false) : Line.OneLine header.text := by
  refine Line.OneLine.append ?_ (oneLine_value valid stays)
  cases header.kind <;> decide

theorem content_line {header : Header} (valid : header.Valid) (stays : header.relocates = false) :
    Line.content header.line = header.text :=
  (oneLine_text valid stays).content

/-- A header that moves no file leaves its paths alone. -/
theorem paths_addTo {header : Header} {facts added : FileFacts} (stays : header.relocates = false)
    (adds : header.addTo facts = .ok added) :
    added.origPath = facts.origPath ∧ added.newPath = facts.newPath := by
  cases header with
  | renameFrom | renameTo | copyFrom | copyTo => cases stays
  | newFileMode mode =>
      simp only [addTo] at adds
      split at adds
      · cases adds
      · rw [← Except.ok.inj adds]
        exact ⟨rfl, rfl⟩
  | deletedFileMode mode =>
      simp only [addTo] at adds
      split at adds
      · cases adds
      · split at adds
        · cases adds
        · rw [← Except.ok.inj adds]
          exact ⟨rfl, rfl⟩
  | oldMode | newMode | similarityIndex | dissimilarityIndex =>
      rw [← Except.ok.inj adds]
      exact ⟨rfl, rfl⟩
  | index orig new mode =>
      cases mode <;> rw [← Except.ok.inj adds] <;> exact ⟨rfl, rfl⟩

/-! ## Several headers -/

/-- Add headers in their order, up to the first that is refused. -/
def addAll (headers : List Header) (facts : FileFacts) : Except Fault FileFacts :=
  headers.foldlM (fun facts header => header.addTo facts) facts

theorem addAll_cons_eq_ok {header : Header} {headers : List Header} {facts added : FileFacts}
    (adds : addAll (header :: headers) facts = .ok added) :
    ∃ next, header.addTo facts = .ok next ∧ addAll headers next = .ok added := by
  rw [addAll, List.foldlM_cons] at adds
  cases first : header.addTo facts with
  | error fault =>
      rw [first] at adds
      cases adds
  | ok next =>
      rw [first] at adds
      exact ⟨next, rfl, adds⟩

/-- Headers that move no file leave its paths alone. -/
theorem paths_addAll {headers : List Header} {facts added : FileFacts}
    (stays : ∀ header ∈ headers, header.relocates = false)
    (adds : addAll headers facts = .ok added) :
    added.origPath = facts.origPath ∧ added.newPath = facts.newPath := by
  induction headers generalizing facts with
  | nil =>
      cases adds
      exact ⟨rfl, rfl⟩
  | cons header headers ih =>
      obtain ⟨next, first, later⟩ := addAll_cons_eq_ok adds
      obtain ⟨origFirst, newFirst⟩ := paths_addTo (stays header (by simp)) first
      obtain ⟨origLater, newLater⟩ := ih (fun other member => stays other (by simp [member])) later
      exact ⟨origLater.trans origFirst, newLater.trans newFirst⟩

end Header

end DiffSections
