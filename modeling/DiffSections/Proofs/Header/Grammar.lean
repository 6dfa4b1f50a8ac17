import DiffSections.Proofs.Header.Sound
import DiffSections.Proofs.Path.Spelling

/-!
# DiffSections.Proofs.Header.Grammar -- the lines that are read as extended headers

A header line is the head of its kind and a value (`Header.HasValue`): a mode of one to six octal
digits, a percentage in decimal digits with any number of zeros in front, a path that is not empty,
or two object ids and perhaps a mode. A line is read as a header exactly if it is such a line, and
then as that header; it is found at fault exactly if it has the head of a kind and no value of it
(`Header.read_grammar`).

A header can be written in more than one way, since a path may be quoted (`Header.Writes`). It is
read back from each of them.
-/

namespace DiffSections

set_option autoImplicit false

open Bytes

/-! ## Values -/

/-- What does not stand between quotes is not decoded. -/
theorem Quoted.decode?_eq_none_of_unquoted {raw : Bytes}
    (unquoted : ¬ (raw.head? = some quote ∧ raw.getLast? = some quote)) :
    Quoted.decode? raw = none := by
  cases raw with
  | nil => rfl
  | cons b rest =>
      rw [Quoted.decode?, if_neg]
      rintro ⟨rfl, last⟩
      refine unquoted ⟨rfl, ?_⟩
      rw [List.getLast?_cons, last]
      rfl

namespace HeaderValue

variable {value : Bytes}

/-- The values that are read as a percentage. -/
def IsPercent (value : Bytes) (n : Nat) : Prop :=
  ∃ digits, value = digits ++ [percent] ∧ digits ≠ [] ∧ (∀ b ∈ digits, isDigit b = true) ∧
    decimal digits = n ∧ n ≤ 100

/-- The values that are read as a path: a quoted string is decoded, and anything else is taken as it
is. -/
inductive IsPath : Bytes → String → Prop where
  | quoted {value octets : Bytes} (decodes : Quoted.decode? value = some octets) :
      IsPath value (Text.lossy octets)
  | raw {value : Bytes} (nonempty : value ≠ []) (unquoted : Quoted.decode? value = none) :
      IsPath value (Text.lossy value)

/-- The ways to write a path: quoted, or as it is, if that does not look quoted. -/
def WritesPath (path : String) (value : Bytes) : Prop :=
  Quoted.Quotes value (ofString path) ∨
    value = ofString path ∧ path ≠ "" ∧
      ¬ (value.head? = some quote ∧ value.getLast? = some quote)

theorem mode?_eq_some_iff {mode : String} :
    mode? value = some mode ↔ IsMode mode ∧ value = ofString mode := by
  constructor
  · intro reads
    refine ⟨isMode_of_mode? reads, ?_⟩
    simp only [mode?] at reads
    split at reads
    · rename_i checked
      cases reads
      exact (ofString_lossy_of_all (fun _ => lt_of_isOctalDigit) checked.2.2).symm
    · cases reads
  · rintro ⟨isMode, rfl⟩
    exact mode?_ofString isMode

theorem objectId?_eq_some_iff {id : String} :
    objectId? value = some id ↔ IsObjectId id ∧ value = ofString id := by
  constructor
  · intro reads
    refine ⟨isObjectId_of_objectId? reads, ?_⟩
    simp only [objectId?] at reads
    split at reads
    · rename_i checked
      cases reads
      exact (ofString_lossy_of_all (fun _ => lt_of_isHexDigit) checked.2).symm
    · cases reads
  · rintro ⟨isId, rfl⟩
    exact objectId?_ofString isId

theorem percent?_eq_some_iff {n : Nat} : percent? value = some n ↔ IsPercent value n := by
  constructor
  · intro reads
    simp only [percent?] at reads
    split at reads
    · rename_i checked
      obtain ⟨last, nonempty, areDigits, small⟩ := checked
      cases reads
      obtain ⟨digits, rfl⟩ := List.getLast?_eq_some_iff.1 last
      rw [List.dropLast_concat] at nonempty areDigits small ⊢
      exact ⟨digits, rfl, nonempty, List.all_eq_true.1 areDigits, rfl, small⟩
    · cases reads
  · rintro ⟨digits, rfl, nonempty, areDigits, rfl, small⟩
    have all : digits.all isDigit = true := List.all_eq_true.2 areDigits
    simp only [percent?, List.getLast?_concat, List.dropLast_concat, nonempty, all, small, ne_eq,
      not_false_eq_true, and_self, if_true]

theorem path?_eq_some_iff {path : String} : path? value = some path ↔ IsPath value path := by
  constructor
  · intro reads
    simp only [path?] at reads
    split at reads
    · cases reads
    · rename_i nonempty
      cases decodes : Quoted.decode? value <;> rw [decodes] at reads <;> cases reads
      · exact .raw nonempty decodes
      · exact .quoted decodes
  · rintro (decodes | ⟨nonempty, unquoted⟩)
    · have nonempty : value ≠ [] := by
        rintro rfl
        cases decodes
      rw [path?, if_neg nonempty, decodes, Option.getD_some]
    · rw [path?, if_neg nonempty, unquoted, Option.getD_none]

theorem index?_eq_some_iff {header : Header} :
    index? value = some header ↔
      ∃ orig new mode, header = .index orig new mode ∧ IsObjectId orig ∧ IsObjectId new ∧
        (∀ text ∈ mode, IsMode text) ∧ value = indexText orig new mode := by
  constructor
  · intro reads
    simp only [index?, Option.bind_eq_bind, Option.bind_eq_some_iff] at reads
    obtain ⟨orig, isOrig, rest, dots, new, isNew, reads⟩ := reads
    obtain ⟨origId, origText⟩ := objectId?_eq_some_iff.1 isOrig
    obtain ⟨newId, newText⟩ := objectId?_eq_some_iff.1 isNew
    have front : value = ofString orig ++ (ofAscii ".." ++ rest) := by
      rw [← origText, ← after?_eq_some_iff.1 dots, List.takeWhile_append_dropWhile]
    have back : rest = ofString new ++ rest.dropWhile isHexDigit := by
      rw [← newText, List.takeWhile_append_dropWhile]
    split at reads
    · rename_i ends
      cases reads
      rw [ends] at back
      refine ⟨orig, new, none, rfl, origId, newId, ?_, ?_⟩
      · intro text isMode
        cases isMode
      · rw [front, back]
        rfl
    · rename_i b behind ends
      split at reads
      · rename_i isSpace
        obtain ⟨mode, isMode, same⟩ := Option.bind_eq_some_iff.1 reads
        obtain ⟨modeOk, modeText⟩ := mode?_eq_some_iff.1 isMode
        cases same
        rw [ends, isSpace, modeText] at back
        refine ⟨orig, new, some mode, rfl, origId, newId, ?_, ?_⟩
        · rintro text ⟨⟩
          exact modeOk
        · rw [front, back]
          rfl
      · cases reads
  · rintro ⟨orig, new, mode, rfl, origId, newId, isMode, rfl⟩
    exact index?_indexText origId newId isMode

/-- However a path is written, it is read back. -/
theorem WritesPath.isPath {path : String} (writes : WritesPath path value) :
    IsPath value path := by
  rw [← Text.lossy_ofString path]
  rcases writes with quotes | ⟨rfl, nonempty, unquoted⟩
  · exact .quoted quotes.decode?
  · exact .raw (Text.ofString_ne_nil nonempty) (Quoted.decode?_eq_none_of_unquoted unquoted)

end HeaderValue

namespace Header

/-! ## Lines -/

/-- The values behind the head of its kind that a header is read of. -/
def HasValue (header : Header) (value : Bytes) : Prop :=
  match header with
  | .newFileMode mode | .deletedFileMode mode | .oldMode mode | .newMode mode =>
      HeaderValue.IsMode mode ∧ value = ofString mode
  | .similarityIndex n | .dissimilarityIndex n => HeaderValue.IsPercent value n
  | .renameFrom path | .renameTo path | .copyFrom path | .copyTo path =>
      HeaderValue.IsPath value path
  | .index orig new mode =>
      (HeaderValue.IsObjectId orig ∧ HeaderValue.IsObjectId new ∧
        ∀ text ∈ mode, HeaderValue.IsMode text) ∧ value = HeaderValue.indexText orig new mode

/-- The ways to write the value of a header. -/
def Writes (header : Header) (value : Bytes) : Prop :=
  match header with
  | .renameFrom path | .renameTo path | .copyFrom path | .copyTo path =>
      HeaderValue.WritesPath path value
  | header => header.Valid ∧ value = header.value

theorem header?_eq_some_iff {kind : HeaderKind} {value : Bytes} {header : Header} :
    kind.header? value = some header ↔ header.kind = kind ∧ header.HasValue value := by
  constructor
  · intro reads
    cases kind with
    | newFileMode | deletedFileMode | oldMode | newMode =>
        obtain ⟨mode, isMode, rfl⟩ := Option.map_eq_some_iff.1 reads
        exact ⟨rfl, HeaderValue.mode?_eq_some_iff.1 isMode⟩
    | similarityIndex | dissimilarityIndex =>
        obtain ⟨n, isPercent, rfl⟩ := Option.map_eq_some_iff.1 reads
        exact ⟨rfl, HeaderValue.percent?_eq_some_iff.1 isPercent⟩
    | renameFrom | renameTo | copyFrom | copyTo =>
        obtain ⟨path, isPath, rfl⟩ := Option.map_eq_some_iff.1 reads
        exact ⟨rfl, HeaderValue.path?_eq_some_iff.1 isPath⟩
    | index =>
        obtain ⟨orig, new, mode, rfl, origId, newId, isMode, text⟩ :=
          HeaderValue.index?_eq_some_iff.1 reads
        exact ⟨rfl, ⟨origId, newId, isMode⟩, text⟩
  · rintro ⟨rfl, hasValue⟩
    cases header with
    | newFileMode | deletedFileMode | oldMode | newMode =>
        exact Option.map_eq_some_iff.2 ⟨_, HeaderValue.mode?_eq_some_iff.2 hasValue, rfl⟩
    | similarityIndex | dissimilarityIndex =>
        exact Option.map_eq_some_iff.2 ⟨_, HeaderValue.percent?_eq_some_iff.2 hasValue, rfl⟩
    | renameFrom | renameTo | copyFrom | copyTo =>
        exact Option.map_eq_some_iff.2 ⟨_, HeaderValue.path?_eq_some_iff.2 hasValue, rfl⟩
    | index orig new mode =>
        obtain ⟨⟨origId, newId, isMode⟩, text⟩ := hasValue
        exact HeaderValue.index?_eq_some_iff.2
          ⟨orig, new, mode, rfl, origId, newId, isMode, text⟩

/-- A header that is written has a value that it is read of. -/
theorem Writes.hasValue {header : Header} {value : Bytes} (writes : header.Writes value) :
    header.HasValue value := by
  cases header with
  | renameFrom | renameTo | copyFrom | copyTo => exact HeaderValue.WritesPath.isPath writes
  | newFileMode | deletedFileMode | oldMode | newMode | index => exact writes
  | similarityIndex n | dissimilarityIndex n =>
      obtain ⟨small, rfl⟩ := writes
      exact ⟨digits n, rfl, digits_ne_nil n, fun _ => isDigit_of_mem_digits, decimal_digits n,
        small⟩

theorem kindOf?_eq_some_iff {line value : Bytes} {kind : HeaderKind} :
    kindOf? line = some (kind, value) ↔ line = kind.head ++ value := by
  constructor
  · intro found
    obtain ⟨other, -, starts⟩ := List.exists_of_findSome?_eq_some found
    obtain ⟨rest, after, same⟩ := Option.map_eq_some_iff.1 starts
    cases same
    exact after?_eq_some_iff.1 after
  · rintro rfl
    exact kindOf?_head_append kind value

theorem kindOf?_eq_none_iff {line : Bytes} :
    kindOf? line = none ↔ ∀ kind : HeaderKind, startsWith line kind.head = false := by
  simp only [kindOf?, List.findSome?_eq_none_iff, HeaderKind.mem_all, forall_const,
    Option.map_eq_none_iff, startsWith, Option.isSome_eq_false_iff, Option.isNone_iff_eq_none]

theorem read_of_valued {kind : HeaderKind} {value : Bytes} {header : Header}
    (valued : kind.header? value = some header) :
    read (kind.head ++ value) = .ok (some header) := by
  simp only [read, kindOf?_head_append, valued]

theorem read_of_unvalued {kind : HeaderKind} {value : Bytes}
    (unvalued : kind.header? value = none) :
    read (kind.head ++ value) = .error (.headerValue kind (kind.head ++ value)) := by
  simp only [read, kindOf?_head_append, unvalued]

theorem read_eq_none_iff {line : Bytes} :
    read line = .ok none ↔ ∀ kind : HeaderKind, startsWith line kind.head = false := by
  rw [← kindOf?_eq_none_iff, read]
  cases kindOf? line with
  | none => simp
  | some found =>
      obtain ⟨kind, value⟩ := found
      cases valued : kind.header? value <;> simp [valued]

theorem read_eq_some_iff {line : Bytes} {header : Header} :
    read line = .ok (some header) ↔
      ∃ value, line = header.kind.head ++ value ∧ header.HasValue value := by
  constructor
  · intro reads
    cases found : kindOf? line with
    | none =>
        rw [read, found] at reads
        cases reads
    | some both =>
        obtain ⟨kind, value⟩ := both
        obtain rfl := kindOf?_eq_some_iff.1 found
        cases valued : kind.header? value with
        | none =>
            rw [read_of_unvalued valued] at reads
            cases reads
        | some found =>
            rw [read_of_valued valued] at reads
            cases reads
            obtain ⟨rfl, hasValue⟩ := header?_eq_some_iff.1 valued
            exact ⟨value, rfl, hasValue⟩
  · rintro ⟨value, rfl, hasValue⟩
    exact read_of_valued (header?_eq_some_iff.2 ⟨rfl, hasValue⟩)

theorem read_eq_error_iff {line : Bytes} {fault : Fault} :
    read line = .error fault ↔
      ∃ kind value, line = kind.head ++ value ∧
        (∀ header : Header, header.kind = kind → ¬ header.HasValue value) ∧
        fault = .headerValue kind line := by
  have unvalued {kind : HeaderKind} {value : Bytes} : kind.header? value = none ↔
      ∀ header : Header, header.kind = kind → ¬ header.HasValue value := by
    simp only [Option.eq_none_iff_forall_ne_some, ne_eq, header?_eq_some_iff, not_and]
  constructor
  · intro fails
    cases found : kindOf? line with
    | none =>
        rw [read, found] at fails
        cases fails
    | some both =>
        obtain ⟨kind, value⟩ := both
        obtain rfl := kindOf?_eq_some_iff.1 found
        cases valued : kind.header? value with
        | none =>
            rw [read_of_unvalued valued] at fails
            cases fails
            exact ⟨kind, value, rfl, unvalued.1 valued, rfl⟩
        | some found =>
            rw [read_of_valued valued] at fails
            cases fails
  · rintro ⟨kind, value, rfl, unsaid, rfl⟩
    exact read_of_unvalued (unvalued.2 unsaid)

/-- **A line is read as a header exactly if it is the head of the header's kind and a value of the
header**, however the header is written. It is no header line exactly if no kind's head starts it.
All other lines are malformed at the number that is given. -/
theorem read_grammar (line : Bytes) (number : Nat) :
    let reads := atLine number (read line)
    (reads = .ok none ↔ ∀ kind : HeaderKind, startsWith line kind.head = false) ∧
    (∀ header, reads = .ok (some header) ↔
      ∃ value, line = header.kind.head ++ value ∧ header.HasValue value) ∧
    (∀ error, reads = .error error ↔
      ∃ kind value, line = kind.head ++ value ∧
        (∀ header : Header, header.kind = kind → ¬ header.HasValue value) ∧
        error = ⟨.headerValue kind line, number⟩) ∧
    (∀ error, reads = .error error →
      error.diagnostic.kind = .malformedHeader ∧ error.diagnostic.line = number) ∧
    ∀ header value, header.Writes value → line = header.kind.head ++ value →
      reads = .ok (some header) := by
  have accepted {found : Option Header} :
      atLine number (read line) = .ok found ↔ read line = .ok found := by
    cases read line <;> simp [atLine]
  have refused {error : ParseError} : atLine number (read line) = .error error ↔
      ∃ fault, read line = .error fault ∧ error = ⟨fault, number⟩ := by
    cases read line <;> simp [atLine, eq_comm]
  refine ⟨accepted.trans read_eq_none_iff, fun header => accepted.trans read_eq_some_iff, ?_, ?_,
    ?_⟩
  · intro error
    rw [refused]
    constructor
    · rintro ⟨fault, fails, rfl⟩
      obtain ⟨kind, value, split, unvalued, rfl⟩ := read_eq_error_iff.1 fails
      exact ⟨kind, value, split, unvalued, rfl⟩
    · rintro ⟨kind, value, split, unvalued, rfl⟩
      exact ⟨_, read_eq_error_iff.2 ⟨kind, value, split, unvalued, rfl⟩, rfl⟩
  · intro error fails
    obtain ⟨fault, isFault, rfl⟩ := refused.1 fails
    obtain ⟨kind, -, -, -, rfl⟩ := read_eq_error_iff.1 isFault
    exact ⟨rfl, rfl⟩
  · intro header value writes split
    exact accepted.2 (read_eq_some_iff.2 ⟨value, split, writes.hasValue⟩)

/-- A path with an accent, as git quotes it. -/
theorem read_grammar_accent :
    atLine 3 (read (ofAscii "rename to \"caf\\303\\251\"")) =
      .ok (some (.renameTo "café")) := by
  have spells : Quoted.Spells (ofAscii "caf\\303\\251") (ofString "café") :=
    .cons (.plain (by decide : (99 : UInt8) ≠ quote) (by decide))
      (.cons (.plain (by decide : (97 : UInt8) ≠ quote) (by decide))
        (.cons (.plain (by decide : (102 : UInt8) ≠ quote) (by decide))
          (.cons (.octal 0xC3) (.cons (.octal 0xA9) .nil))))
  obtain ⟨-, -, -, -, writes⟩ := read_grammar (ofAscii "rename to \"caf\\303\\251\"") 3
  exact writes (.renameTo "café") _ (.inl ⟨_, rfl, spells⟩) rfl

end Header

end DiffSections
