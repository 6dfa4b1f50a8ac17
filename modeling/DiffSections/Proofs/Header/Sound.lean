import DiffSections.Proofs.Header

/-!
# DiffSections.Proofs.Header.Sound -- the values that are read of header lines

A line that is read as an extended header has a value of its kind (`Header.sound_of_read`): a mode
of one to six octal digits, a percentage of at most 100, object ids of hexadecimal digits. The
reader checks octets; these are ASCII, so what it keeps as text is what it checked.
-/

namespace DiffSections

set_option autoImplicit false

open Bytes

namespace HeaderValue

variable {value : Bytes}

/-- What is checked octet by octet to be ASCII is kept as it is. -/
theorem ofString_lossy_of_all {keeps : UInt8 → Bool} (ascii : ∀ b, keeps b = true → b < 0x80)
    (all : value.all keeps = true) : ofString (Text.lossy value) = value := by
  apply Text.ofString_lossy
  intro b member
  exact ascii b (List.all_eq_true.1 all b member)

theorem lt_of_isDigit {b : UInt8} (digit : isDigit b = true) : b < 0x80 := by
  simp only [isDigit, Bool.and_eq_true, decide_eq_true_eq] at digit
  exact UInt8.lt_of_le_of_lt digit.2 (by decide)

theorem lt_of_isOctalDigit {b : UInt8} (digit : isOctalDigit b = true) : b < 0x80 := by
  simp only [isOctalDigit, Bool.and_eq_true, decide_eq_true_eq] at digit
  exact UInt8.lt_of_le_of_lt digit.2 (by decide)

theorem lt_of_isHexDigit {b : UInt8} (digit : isHexDigit b = true) : b < 0x80 := by
  simp only [isHexDigit, Bool.or_eq_true, Bool.and_eq_true, decide_eq_true_eq] at digit
  rcases digit with (decimal | upper) | lower
  · exact lt_of_isDigit decimal
  · exact UInt8.lt_of_le_of_lt upper.2 (by decide)
  · exact UInt8.lt_of_le_of_lt lower.2 (by decide)

theorem isMode_of_mode? {mode : String} (reads : mode? value = some mode) : IsMode mode := by
  simp only [mode?] at reads
  split at reads
  · rename_i checked
    obtain ⟨nonempty, short, octal⟩ := checked
    cases reads
    rw [IsMode, ofString_lossy_of_all (fun _ => lt_of_isOctalDigit) octal]
    exact ⟨nonempty, short, octal⟩
  · cases reads

theorem isObjectId_of_objectId? {id : String} (reads : objectId? value = some id) :
    IsObjectId id := by
  simp only [objectId?] at reads
  split at reads
  · rename_i checked
    obtain ⟨nonempty, hex⟩ := checked
    cases reads
    rw [IsObjectId, ofString_lossy_of_all (fun _ => lt_of_isHexDigit) hex]
    exact ⟨nonempty, hex⟩
  · cases reads

theorem le_of_percent? {percent : Nat} (reads : percent? value = some percent) :
    percent ≤ 100 := by
  simp only [percent?] at reads
  split at reads
  · rename_i checked
    cases reads
    exact checked.2.2.2
  · cases reads

theorem exists_of_index? {header : Header} (reads : index? value = some header) :
    ∃ orig new mode, header = .index orig new mode ∧ IsObjectId orig ∧ IsObjectId new ∧
      ∀ text ∈ mode, IsMode text := by
  simp only [index?, Option.bind_eq_bind, Option.bind_eq_some_iff] at reads
  obtain ⟨orig, isOrig, rest, -, new, isNew, reads⟩ := reads
  have origId := isObjectId_of_objectId? isOrig
  have newId := isObjectId_of_objectId? isNew
  split at reads
  · cases reads
    refine ⟨orig, new, none, rfl, origId, newId, ?_⟩
    intro text isMode
    cases isMode
  · split at reads
    · obtain ⟨mode, isMode, same⟩ := Option.bind_eq_some_iff.1 reads
      cases same
      refine ⟨orig, new, some mode, rfl, origId, newId, ?_⟩
      rintro text ⟨⟩
      exact isMode_of_mode? isMode
    · cases reads

end HeaderValue

namespace Header

/-- The values that a header can have which was read of a line. -/
def Sound : Header → Prop
  | .newFileMode mode | .deletedFileMode mode | .oldMode mode | .newMode mode =>
      HeaderValue.IsMode mode
  | .similarityIndex percent | .dissimilarityIndex percent => percent ≤ 100
  | .renameFrom _ | .renameTo _ | .copyFrom _ | .copyTo _ => True
  | .index orig new mode =>
      HeaderValue.IsObjectId orig ∧ HeaderValue.IsObjectId new ∧
        ∀ text ∈ mode, HeaderValue.IsMode text

theorem sound_of_header? {kind : HeaderKind} {value : Bytes} {header : Header}
    (reads : kind.header? value = some header) : header.Sound := by
  cases kind with
  | newFileMode | deletedFileMode | oldMode | newMode =>
      obtain ⟨mode, isMode, rfl⟩ := Option.map_eq_some_iff.1 reads
      exact HeaderValue.isMode_of_mode? isMode
  | similarityIndex | dissimilarityIndex =>
      obtain ⟨percent, isPercent, rfl⟩ := Option.map_eq_some_iff.1 reads
      exact HeaderValue.le_of_percent? isPercent
  | renameFrom | renameTo | copyFrom | copyTo =>
      obtain ⟨path, -, rfl⟩ := Option.map_eq_some_iff.1 reads
      trivial
  | index =>
      obtain ⟨orig, new, mode, rfl, sound⟩ := HeaderValue.exists_of_index? reads
      exact sound

/-- **A header that is read has a value of its kind.** -/
theorem sound_of_read {line : Bytes} {header : Header} (reads : read line = .ok (some header)) :
    header.Sound := by
  simp only [read] at reads
  split at reads
  · cases reads
  · split at reads
    · rename_i valued
      cases reads
      exact sound_of_header? valued
    · cases reads

end Header

end DiffSections
