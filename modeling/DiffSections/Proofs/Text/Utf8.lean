import DiffSections.Text.Utf8
import Mathlib.Tactic.IntervalCases

/-!
# DiffSections.Proofs.Text.Utf8 -- well-formed text comes through decoding unchanged

Reading the UTF-8 octets of a text gives the text back (`lossy_ofString`). A character is written
with one to four octets; for each length the lead octet asks for as many continuation octets as
there are, and the bounds that it puts on the first of them are met (`nextPoint_utf8EncodeChar`).
ASCII octets are also those of the text that they are read as (`ofString_lossy`). Decoding that may
fail gives no other text (`strict?_eq_some_iff`).
-/

namespace DiffSections.Text

set_option autoImplicit false

open Bytes

theorem toNat_ofNat_of_lt {n : Nat} (small : n < 256) : (UInt8.ofNat n).toNat = n := by
  simp [Nat.mod_eq_of_lt small]

/-- A continuation octet within the bounds adds its six bits to the code point. -/
theorem takeTails_ofNat {low high : UInt8} {tail : Nat} (small : tail < 64)
    (lowest : low.toNat ≤ tail + 0x80) (highest : tail + 0x80 ≤ high.toNat)
    (owed point : Nat) (rest : Bytes) :
    takeTails low high (owed + 1) point (UInt8.ofNat (tail + 0x80) :: rest) =
      takeTails 0x80 0xBF owed (point * 64 + tail) rest := by
  have octet : (UInt8.ofNat (tail + 0x80)).toNat = tail + 0x80 := toNat_ofNat_of_lt (by omega)
  have fits : low ≤ UInt8.ofNat (tail + 0x80) ∧ UInt8.ofNat (tail + 0x80) ≤ high := by
    rw [UInt8.le_iff_toNat_le, UInt8.le_iff_toNat_le, octet]
    exact ⟨lowest, highest⟩
  rw [takeTails, if_pos fits, octet, Nat.add_sub_cancel]

theorem takeTails_ofNat_plain {tail : Nat} (small : tail < 64) (owed point : Nat) (rest : Bytes) :
    takeTails 0x80 0xBF (owed + 1) point (UInt8.ofNat (tail + 0x80) :: rest) =
      takeTails 0x80 0xBF owed (point * 64 + tail) rest :=
  takeTails_ofNat small (by simp) (by simp; omega) owed point rest

/-! ## Lead octets -/

theorem ofByte?_one {n : Nat} (small : n < 0x80) :
    Lead.ofByte? (UInt8.ofNat n) = some { bits := n, tails := 0 } := by
  have octet : (UInt8.ofNat n).toNat = n := toNat_ofNat_of_lt (by omega)
  simp only [Lead.ofByte?, octet, small, if_true]

theorem ofByte?_two {bits : Nat} (lowest : 2 ≤ bits) (highest : bits < 32) :
    Lead.ofByte? (UInt8.ofNat (bits + 0xC0)) = some { bits, tails := 1 } := by
  interval_cases bits <;> rfl

theorem ofByte?_three {bits : Nat} (highest : bits < 16) :
    Lead.ofByte? (UInt8.ofNat (bits + 0xE0)) =
      some { bits, tails := 2, low := if bits = 0 then 0xA0 else 0x80,
             high := if bits = 13 then 0x9F else 0xBF } := by
  interval_cases bits <;> rfl

theorem ofByte?_four {bits : Nat} (highest : bits ≤ 4) :
    Lead.ofByte? (UInt8.ofNat (bits + 0xF0)) =
      some { bits, tails := 3, low := if bits = 0 then 0x90 else 0x80,
             high := if bits = 4 then 0x8F else 0xBF } := by
  interval_cases bits <;> rfl

/-! ## Characters -/

/-- A written character is read back, and what follows it is left. -/
theorem nextPoint_utf8EncodeChar (c : Char) (rest : Bytes) :
    ∃ b tail, String.utf8EncodeChar c = b :: tail ∧
      nextPoint b (tail ++ rest) = (some c.toNat, rest) := by
  have valid : c.toNat < 0xD800 ∨ 0xDFFF < c.toNat ∧ c.toNat < 0x110000 := c.valid
  have same : c.val.toNat = c.toNat := rfl
  generalize c.toNat = v at valid same
  unfold String.utf8EncodeChar
  rw [same]
  dsimp only
  split
  · rename_i one
    exact ⟨_, [], rfl, by simp only [nextPoint, ofByte?_one (n := v) (by omega), takeTails,
      List.nil_append]⟩
  · split
    · rename_i _ two
      refine ⟨_, _, rfl, ?_⟩
      simp only [nextPoint, ofByte?_two (by omega : 2 ≤ v / 64 % 32) (by omega),
        List.cons_append, List.nil_append]
      rw [takeTails_ofNat_plain (by omega), takeTails]
      congr 2
      omega
    · split
      · rename_i _ _ three
        refine ⟨_, _, rfl, ?_⟩
        simp only [nextPoint, ofByte?_three (by omega : v / 4096 % 16 < 16),
          List.cons_append, List.nil_append]
        rw [takeTails_ofNat (by omega) (by split <;> simp; omega) (by split <;> simp <;> omega),
          takeTails_ofNat_plain (by omega), takeTails]
        congr 2
        omega
      · refine ⟨_, _, rfl, ?_⟩
        simp only [nextPoint, ofByte?_four (by omega : v / 262144 % 8 ≤ 4),
          List.cons_append, List.nil_append]
        rw [takeTails_ofNat (by omega) (by split <;> simp; omega) (by split <;> simp <;> omega),
          takeTails_ofNat_plain (by omega), takeTails_ofNat_plain (by omega), takeTails]
        congr 2
        omega

theorem chars_utf8EncodeChar (c : Char) (rest : Bytes) :
    chars (String.utf8EncodeChar c ++ rest) = c :: chars rest := by
  obtain ⟨b, tail, written, next⟩ := nextPoint_utf8EncodeChar c rest
  rw [written, List.cons_append, chars]
  split
  · rename_i point later found
    rw [next] at found
    cases found
    rw [Char.ofNat_toNat]
  · rename_i later found
    rw [next] at found
    cases found

/-! ## Texts -/

theorem ofString_eq_flatMap (text : String) :
    ofString text = text.toList.flatMap String.utf8EncodeChar := by
  show text.toByteArray.data.toList = _
  rw [← String.utf8Encode_toList, List.utf8Encode]
  simp

/-- **The octets of a text are read as the text.** -/
theorem lossy_ofString (text : String) : lossy (ofString text) = text := by
  have read : ∀ cs : List Char, chars (cs.flatMap String.utf8EncodeChar) = cs := by
    intro cs
    induction cs with
    | nil => rw [List.flatMap_nil, chars]
    | cons c cs ih => rw [List.flatMap_cons, chars_utf8EncodeChar, ih]
  rw [lossy, ofString_eq_flatMap, read, String.ofList_toList]

theorem ofString_ne_nil {text : String} (nonempty : text ≠ "") : ofString text ≠ [] := by
  intro empty
  apply nonempty
  rw [← lossy_ofString text, empty, lossy, chars]

/-! ## ASCII -/

theorem utf8EncodeChar_ofNat {n : Nat} (small : n < 0x80) :
    String.utf8EncodeChar (Char.ofNat n) = [UInt8.ofNat n] := by
  have valid : n.isValidChar := .inl (by omega)
  have same : (Char.ofNat n).val.toNat = n := by
    rw [Char.ofNat, dif_pos valid]
    rfl
  unfold String.utf8EncodeChar
  rw [same]
  simp
  omega

theorem chars_cons_of_lt {b : UInt8} (small : b < 0x80) (rest : Bytes) :
    chars (b :: rest) = Char.ofNat b.toNat :: chars rest := by
  have small : b.toNat < 0x80 := small
  have next : nextPoint b rest = (some b.toNat, rest) := by
    have lead := ofByte?_one small
    rw [UInt8.ofNat_toNat] at lead
    rw [nextPoint, lead]
    rfl
  rw [chars]
  split
  · rename_i point later found
    rw [next] at found
    cases found
    rfl
  · rename_i later found
    rw [next] at found
    cases found

/-- Octets that are ASCII are those of the text they are read as. -/
theorem ofString_lossy {bytes : Bytes} (ascii : ∀ b ∈ bytes, b < 0x80) :
    ofString (lossy bytes) = bytes := by
  rw [ofString_eq_flatMap, lossy, String.toList_ofList]
  induction bytes with
  | nil => rw [chars, List.flatMap_nil]
  | cons b bytes ih =>
      have small : b < 0x80 := ascii b (by simp)
      have one : String.utf8EncodeChar (Char.ofNat b.toNat) = [b] := by
        rw [utf8EncodeChar_ofNat (UInt8.lt_iff_toNat_lt.1 small), UInt8.ofNat_toNat]
      rw [chars_cons_of_lt small, List.flatMap_cons, one,
        ih fun c member => ascii c (by simp [member]), List.singleton_append]

/-! ## Octets that have to be text -/

/-- Octets are read as the text of which they are the octets, if there is one. -/
theorem strict?_eq_some_iff {bytes : Bytes} {text : String} :
    strict? bytes = some text ↔ bytes = ofString text := by
  unfold strict? String.fromUTF8? ofString
  constructor
  · intro read
    split at read
    case isTrue valid =>
      obtain rfl := Option.some.inj read
      rfl
    case isFalse => cases read
  · rintro rfl
    exact dif_pos text.isValidUTF8

end DiffSections.Text
