import DiffSections.Bytes

/-!
# DiffSections.Proofs.Bytes -- taking octets of a class, and numbers in decimal

What is written is read back up to the first octet that does not belong to it
(`takeWhile_append_of_stops`). `digits n` are the octets of a number in decimal: they are digits,
there is at least one, and the number they write is `n`.
-/

namespace DiffSections.Bytes

set_option autoImplicit false

/-! ## Octets of a class -/

section Stops

variable {keeps : UInt8 → Bool} {taken rest : Bytes}

theorem takeWhile_append_of_stops (kept : ∀ b ∈ taken, keeps b = true)
    (stops : ∀ b ∈ rest.head?, keeps b = false) : (taken ++ rest).takeWhile keeps = taken := by
  rw [List.takeWhile_append_of_pos kept]
  cases rest with
  | nil => simp
  | cons b rest => simp [stops b rfl]

theorem dropWhile_append_of_stops (kept : ∀ b ∈ taken, keeps b = true)
    (stops : ∀ b ∈ rest.head?, keeps b = false) : (taken ++ rest).dropWhile keeps = rest := by
  rw [List.dropWhile_append_of_pos kept]
  cases rest with
  | nil => rfl
  | cons b rest => simp [stops b rfl]

end Stops

/-! ## Numbers -/

/-- A number in decimal. -/
def digits (n : Nat) : Bytes := ofAscii (toString n)

theorem digits_eq_map (n : Nat) :
    digits n = (Nat.toDigits 10 n).map fun c => c.toNat.toUInt8 := by
  rw [digits, ofAscii, Nat.toString_eq_ofList_toDigits, String.toList_ofList]

theorem digits_ne_nil (n : Nat) : digits n ≠ [] := by
  rw [digits_eq_map]
  simp [Nat.toDigits_ne_nil]

/-- A decimal digit is one octet, and stands for the same value. -/
theorem toNat_digit {c : Char} (isDigit : c.isDigit = true) :
    c.toNat.toUInt8.toNat = c.toNat ∧ 48 ≤ c.toNat ∧ c.toNat ≤ 57 := by
  simp only [Char.isDigit, Bool.and_eq_true, decide_eq_true_eq] at isDigit
  have lowest : 48 ≤ c.toNat := isDigit.1
  have highest : c.toNat ≤ 57 := isDigit.2
  refine ⟨?_, lowest, highest⟩
  simp only [Nat.toUInt8, UInt8.toNat_ofNat']
  omega

theorem isDigit_of_mem_digits {n : Nat} {b : UInt8} (member : b ∈ digits n) :
    isDigit b = true := by
  rw [digits_eq_map] at member
  obtain ⟨c, isChar, rfl⟩ := List.mem_map.1 member
  obtain ⟨octet, lowest, highest⟩ :=
    toNat_digit (Nat.isDigit_of_mem_toDigits (by decide) (by decide) isChar)
  simp only [isDigit, Bool.and_eq_true, decide_eq_true_eq, UInt8.le_iff_toNat_le, octet]
  exact ⟨lowest, highest⟩

/-- **The digits of a number write it.** -/
theorem decimal_digits (n : Nat) : decimal (digits n) = n := by
  have fold : ∀ (cs : List Char) (init : Nat), (∀ c ∈ cs, c.isDigit = true) →
      (cs.map fun c => c.toNat.toUInt8).foldl (fun n b => n * 10 + digitValue b) init =
        Nat.ofDigitChars 10 cs init := by
    intro cs
    induction cs with
    | nil => simp
    | cons c cs ih =>
        intro init isDigit
        have octet := (toNat_digit (isDigit c (by simp))).1
        rw [List.map_cons, List.foldl_cons, ih _ fun d later => isDigit d (by simp [later]),
          Nat.ofDigitChars_cons, digitValue, octet, Nat.mul_comm]
        rfl
  rw [decimal, digits_eq_map, fold _ _ fun c isChar =>
    Nat.isDigit_of_mem_toDigits (by decide) (by decide) isChar, Nat.ofDigitChars_ten_toDigits]

end DiffSections.Bytes
