import DiffSections.Bytes

/-!
# DiffSections.Proofs.Checked -- results that may be errors, and ranges that panic

A check gives a value or an error. A `Panic` is an error that ends the program at once: so does
`Bytes.slice`, which takes a range of a text, where the range leaves the text.
-/

namespace DiffSections

set_option autoImplicit false

/-! ## Results that may be errors -/

section Except

variable {ε ε' α β : Type}

@[simp] theorem ok_bind (value : α) (next : α → Except ε β) :
    (.ok value >>= next : Except ε β) = next value := rfl

@[simp] theorem pure_eq_ok (value : α) : (pure value : Except ε α) = .ok value := rfl

@[simp] theorem mapError_ok (change : ε → ε') (value : α) :
    (.ok value : Except ε α).mapError change = .ok value := rfl

theorem mapError_eq_ok_iff {checked : Except ε α} {change : ε → ε'} {value : α} :
    checked.mapError change = .ok value ↔ checked = .ok value := by
  cases checked with
  | ok other => rw [mapError_ok, Except.ok.injEq, Except.ok.injEq]
  | error error => constructor <;> intro same <;> cases same

theorem mapError_eq_error_iff {checked : Except ε α} {change : ε → ε'} {reported : ε'} :
    checked.mapError change = .error reported ↔
      ∃ error, checked = .error error ∧ change error = reported := by
  cases checked with
  | ok value =>
      constructor
      · intro refused
        cases refused
      · rintro ⟨error, refused, -⟩
        cases refused
  | error error =>
      constructor
      · intro refused
        exact ⟨error, rfl, Except.error.inj refused⟩
      · rintro ⟨error, refused, rfl⟩
        cases refused
        rfl

end Except

/-! ## Ranges that panic -/

/-- What ends a program at once. -/
inductive Panic where
  /-- An index or a range leaves the text or the list that it is taken of. -/
  | outOfBounds
  /-- A section is given a second preamble. -/
  | secondPreamble
  /-- A section is closed without octets. -/
  | emptySection
  deriving DecidableEq, Repr

namespace Bytes

/-- The octets of a text from index `start` up to index `stop`. -/
def slice (text : Bytes) (start stop : Nat) : Except Panic Bytes :=
  if start ≤ stop ∧ stop ≤ text.length then .ok ((text.take stop).drop start)
  else .error .outOfBounds

theorem slice_zero {text : Bytes} {stop : Nat} (within : stop ≤ text.length) :
    slice text 0 stop = .ok (text.take stop) := by
  simp [slice, within]

theorem slice_length {text : Bytes} {start : Nat} (within : start ≤ text.length) :
    slice text start text.length = .ok (text.drop start) := by
  simp [slice, within]

/-- What follows a head is the slice behind it. -/
theorem slice_after? {head line rest : Bytes} (headed : after? head line = some rest) :
    slice line head.length line.length = .ok rest := by
  obtain rfl := after?_eq_some_iff.1 headed
  rw [slice_length (by simp), List.drop_left]

end Bytes

end DiffSections
