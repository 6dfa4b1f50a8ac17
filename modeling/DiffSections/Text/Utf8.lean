import DiffSections.Bytes

/-!
# DiffSections.Text.Utf8 -- reading octets as text, whatever they are

A path, a heading or a quoted line becomes text by UTF-8 decoding that never fails: each maximal
stretch of octets that starts a character without completing it is read as one U+FFFD, and so is
each octet that can start none. Well-formed text comes through unchanged.

A character is a lead octet and the continuation octets it asks for. The lead also narrows the
first continuation (`Lead.low`, `Lead.high`), which is what rules out overlong forms, surrogates
and code points above U+10FFFF.
-/

namespace DiffSections.Text

set_option autoImplicit false

/-- What a lead octet asks for: how many continuation octets follow, the bounds on the first of
them, and the leading bits of the code point. -/
structure Lead where
  bits : Nat
  tails : Nat
  low : UInt8 := 0x80
  high : UInt8 := 0xBF

/-- The lead octets of UTF-8; the other octets start no character. -/
def Lead.ofByte? (b : UInt8) : Option Lead :=
  let n := b.toNat
  if n < 0x80 then some { bits := n, tails := 0 }
  else if n < 0xC2 then none
  else if n < 0xE0 then some { bits := n - 0xC0, tails := 1 }
  else if n = 0xE0 then some { bits := 0, tails := 2, low := 0xA0 }
  else if n = 0xED then some { bits := 13, tails := 2, high := 0x9F }
  else if n < 0xF0 then some { bits := n - 0xE0, tails := 2 }
  else if n = 0xF0 then some { bits := 0, tails := 3, low := 0x90 }
  else if n < 0xF4 then some { bits := n - 0xF0, tails := 3 }
  else if n = 0xF4 then some { bits := 4, tails := 3, high := 0x8F }
  else none

/-- Read the continuation octets that are still owed. The code point is `none` when the sequence
breaks off; what is left then starts at the octet that did not fit. -/
def takeTails (low high : UInt8) : Nat → Nat → Bytes → Option Nat × Bytes
  | 0, point, rest => (some point, rest)
  | _ + 1, _, [] => (none, [])
  | owed + 1, point, b :: rest =>
      if low ≤ b ∧ b ≤ high then
        takeTails 0x80 0xBF owed (point * 64 + (b.toNat - 0x80)) rest
      else (none, b :: rest)

/-- The code point that starts with lead octet `b`, and the octets after it. -/
def nextPoint (b : UInt8) (rest : Bytes) : Option Nat × Bytes :=
  match Lead.ofByte? b with
  | none => (none, rest)
  | some lead => takeTails lead.low lead.high lead.tails lead.bits rest

theorem takeTails_length_le (low high : UInt8) (owed point : Nat) (rest : Bytes) :
    (takeTails low high owed point rest).2.length ≤ rest.length := by
  fun_induction takeTails low high owed point rest with
  | case1 => simp
  | case2 => simp
  | case3 low high owed point b rest _ ih => exact Nat.le_succ_of_le ih
  | case4 => simp

theorem nextPoint_length_le (b : UInt8) (rest : Bytes) :
    (nextPoint b rest).2.length ≤ rest.length := by
  unfold nextPoint
  split
  · simp
  · exact takeTails_length_le _ _ _ _ _

/-- What stands for octets that are no character. -/
def replacement : Char := '\uFFFD'

/-- The characters of an octet string, with `replacement` for each stretch that is none. -/
def chars : Bytes → List Char
  | [] => []
  | b :: rest =>
      match _next : nextPoint b rest with
      | (some point, later) => Char.ofNat point :: chars later
      | (none, later) => replacement :: chars later
termination_by bytes => bytes.length
decreasing_by
  all_goals
    have shorter := nextPoint_length_le b rest
    rw [_next] at shorter
    simp only [List.length_cons]
    exact Nat.lt_succ_of_le shorter

/-- An octet string read as text. -/
def lossy (bytes : Bytes) : String :=
  String.ofList (chars bytes)

/-- An octet string read as text, when it is well-formed UTF-8. -/
def strict? (bytes : Bytes) : Option String :=
  String.fromUTF8? (ByteArray.mk bytes.toArray)

end DiffSections.Text
