/-!
# DiffSections.Bytes -- octet strings and the few ASCII octets that carry structure

A diff is read as octets: nothing is decoded until a path, a heading or a message needs text. This
module names the octets the formats are built from and gives the two questions asked of a line:
what follows a fixed head (`after?`) and whether it starts with one (`startsWith`).

* `after?_eq_some_iff`: `after? head line = some rest` exactly when `line = head ++ rest`.
-/

namespace DiffSections

set_option autoImplicit false

/-- A string of octets. -/
abbrev Bytes := List UInt8

namespace Bytes

abbrev tab : UInt8 := 9
abbrev lf : UInt8 := 10
abbrev cr : UInt8 := 13
abbrev space : UInt8 := 32
abbrev quote : UInt8 := 34
abbrev percent : UInt8 := 37
abbrev plus : UInt8 := 43
abbrev comma : UInt8 := 44
abbrev minus : UInt8 := 45
abbrev dot : UInt8 := 46
abbrev slash : UInt8 := 47
abbrev zero : UInt8 := 48
abbrev backslash : UInt8 := 92

/-- The octets of a text that holds ASCII characters only. -/
def ofAscii (text : String) : Bytes :=
  text.toList.map fun c => c.toNat.toUInt8

/-- The UTF-8 octets of a text. -/
def ofString (text : String) : Bytes :=
  text.toUTF8.data.toList

/-! ## Heads -/

/-- What follows `head` in a line that starts with it. -/
def after? : Bytes → Bytes → Option Bytes
  | [], line => some line
  | _ :: _, [] => none
  | a :: head, b :: line => if a = b then after? head line else none

def startsWith (line head : Bytes) : Bool :=
  (after? head line).isSome

def endsWith (line tail : Bytes) : Bool :=
  startsWith line.reverse tail.reverse

theorem after?_eq_some_iff {head line rest : Bytes} :
    after? head line = some rest ↔ line = head ++ rest := by
  induction head generalizing line with
  | nil => simp [after?]
  | cons a head ih =>
      cases line with
      | nil => simp [after?]
      | cons b line =>
          by_cases same : a = b
          · subst same; simp [after?, ih]
          · simp [after?, same, eq_comm]

@[simp] theorem after?_append (head rest : Bytes) : after? head (head ++ rest) = some rest :=
  after?_eq_some_iff.2 rfl

theorem startsWith_iff {line head : Bytes} :
    startsWith line head = true ↔ ∃ rest, line = head ++ rest := by
  simp [startsWith, Option.isSome_iff_exists, after?_eq_some_iff]

/-! ## Digits -/

def isDigit (b : UInt8) : Bool := 48 ≤ b && b ≤ 57

def isOctalDigit (b : UInt8) : Bool := 48 ≤ b && b ≤ 55

def isHexDigit (b : UInt8) : Bool :=
  isDigit b || (65 ≤ b && b ≤ 70) || (97 ≤ b && b ≤ 102)

def digitValue (b : UInt8) : Nat := b.toNat - 48

/-- The number a string of decimal digits writes. -/
def decimal (digits : Bytes) : Nat :=
  digits.foldl (fun n b => n * 10 + digitValue b) 0

/-- The spaces, tabs and line ends of ASCII (no vertical tab). -/
def isBlank (b : UInt8) : Bool :=
  b = tab || b = lf || b = 12 || b = cr || b = space

end Bytes

/-- Sizes, counts and positions are machine words: a number from here on does not fit one. -/
def wordLimit : Nat := 18446744073709551616

end DiffSections
