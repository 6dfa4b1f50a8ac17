import DiffSections.Yaml.Token.Scalar

/-!
# DiffSections.Yaml.Schema -- what a scalar without quotes reads as

Some plain scalars are no text: a few words stand for null and the truth values, and numbers are
read in decimal, or with `0x`, `0o` or `0b` before them. Decimal digits after a leading zero are
text. A number with a fraction or an exponent is one only if it is below the largest double.
-/

namespace DiffSections.Yaml

set_option autoImplicit false

def isNull (text : String) : Bool :=
  ["null", "Null", "NULL", "~"].contains text

def isTruth (text : String) : Bool :=
  ["true", "True", "TRUE", "false", "False", "FALSE"].contains text

/-! ## Whole numbers -/

/-- The value of a digit in a base. -/
def digitValue? (base : Nat) (c : Char) : Option Nat :=
  (hexValue? c).filter (· < base)

/-- The number that digits write in a base; there is at least one. -/
def numeral? (base : Nat) (digits : List Char) : Option Nat :=
  if digits.isEmpty then none
  else digits.foldlM (fun n c => (digitValue? base c).map (n * base + ·)) 0

/-- The base that a number names, and its digits. -/
def namedBase? : List Char → Option (Nat × List Char)
  | '0' :: 'x' :: digits => some (16, digits)
  | '0' :: 'o' :: digits => some (8, digits)
  | '0' :: 'b' :: digits => some (2, digits)
  | _ => none

/-- Go past one sign. -/
def dropSign : List Char → List Char
  | '+' :: rest | '-' :: rest => rest
  | chars => chars

def dropPlus : List Char → List Char
  | '+' :: rest => rest
  | chars => chars

/-- Decimal digits with a leading zero, which are text. -/
def isZeroPadded (chars : List Char) : Bool :=
  match dropSign chars with
  | '0' :: c :: rest => (c :: rest).all Char.isDigit
  | _ => false

/-- The number below a limit that a base is named for. -/
def based? (limit : Nat) (chars : List Char) : Option Nat :=
  ((namedBase? chars).bind fun (base, digits) => numeral? base digits).filter (· < limit)

/-- The whole number below a limit that a text reads as. -/
def unsigned? (limit : Nat) (text : String) : Option Nat :=
  let chars := text.toList
  let number := dropPlus chars
  based? limit number <|>
    if isZeroPadded chars then none else (numeral? 10 number).filter (· < limit)

/-! ## All numbers -/

/-- The digits of a number, which may have a point, and how many stand behind it. -/
structure Mantissa where
  digits : List Char
  places : Nat

/-- Read the digits of a number and its point. -/
def readMantissa (chars : List Char) : Mantissa × List Char :=
  let whole := chars.takeWhile Char.isDigit
  match chars.dropWhile Char.isDigit with
  | '.' :: rest =>
      let fraction := rest.takeWhile Char.isDigit
      ({ digits := whole ++ fraction, places := fraction.length }, rest.dropWhile Char.isDigit)
  | rest => ({ digits := whole, places := 0 }, rest)

/-- Read the exponent that ends a number; none is zero. -/
def exponent? : List Char → Option Int
  | [] => some 0
  | e :: rest =>
      if e ≠ 'e' ∧ e ≠ 'E' then none
      else
        (numeral? 10 (dropSign rest)).map fun n => if rest.head? = some '-' then -n else n

/-- What rounds to no double: halfway from the largest one to the next power of two. -/
def doubleLimit : Nat := Nat.pow 2 1024 - Nat.pow 2 970

/-- Whether `n * 10 ^ e` rounds to a double. Numbers of more than 400 digits before the point do
not. -/
def isFinite (n : Nat) (e : Int) : Bool :=
  n = 0 || e + (Nat.toDigits 10 n).length ≤ 0 ||
    (e + (Nat.toDigits 10 n).length ≤ 400 &&
      n * Nat.pow 10 e.toNat < doubleLimit * Nat.pow 10 (-e).toNat)

/-- Whether this is a number written in decimal, with or without a point and an exponent. -/
def isDecimal (chars : List Char) : Bool :=
  let (mantissa, rest) := readMantissa chars
  match numeral? 10 mantissa.digits, exponent? rest with
  | some n, some e => isFinite n (e - mantissa.places)
  | _, _ => false

/-- The words for infinity and for what is no number. -/
def isSpecialNumber (chars : List Char) : Bool :=
  let words := [".inf", ".Inf", ".INF"]
  words.contains (String.ofList (dropSign chars)) ||
    [".nan", ".NaN", ".NAN"].contains (String.ofList chars)

/-- Whether a text reads as a number. -/
def isNumber (text : String) : Bool :=
  let chars := text.toList
  let based := if chars.head? = some '-' then based? (Nat.pow 2 127 + 1) (chars.drop 1)
    else based? (Nat.pow 2 128) (dropPlus chars)
  based.isSome || (!isZeroPadded chars && (isDecimal (dropSign chars) || isSpecialNumber chars))

/-- Whether a text, written without quotes, reads as something else. -/
def isAmbiguous (text : String) : Bool :=
  text = "" || isNull text || isTruth text || isNumber text || isZeroPadded text.toList

end DiffSections.Yaml
