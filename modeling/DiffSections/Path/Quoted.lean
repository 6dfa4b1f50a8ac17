import DiffSections.Bytes

/-!
# DiffSections.Path.Quoted -- paths between double quotes

A path with unusual octets is written between double quotes. Inside them a backslash starts an
escape: a letter for a control octet, a quote or backslash for itself, or three octal digits for any
octet. `decode?` reads a complete quoted string; `endIndex?` finds where the string that a text
starts with ends.
-/

namespace DiffSections.Quoted

set_option autoImplicit false

open Bytes

/-- The octets that a backslash and one more octet stand for. -/
def named : List (UInt8 × UInt8) :=
  [(97, 7), (98, 8), (116, tab), (110, lf), (118, 11), (102, 12), (114, cr), (quote, quote),
    (backslash, backslash)]

/-- The octet that three octal digits stand for; the first is at most 3. -/
def octal? (a b c : UInt8) : Option UInt8 :=
  if isOctalDigit a && a ≤ 51 && isOctalDigit b && isOctalDigit c then
    some (UInt8.ofNat (digitValue a * 64 + digitValue b * 8 + digitValue c))
  else none

/-- Undo the escapes between the quotes. -/
def unescape? : Bytes → Option Bytes
  | [] => some []
  | b :: rest =>
      if b = backslash then
        match rest with
        | [] => none
        | e :: rest =>
            match named.lookup e with
            | some octet => (unescape? rest).map (octet :: ·)
            | none =>
                match rest with
                | f :: g :: rest =>
                    match octal? e f g with
                    | some octet => (unescape? rest).map (octet :: ·)
                    | none => none
                | _ => none
      else (unescape? rest).map (b :: ·)

/-- The path a quoted string stands for. -/
def decode? : Bytes → Option Bytes
  | [] => none
  | b :: rest =>
      if b = quote ∧ rest.getLast? = some quote then unescape? rest.dropLast else none

/-- The index of the first quote that no backslash takes, counting from `index`. -/
def endIndexFrom? : Bool → Nat → Bytes → Option Nat
  | _, _, [] => none
  | true, index, _ :: rest => endIndexFrom? false (index + 1) rest
  | false, index, b :: rest =>
      if b = backslash then endIndexFrom? true (index + 1) rest
      else if b = quote then some index
      else endIndexFrom? false (index + 1) rest

/-- The index of the quote that closes the string opened by the first octet. -/
def endIndex? (raw : Bytes) : Option Nat :=
  endIndexFrom? false 1 raw.tail

/-- A path that is quoted if it starts with a quote, and plain otherwise. -/
def pathOf? (raw : Bytes) : Option Bytes :=
  if raw.head? = some quote then decode? raw else some raw

end DiffSections.Quoted
