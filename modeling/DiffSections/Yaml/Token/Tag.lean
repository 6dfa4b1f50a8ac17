import DiffSections.Yaml.Cursor
import DiffSections.Yaml.Token
import DiffSections.Yaml.Token.Scalar

/-!
# DiffSections.Yaml.Token.Tag -- tags, anchors and directives

A tag is `!<uri>`, or a handle and a suffix: `!suffix`, `!!suffix` or `!word!suffix`. A lone `!` is
a tag with an empty handle. In a URI an octet may be written as `%` and two hexadecimal digits;
written octets come in whole UTF-8 sequences. Each reader returns nothing at a fault.
-/

namespace DiffSections.Yaml

set_option autoImplicit false

/-- Read a word. -/
def readWord (cursor : Cursor) : String × Cursor :=
  (String.ofList (cursor.rest.takeWhile isWord), cursor.skipWhile isWord)

/-! ## URIs -/

/-- What URIs are made of. Between angle brackets and in directives they hold flow indicators. -/
def isUriChar (verbatim : Bool) (c : Char) : Bool :=
  isWord c || ";/?:@&=+$.%!~*'()".toList.contains c || (verbatim && ",[]".toList.contains c)

/-- The octet that is written here. -/
def writtenOctet? : List Char → Option UInt8
  | '%' :: a :: b :: _ => do
      let high ← hexValue? a
      let low ← hexValue? b
      return (high * 16 + low).toUInt8
  | _ => none

/-- How many octets follow this one in a character. -/
def continuations? (lead : UInt8) : Option Nat :=
  if lead < 0x80 then some 0
  else if lead < 0xC0 then none
  else if lead < 0xE0 then some 1
  else if lead < 0xF0 then some 2
  else if lead < 0xF8 then some 3
  else none

/-- Read written octets that continue a character. Octets are kept newest first. -/
def writtenContinuations? : Nat → Cursor → Bytes → Option (Bytes × Cursor)
  | 0, cursor, octets => some (octets, cursor)
  | count + 1, cursor, octets => do
      let octet ← writtenOctet? cursor.rest
      if octet &&& 0xC0 = 0x80 then
        writtenContinuations? count (cursor.skip 3) (octet :: octets)
      else none

/-- Read the octets of a URI, newest first. -/
def uriOctets? (verbatim : Bool) : Nat → Cursor → Bytes → Option (Bytes × Cursor)
  | 0, cursor, octets => some (octets, cursor)
  | fuel + 1, cursor, octets =>
      match cursor.peek? with
      | none => some (octets, cursor)
      | some c =>
          if ¬ isUriChar verbatim c then some (octets, cursor)
          else if c ≠ '%' then
            uriOctets? verbatim fuel (cursor.skip 1) (c.toNat.toUInt8 :: octets)
          else do
            let lead ← writtenOctet? cursor.rest
            let count ← continuations? lead
            let (octets, cursor) ← writtenContinuations? count (cursor.skip 3) (lead :: octets)
            uriOctets? verbatim fuel cursor octets

/-- Read a URI. A written zero octet ends what is kept of it. -/
def readUri? (verbatim : Bool) (cursor : Cursor) : Option (Bytes × Cursor) := do
  let (octets, after) ← uriOctets? verbatim cursor.ahead cursor []
  return (octets.reverse.takeWhile (· ≠ 0), after)

/-- Read a URI that is not empty. -/
def readFullUri? (verbatim : Bool) (cursor : Cursor) : Option (Bytes × Cursor) := do
  let (octets, after) ← readUri? verbatim cursor
  if after.index = cursor.index then none else return (octets, after)

/-! ## Tags -/

/-- Read a handle of the form `!word!`, where the word may be empty. -/
def namedHandle? (cursor : Cursor) : Option (String × Cursor) :=
  let (word, after) := readWord (cursor.skip 1)
  if after.sees '!' then some ("!" ++ word ++ "!", after.skip 1) else none

/-- Read a tag without what has to follow it. -/
def tagBody? (cursor : Cursor) : Option (Token × Cursor) :=
  if (cursor.skip 1).sees '<' then do
    let (uri, after) ← readFullUri? true (cursor.skip 2)
    if after.sees '>' then return (.tag "" uri, after.skip 1) else none
  else
    match namedHandle? cursor with
    | some (handle, after) => do
        let (suffix, after) ← readFullUri? false after
        return (.tag handle suffix, after)
    | none => do
        let (suffix, after) ← readUri? false (cursor.skip 1)
        return (if suffix.isEmpty then .tag "" (Bytes.ofAscii "!") else .tag "!" suffix, after)

/-- Read a tag, which a blank has to follow, or between brackets a comma. -/
def readTag? (inFlow : Bool) (cursor : Cursor) : Option (Token × Cursor) := do
  let (token, after) ← tagBody? cursor
  if (inFlow && after.sees ',') || separates after.rest then return (token, after) else none

/-! ## Anchors -/

/-- Read the name behind `&` or `*`, from the sign on. -/
def readAnchor? (cursor : Cursor) : Option (String × Cursor) :=
  let (name, after) := readWord (cursor.skip 1)
  let ends := separates after.rest || after.peek?.any ("?:,]\x7d%@\x60".toList.contains ·)
  if name.isEmpty || !ends then none else some (name, after)

/-! ## Directives -/

/-- Read one of the two numbers of a version. -/
def versionNumber? (cursor : Cursor) : Option (Nat × Cursor) :=
  let digits := cursor.rest.takeWhile Char.isDigit
  if digits.isEmpty ∨ 9 < digits.length then none
  else some (digits.foldl (fun n c => n * 10 + (c.toNat - 48)) 0, cursor.skip digits.length)

/-- Read the handle that a directive gives a meaning to. -/
def declaredHandle? (cursor : Cursor) : Option (String × Cursor) :=
  if ¬ cursor.sees '!' then none
  else
    match namedHandle? cursor with
    | some found => some found
    | none => if (cursor.skip 1).peek?.any isWord then none else some ("!", cursor.skip 1)

/-- Read a directive, which is a line of its own, from its percent sign on. -/
def readDirective? (cursor : Cursor) : Option (Token × Cursor) := do
  let (name, cursor) := readWord (cursor.skip 1)
  guard (separates cursor.rest)
  let cursor := cursor.skipWhile isBlank
  if name = "YAML" then
    let (major, cursor) ← versionNumber? cursor
    guard (cursor.sees '.')
    let (minor, cursor) ← versionNumber? (cursor.skip 1)
    return (.versionDirective major minor, ← cursor.endLine?)
  else if name = "TAG" then
    let (handle, cursor) ← declaredHandle? cursor
    guard (cursor.peek?.any isBlank)
    let (head, cursor) ← readFullUri? true (cursor.skipWhile isBlank)
    guard (separates cursor.rest)
    return (.tagDirective handle head, ← cursor.endLine?)
  else none

end DiffSections.Yaml
