/-!
# DiffSections.Yaml.Cursor -- a place in a settings file

A cursor knows the characters ahead, how many came before, and its line and column. A line ends at
CR LF, CR, LF, NEL, LS or PS; CR LF is one end of two characters.
-/

namespace DiffSections.Yaml

set_option autoImplicit false

def isBreak (c : Char) : Bool :=
  c = '\n' || c = '\r' || c = '\u0085' || c = '\u2028' || c = '\u2029'

def isBlank (c : Char) : Bool := c = ' ' || c = '\t'

/-- What names of anchors, directives and tag handles are made of. -/
def isWord (c : Char) : Bool := c.isAlphanum || c = '_' || c = '-'

/-- Whether the first of these characters, if there is one, separates words. -/
def separates : List Char → Bool
  | [] => true
  | c :: _ => isBlank c || isBreak c

/-- The characters a settings file may hold. -/
def isAllowed (c : Char) : Bool :=
  c = '\t' || c = '\n' || c = '\r' || (0x20 ≤ c.toNat && c.toNat ≤ 0x7E) || c.toNat = 0x85 ||
    (0xA0 ≤ c.toNat && c.toNat ≤ 0xFFFD) || 0x10000 ≤ c.toNat

structure Cursor where
  rest : List Char
  index : Nat := 0
  line : Nat := 0
  column : Nat := 0
  /-- How many characters the text has. -/
  size : Nat := rest.length

namespace Cursor

/-- How many characters are ahead. -/
def ahead (cursor : Cursor) : Nat := cursor.size - cursor.index

def peek? (cursor : Cursor) : Option Char := cursor.rest.head?

/-- Whether the next character is this one. -/
def sees (cursor : Cursor) (c : Char) : Bool := cursor.rest.head? == some c

/-- Go past `count` characters of the line. -/
def skip (cursor : Cursor) (count : Nat) : Cursor :=
  { cursor with
    rest := cursor.rest.drop count
    index := cursor.index + count
    column := cursor.column + count }

/-- Go past the characters of a kind, none of which ends a line. -/
def skipWhile (cursor : Cursor) (kind : Char → Bool) : Cursor :=
  cursor.skip (cursor.rest.takeWhile kind).length

/-- Go past a byte order mark at the start of a line. It takes up a column. -/
def skipOrderMark (cursor : Cursor) : Cursor :=
  if cursor.column = 0 ∧ cursor.sees '\uFEFF' then cursor.skip 1 else cursor

/-- Go past a line end. -/
def skipBreak (cursor : Cursor) : Cursor :=
  let count := match cursor.rest with
    | '\r' :: '\n' :: _ => 2
    | [] => 0
    | _ => 1
  { cursor with
    rest := cursor.rest.drop count
    index := cursor.index + count
    line := cursor.line + 1
    column := 0 }

/-- What the line end ahead is kept as. -/
def breakText (cursor : Cursor) : List Char :=
  match cursor.rest with
  | '\u2028' :: _ => ['\u2028']
  | '\u2029' :: _ => ['\u2029']
  | [] => []
  | _ => ['\n']

/-- Go past blanks, a comment and a line end; anything else on the line is a fault. -/
def endLine? (cursor : Cursor) : Option Cursor :=
  let cursor := cursor.skipWhile isBlank
  let cursor := if cursor.sees '#' then cursor.skipWhile (!isBreak ·) else cursor
  match cursor.rest with
  | [] => some cursor
  | c :: _ => if isBreak c then some cursor.skipBreak else none

/-- Whether a line starts here with three times this character and nothing joined to it. -/
def startsMark (cursor : Cursor) (c : Char) : Bool :=
  match cursor.rest with
  | x :: y :: z :: rest => cursor.column = 0 && x = c && y = c && z = c && separates rest
  | _ => false

/-- Whether a line starts here that separates documents. -/
def atDocumentMark (cursor : Cursor) : Bool :=
  cursor.startsMark '-' || cursor.startsMark '.'

end Cursor

end DiffSections.Yaml
