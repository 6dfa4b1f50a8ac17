import DiffSections.Yaml.Token.Tag

/-!
# DiffSections.Yaml.Token.Lexer -- a settings file as tokens

A colon shows only behind a key that there was one. So where a key may start the lexer notes the
place (`PendingKey`), one for each pair of brackets around and one outside; when the colon comes,
`key` is put in at that place, in a block with the start of a mapping before it. A key has to be
followed by its colon on its line and within 1024 characters.

Block collections are open by their column, innermost first; a token to the left of it closes one.
-/

namespace DiffSections.Yaml

set_option autoImplicit false

/-- A place where a key may have started. -/
structure PendingKey where
  /-- Nothing but a key may stand there. -/
  required : Bool
  /-- How many tokens come before it. -/
  number : Nat
  /-- Where it starts. -/
  start : Cursor

/-- How many characters a key and its colon may span. -/
def keyReach : Nat := 1024

/-- Whether the key may still be followed by its colon. -/
def PendingKey.isLive (key : PendingKey) (cursor : Cursor) : Bool :=
  cursor.line ≤ key.start.line && cursor.index ≤ key.start.index + keyReach

structure Lexer where
  cursor : Cursor
  tokens : Array Token := #[]
  /-- The columns of the open block collections, innermost first. -/
  blocks : List Nat := []
  /-- The pending key of this level. -/
  key : Option PendingKey := none
  /-- The pending keys of the levels around, innermost first; there is one for each open bracket. -/
  outerKeys : List (Option PendingKey) := []
  /-- Whether a key may start at the next token. -/
  keyAllowed : Bool := true

namespace Lexer

def inFlow (lexer : Lexer) : Bool := !lexer.outerKeys.isEmpty

/-- The column of the innermost block collection; there is none to the left of all text. -/
def indent (lexer : Lexer) : Int :=
  match lexer.blocks with
  | [] => -1
  | column :: _ => column

def push (lexer : Lexer) (token : Token) : Lexer :=
  { lexer with tokens := lexer.tokens.push token }

/-- Take the next `count` characters as a token. -/
def take (lexer : Lexer) (count : Nat) (token : Token) : Lexer :=
  { lexer with cursor := lexer.cursor.skip count, tokens := lexer.tokens.push token }

/-! ## Block collections -/

/-- Close the block collections to the right of a column. Brackets hide the indentation. -/
def closeBlocks (lexer : Lexer) (column : Int) : Lexer :=
  if lexer.inFlow then lexer
  else
    let closed := lexer.blocks.takeWhile fun (block : Nat) => column < (block : Int)
    { lexer with
      tokens := lexer.tokens ++ closed.map fun _ => Token.blockEnd
      blocks := lexer.blocks.drop closed.length }

/-- Open a block collection at a column, before the token of a number, unless one is open there. -/
def openBlock (lexer : Lexer) (column number : Nat) (token : Token) : Lexer :=
  if lexer.inFlow || column ≤ lexer.indent then lexer
  else
    { lexer with
      tokens := lexer.tokens.insertIdxIfInBounds number token
      blocks := column :: lexer.blocks }

/-- Open a block collection before the next token. An entry, a key or a value in a block has to be
where a key may start. -/
def openBlockHere? (lexer : Lexer) (token : Token) : Option Lexer :=
  if lexer.inFlow then some lexer
  else if ¬ lexer.keyAllowed then none
  else some (lexer.openBlock lexer.cursor.column lexer.tokens.size token)

/-! ## Pending keys -/

/-- Give up the pending key of this level. -/
def dropKey? (lexer : Lexer) : Option Lexer :=
  if lexer.key.any PendingKey.required then none else some { lexer with key := none }

/-- Give up the pending keys that are out of reach. -/
def dropStaleKeys? (lexer : Lexer) : Option Lexer :=
  let stale (key : PendingKey) : Bool := !key.isLive lexer.cursor
  if (lexer.key :: lexer.outerKeys).any (·.any fun key => key.required && stale key) then none
  else
    some { lexer with
      key := lexer.key.filter (!stale ·)
      outerKeys := lexer.outerKeys.map (·.filter (!stale ·)) }

/-- Note that a key may start here. -/
def noteKey? (lexer : Lexer) : Option Lexer :=
  if ¬ lexer.keyAllowed then some lexer
  else
    lexer.dropKey?.map fun lexer =>
      { lexer with
        key := some
          { required := !lexer.inFlow && lexer.indent = lexer.cursor.column
            number := lexer.tokens.size
            start := lexer.cursor } }

/-! ## Tokens -/

/-- Go past blanks, comments, line ends and byte order marks that start a line. A tab is a blank
only where no key may start. -/
def skipSpace : Nat → Lexer → Lexer
  | 0, lexer => lexer
  | fuel + 1, lexer =>
      let tabs := lexer.inFlow || !lexer.keyAllowed
      let cursor := lexer.cursor.skipOrderMark.skipWhile fun c => c = ' ' || (tabs && c = '\t')
      let cursor := if cursor.sees '#' then cursor.skipWhile (!isBreak ·) else cursor
      if cursor.peek?.any isBreak then
        skipSpace fuel
          { lexer with
            cursor := cursor.skipBreak
            keyAllowed := lexer.keyAllowed || !lexer.inFlow }
      else { lexer with cursor }

/-- A directive or a document mark closes all blocks; no key may start on its line. -/
def closeDocument? (lexer : Lexer) : Option Lexer :=
  (lexer.closeBlocks (-1)).dropKey?.map fun lexer => { lexer with keyAllowed := false }

def takeStreamEnd? (lexer : Lexer) : Option Lexer :=
  lexer.closeDocument?.map (·.push .streamEnd)

def takeDirective? (lexer : Lexer) : Option Lexer := do
  let lexer ← lexer.closeDocument?
  let (token, cursor) ← readDirective? lexer.cursor
  return { lexer with cursor }.push token

def takeDocumentMark? (lexer : Lexer) (token : Token) : Option Lexer :=
  lexer.closeDocument?.map (·.take 3 token)

def takeFlowStart? (lexer : Lexer) (token : Token) : Option Lexer :=
  lexer.noteKey?.map fun lexer =>
    { lexer with
      key := none
      outerKeys := lexer.key :: lexer.outerKeys
      keyAllowed := true }.take 1 token

def takeFlowEnd? (lexer : Lexer) (token : Token) : Option Lexer :=
  lexer.dropKey?.map fun lexer =>
    let (key, outerKeys) := match lexer.outerKeys with
      | [] => (lexer.key, [])
      | key :: outerKeys => (key, outerKeys)
    { lexer with key, outerKeys, keyAllowed := false }.take 1 token

def takeFlowEntry? (lexer : Lexer) : Option Lexer :=
  lexer.dropKey?.map fun lexer => { lexer with keyAllowed := true }.take 1 .flowEntry

def takeBlockEntry? (lexer : Lexer) : Option Lexer := do
  let lexer ← lexer.openBlockHere? .blockSequenceStart
  let lexer ← lexer.dropKey?
  return { lexer with keyAllowed := true }.take 1 .blockEntry

def takeKey? (lexer : Lexer) : Option Lexer := do
  let lexer ← lexer.openBlockHere? .blockMappingStart
  let lexer ← lexer.dropKey?
  return { lexer with keyAllowed := !lexer.inFlow }.take 1 .key

def takeValue? (lexer : Lexer) : Option Lexer :=
  match lexer.key with
  | some key =>
      let tokens := lexer.tokens.insertIdxIfInBounds key.number .key
      let lexer := { lexer with tokens }.openBlock key.start.column key.number .blockMappingStart
      some ({ lexer with key := none, keyAllowed := false }.take 1 .value)
  | none =>
      (lexer.openBlockHere? .blockMappingStart).map fun lexer =>
        { lexer with keyAllowed := !lexer.inFlow }.take 1 .value

/-- Take an anchor, an alias, a tag or a quoted scalar: a key may start with it. -/
def takeKeyed? (lexer : Lexer) (read : Cursor → Option (Token × Cursor)) : Option Lexer := do
  let lexer ← lexer.noteKey?
  let (token, cursor) ← read lexer.cursor
  return { lexer with cursor, keyAllowed := false }.push token

/-- The text that is kept newest character first. -/
def textOf (chars : List Char) : String := String.ofList chars.reverse

def takeBlockScalar? (lexer : Lexer) (folded : Bool) : Option Lexer := do
  let lexer ← lexer.dropKey?
  let (text, cursor) ← blockText? folded lexer.indent (lexer.cursor.skip 1)
  let token := Token.scalar (textOf text) (if folded then .folded else .literal)
  return { lexer with cursor, keyAllowed := true }.push token

def readQuoted? (single : Bool) (cursor : Cursor) : Option (Token × Cursor) :=
  (quotedText single (cursor.ahead + 1) (cursor.skip 1) []).map fun (text, after) =>
    (.scalar (textOf text) (if single then .singleQuoted else .doubleQuoted), after)

def takePlain? (lexer : Lexer) : Option Lexer := do
  let lexer ← lexer.noteKey?
  let (text, broken, cursor) ←
    plainText lexer.inFlow (lexer.indent + 1) (lexer.cursor.ahead + 1) lexer.cursor [] {}
  return { lexer with cursor, keyAllowed := broken }.push (.scalar (textOf text) .plain)

/-- The characters that a plain scalar does not start with. -/
def indicators : List Char := "\t-?:,[]\x7b\x7d#&*!|>'\"%@\x60".toList

/-- Whether a plain scalar starts with this character. -/
def startsPlain (lexer : Lexer) (c : Char) (rest : List Char) : Bool :=
  !indicators.contains c || (c = '-' && !rest.head?.any isBlank) ||
    (!lexer.inFlow && (c = '?' || c = ':') && !separates rest)

/-- Take a token that starts with a given character. -/
def takeToken? (lexer : Lexer) (c : Char) (rest : List Char) : Option Lexer :=
  let cursor := lexer.cursor
  if cursor.column = 0 ∧ c = '%' then lexer.takeDirective?
  else if cursor.startsMark '-' then lexer.takeDocumentMark? .documentStart
  else if cursor.startsMark '.' then lexer.takeDocumentMark? .documentEnd
  else if c = '[' then lexer.takeFlowStart? .flowSequenceStart
  else if c = '\x7b' then lexer.takeFlowStart? .flowMappingStart
  else if c = ']' then lexer.takeFlowEnd? .flowSequenceEnd
  else if c = '\x7d' then lexer.takeFlowEnd? .flowMappingEnd
  else if c = ',' then lexer.takeFlowEntry?
  else if c = '-' ∧ separates rest then lexer.takeBlockEntry?
  else if c = '?' ∧ (lexer.inFlow ∨ separates rest) then lexer.takeKey?
  else if c = ':' ∧ (lexer.inFlow ∨ separates rest) then lexer.takeValue?
  else if c = '*' then
    lexer.takeKeyed? fun cursor =>
      (readAnchor? cursor).map fun (name, after) => (.alias name, after)
  else if c = '&' then
    lexer.takeKeyed? fun cursor =>
      (readAnchor? cursor).map fun (name, after) => (.anchor name, after)
  else if c = '!' then lexer.takeKeyed? (readTag? lexer.inFlow)
  else if c = '|' ∧ ¬ lexer.inFlow then lexer.takeBlockScalar? false
  else if c = '>' ∧ ¬ lexer.inFlow then lexer.takeBlockScalar? true
  else if c = '\'' then lexer.takeKeyed? (readQuoted? true)
  else if c = '"' then lexer.takeKeyed? (readQuoted? false)
  else if lexer.startsPlain c rest then lexer.takePlain?
  else none

/-- Take tokens to the end of the text. The end counts as a new line. -/
def takeAll? : Nat → Lexer → Option (Array Token)
  | 0, _ => none
  | fuel + 1, lexer =>
      let lexer := lexer.skipSpace (lexer.cursor.ahead + 1)
      match lexer.dropStaleKeys? with
      | none => none
      | some lexer =>
          let lexer := lexer.closeBlocks lexer.cursor.column
          match lexer.cursor.rest with
          | [] => lexer.takeStreamEnd?.map (·.tokens)
          | c :: rest =>
              match lexer.takeToken? c rest with
              | none => none
              | some lexer => takeAll? fuel lexer

end Lexer

/-- The tokens of a text, up to `streamEnd`; nothing at a fault. -/
def Token.ofText? (text : String) : Option (List Token) :=
  if text.toList.all isAllowed then
    let lexer : Lexer := { cursor := { rest := text.toList } }
    (lexer.takeAll? (text.length + 1)).map Array.toList
  else none

end DiffSections.Yaml
