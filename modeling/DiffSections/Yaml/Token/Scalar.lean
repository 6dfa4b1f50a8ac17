import DiffSections.Yaml.Cursor

/-!
# DiffSections.Yaml.Token.Scalar -- the text of scalars

Plain and quoted scalars may go on over several lines: one line end between two words reads as a
space, and of several the first is dropped. Block scalars keep their lines, or fold them in the same
way when they start with `>`. Each reader returns the text and the cursor after it, or nothing at a
fault. Text that is being put together is kept newest character first.
-/

namespace DiffSections.Yaml

set_option autoImplicit false

/-! ## Between two words -/

/-- The blanks, or line ends with blanks around them, between two words. -/
structure Gap where
  /-- The blanks, newest first, while there is no line end. -/
  blanks : List Char := []
  broken : Bool := false
  /-- The first line end; none if a backslash took it away. -/
  first : List Char := []
  /-- The other line ends, newest first. -/
  later : List Char := []

/-- What a gap reads as. -/
def Gap.text (gap : Gap) : List Char :=
  if ¬ gap.broken then gap.blanks.reverse
  else if gap.first ≠ ['\n'] then gap.first ++ gap.later.reverse
  else if gap.later.isEmpty then [' ']
  else gap.later.reverse

/-- Read a gap. Where `indent` is given, a line may not be indented to it by tabs. -/
def readGap (indent : Option Int) : Nat → Cursor → Gap → Option (Gap × Cursor)
  | 0, cursor, gap => some (gap, cursor)
  | fuel + 1, cursor, gap =>
      match cursor.peek? with
      | none => some (gap, cursor)
      | some c =>
          if isBreak c then
            let gap := if gap.broken then { gap with later := cursor.breakText ++ gap.later }
              else { broken := true, first := cursor.breakText }
            readGap indent fuel cursor.skipBreak gap
          else if ¬ isBlank c then some (gap, cursor)
          else if ¬ gap.broken then
            readGap indent fuel (cursor.skip 1) { gap with blanks := c :: gap.blanks }
          else if c = '\t' ∧ indent.any (fun indent => (cursor.column : Int) < indent) then none
          else readGap indent fuel (cursor.skip 1) gap

/-! ## Plain scalars -/

def isFlowIndicator (c : Char) : Bool :=
  c = ',' || c = '[' || c = ']' || c = '\x7b' || c = '\x7d'

/-- Read a word of a plain scalar. Between brackets a colon joined to a bracket is a fault. -/
def plainWord (inFlow : Bool) : Nat → Cursor → List Char → Option (List Char × Cursor)
  | 0, cursor, word => some (word, cursor)
  | fuel + 1, cursor, word =>
      match cursor.rest with
      | [] => some (word, cursor)
      | c :: rest =>
          if isBlank c || isBreak c then some (word, cursor)
          else if inFlow && c = ':' && rest.head?.any (fun d => isFlowIndicator d || d = '?') then
            none
          else if (c = ':' && separates rest) || (inFlow && isFlowIndicator c) then
            some (word, cursor)
          else plainWord inFlow fuel (cursor.skip 1) (c :: word)

/-- Read a plain scalar. The flag tells whether a line end follows it. -/
def plainText (inFlow : Bool) (indent : Int) :
    Nat → Cursor → List Char → Gap → Option (List Char × Bool × Cursor)
  | 0, cursor, text, gap => some (text, gap.broken, cursor)
  | fuel + 1, cursor, text, gap =>
      if cursor.atDocumentMark || cursor.sees '#' then some (text, gap.broken, cursor)
      else
        match plainWord inFlow cursor.ahead cursor [] with
        | none => none
        | some (word, cursor) =>
            let joined := if word.isEmpty then text else word ++ gap.text.reverse ++ text
            let gap := if word.isEmpty then gap else {}
            if ¬ cursor.peek?.any (fun c => isBlank c || isBreak c) then
              some (joined, gap.broken, cursor)
            else
              match readGap (some indent) cursor.ahead cursor gap with
              | none => none
              | some (gap, cursor) =>
                  if ¬ inFlow ∧ cursor.column < indent then some (joined, gap.broken, cursor)
                  else plainText inFlow indent fuel cursor joined gap

/-! ## Quoted scalars -/

def hexValue? (c : Char) : Option Nat :=
  if '0' ≤ c ∧ c ≤ '9' then some (c.toNat - 48)
  else if 'a' ≤ c ∧ c ≤ 'f' then some (c.toNat - 87)
  else if 'A' ≤ c ∧ c ≤ 'F' then some (c.toNat - 55)
  else none

/-- The number that hexadecimal digits write. -/
def hexNumber? (digits : List Char) : Option Nat :=
  digits.foldlM (fun n c => (hexValue? c).map (n * 16 + ·)) 0

/-- The characters that a backslash and one more character stand for. -/
def escapes : List (Char × Char) :=
  [('0', '\x00'), ('a', '\x07'), ('b', '\x08'), ('t', '\t'), ('\t', '\t'), ('n', '\n'),
    ('v', '\x0b'), ('f', '\x0c'), ('r', '\r'), ('e', '\x1b'), (' ', ' '), ('"', '"'), ('/', '/'),
    ('\\', '\\'), ('N', '\u0085'), ('_', '\u00a0'), ('L', '\u2028'), ('P', '\u2029')]

/-- How many hexadecimal digits an escape takes. -/
def escapeLength? (c : Char) : Option Nat :=
  [('x', 2), ('u', 4), ('U', 8)].lookup c

/-- The character that an escape stands for, given what follows its backslash, and how many
characters it takes after the backslash. -/
def escape? : List Char → Option (Char × Nat)
  | [] => none
  | c :: rest =>
      match escapes.lookup c, escapeLength? c with
      | some meaning, _ => some (meaning, 1)
      | none, none => none
      | none, some length =>
          let digits := rest.take length
          match hexNumber? digits with
          | none => none
          | some n =>
              if digits.length = length ∧ n.isValidChar then some (Char.ofNat n, length + 1)
              else none

/-- Read a word of a quoted scalar. The flag tells whether it ends in a backslash and a line end,
past which the cursor then is. -/
def quotedWord (single : Bool) : Nat → Cursor → List Char → Option (List Char × Bool × Cursor)
  | 0, cursor, word => some (word, false, cursor)
  | fuel + 1, cursor, word =>
      match cursor.rest with
      | [] => some (word, false, cursor)
      | c :: rest =>
          if isBlank c || isBreak c then some (word, false, cursor)
          else if single then
            if c ≠ '\'' then quotedWord single fuel (cursor.skip 1) (c :: word)
            else if rest.head? = some '\'' then quotedWord single fuel (cursor.skip 2) (c :: word)
            else some (word, false, cursor)
          else if c = '"' then some (word, false, cursor)
          else if c ≠ '\\' then quotedWord single fuel (cursor.skip 1) (c :: word)
          else if rest.head?.any isBreak then some (word, true, (cursor.skip 1).skipBreak)
          else
            match escape? rest with
            | none => none
            | some (meaning, length) =>
                quotedWord single fuel (cursor.skip (length + 1)) (meaning :: word)

/-- Read a quoted scalar from behind its first quote to behind its last. -/
def quotedText (single : Bool) : Nat → Cursor → List Char → Option (List Char × Cursor)
  | 0, _, _ => none
  | fuel + 1, cursor, text =>
      if cursor.atDocumentMark || cursor.rest.isEmpty then none
      else
        match quotedWord single cursor.ahead cursor [] with
        | none => none
        | some (word, escaped, cursor) =>
            let text := word ++ text
            if cursor.sees (if single then '\'' else '"') then some (text, cursor.skip 1)
            else
              match readGap none cursor.ahead cursor { broken := escaped } with
              | none => none
              | some (gap, cursor) =>
                  quotedText single fuel cursor (gap.text.reverse ++ text)

/-! ## Block scalars -/

/-- Read the empty lines and the indentation before a line of a block scalar. An indentation of zero
is not known yet, and found here; it is deeper than `parent`, the indentation of the block around.
Returns the indentation and the line ends, newest first. -/
def blockBreaks (parent : Int) (indent : Nat) :
    Nat → Nat → Cursor → List Char → Option (Nat × List Char × Cursor)
  | 0, _, _, _ => none
  | fuel + 1, deepest, cursor, breaks =>
      let indenting := indent = 0 || cursor.column < indent
      if indenting && cursor.sees ' ' then
        blockBreaks parent indent fuel deepest (cursor.skip 1) breaks
      else if indenting && cursor.sees '\t' then none
      else
        let deepest := max deepest cursor.column
        if cursor.peek?.any isBreak then
          blockBreaks parent indent fuel deepest cursor.skipBreak (cursor.breakText ++ breaks)
        else
          let found := max deepest (max (parent + 1).toNat 1)
          some (if indent = 0 then found else indent, breaks, cursor)

/-- The lines of a block scalar read so far. -/
structure BlockText where
  text : List Char := []
  /-- The end of the last line. -/
  lineEnd : List Char := []
  /-- The line ends after it, newest first. -/
  emptyLines : List Char := []
  /-- Whether the last line starts with a blank; such lines are not folded. -/
  startsBlank : Bool := false

/-- What stands between the last line and the next one, which starts with a blank or not. -/
def BlockText.joint (block : BlockText) (folded nextBlank : Bool) : List Char :=
  let kept := block.emptyLines.reverse
  if folded ∧ block.lineEnd = ['\n'] ∧ ¬ block.startsBlank ∧ ¬ nextBlank then
    if kept.isEmpty then [' '] else kept
  else block.lineEnd ++ kept

/-- Read the lines of a block scalar. -/
def blockLines (folded : Bool) (parent : Int) (indent : Nat) :
    Nat → Cursor → BlockText → Option (BlockText × Cursor)
  | 0, cursor, block => some (block, cursor)
  | fuel + 1, cursor, block =>
      match cursor.rest with
      | [] => some (block, cursor)
      | c :: _ =>
          if cursor.column ≠ indent then some (block, cursor)
          else
            let line := cursor.rest.takeWhile (!isBreak ·)
            let joint := block.joint folded (isBlank c)
            let behind := cursor.skip line.length
            match blockBreaks parent indent (behind.ahead + 1) 0
                (if behind.rest.isEmpty then behind else behind.skipBreak) [] with
            | none => none
            | some (_, breaks, next) =>
                blockLines folded parent indent fuel next
                  { text := line.reverse ++ joint.reverse ++ block.text
                    lineEnd := behind.breakText
                    emptyLines := breaks
                    startsBlank := isBlank c }

/-- What becomes of the line ends at the end of a block scalar. -/
inductive Chomping where
  | strip
  | clip
  | keep

def Chomping.ofChar? (c : Char) : Option Chomping :=
  if c = '+' then some .keep else if c = '-' then some .strip else none

def BlockText.chomped (block : BlockText) : Chomping → List Char
  | .strip => block.text
  | .clip => block.lineEnd.reverse ++ block.text
  | .keep => block.emptyLines ++ block.lineEnd.reverse ++ block.text

/-- The digit of an indentation indicator, which is not zero. -/
def indentDigit? (c : Char) : Option Nat :=
  if '1' ≤ c ∧ c ≤ '9' then some (c.toNat - 48) else none

/-- Read the indicators after `|` or `>`: a chomping sign, an indentation, in either order. -/
def blockHints? (cursor : Cursor) : Option (Chomping × Nat × Cursor) :=
  let sign := cursor.peek?.bind Chomping.ofChar?
  let cursor := if sign.isSome then cursor.skip 1 else cursor
  if cursor.sees '0' then none
  else
    let digit := cursor.peek?.bind indentDigit?
    let cursor := if digit.isSome then cursor.skip 1 else cursor
    let late := if sign.isNone ∧ digit.isSome then cursor.peek?.bind Chomping.ofChar? else none
    let cursor := if late.isSome then cursor.skip 1 else cursor
    some ((sign <|> late).getD .clip, digit.getD 0, cursor)

/-- Read a block scalar from behind its `|` or `>`. -/
def blockText? (folded : Bool) (parent : Int) (cursor : Cursor) : Option (List Char × Cursor) := do
  let (chomping, step, cursor) ← blockHints? cursor
  let cursor ← cursor.endLine?
  let indent := if step = 0 then 0 else (max parent 0).toNat + step
  let (indent, breaks, cursor) ← blockBreaks parent indent (cursor.ahead + 1) 0 cursor []
  let (block, cursor) ← blockLines folded parent indent cursor.ahead cursor
    { emptyLines := breaks }
  return (block.chomped chomping, cursor)

end DiffSections.Yaml
