import DiffSections.Yaml.Schema
import DiffSections.Yaml.Token

/-!
# DiffSections.Yaml.Layout -- how a text is written as a scalar

A text is written plain if it can be and then reads as that text; in single quotes if that is
enough; over several lines if it has line ends; and in double quotes with escapes otherwise. The
lines after the first are indented by two.
-/

namespace DiffSections.Yaml

set_option autoImplicit false

/-- Characters that may stand in a scalar as they are: no tab, no other control character, no byte
order mark and neither of the last two code points below U+10000. -/
def isPrintable (c : Char) : Bool :=
  c = '\n' || (0x20 ≤ c.toNat && c.toNat ≤ 0x7E) ||
    (0xA0 ≤ c.toNat && c.toNat ≤ 0xFFFD && c.toNat ≠ 0xFEFF) || 0x10000 ≤ c.toNat

/-- Whether the first character gives a plain scalar another meaning. -/
def startsSpecially : List Char → Bool
  | [] => false
  | c :: rest =>
      "#,[]\x7b\x7d&*!|>'\"%@\x60".toList.contains c || ("?:-".toList.contains c && separates rest)

/-- Whether a colon that a blank follows, or a hash sign after a blank, stands behind the first
character. -/
def hasIndicator : List Char → Bool
  | [] => false
  | b :: rest =>
      (match rest with
        | [] => false
        | c :: next =>
            (c = ':' && separates next) || (c = '#' && (isBlank b || isBreak b))) ||
        hasIndicator rest

/-- Whether a character of one kind stands right before one of another kind. -/
def hasPair (first second : Char → Bool) : List Char → Bool
  | b :: c :: rest => (first b && second c) || hasPair first second (c :: rest)
  | _ => false

def isSpace (c : Char) : Bool := c = ' '

/-- Whether a text may be written without quotes. -/
def allowsPlain (chars : List Char) : Bool :=
  let edge := fun c => isSpace c || isBreak c
  !(chars.head?.any edge || chars.getLast?.any edge || chars.any isBreak ||
    !chars.all isPrintable || chars.take 3 = ['-', '-', '-'] || chars.take 3 = ['.', '.', '.'] ||
    startsSpecially chars || hasIndicator chars)

/-- Whether a text may be written in single quotes. -/
def allowsSingle (chars : List Char) : Bool :=
  chars.all isPrintable && !hasPair isSpace isBreak chars && !hasPair isBreak isSpace chars

/-- Whether a text may be written over several lines. -/
def allowsLiteral (chars : List Char) : Bool :=
  chars.all isPrintable && !hasPair isSpace isBreak chars && !chars.getLast?.any isSpace

/-- The style a text is written in. -/
def styleOf (text : String) : ScalarStyle :=
  let chars := text.toList
  let quoted := if allowsSingle chars then .singleQuoted else .doubleQuoted
  if chars.contains '\n' then if allowsLiteral chars then .literal else .doubleQuoted
  else if isAmbiguous text then quoted
  else if allowsPlain chars then .plain
  else quoted

/-! ## Writing -/

/-- The indentation of the lines after the first. -/
def margin : List Char := [' ', ' ']

/-- Write lines, each with its margin; whether this is the start of a line is given. -/
def writeLines (starts : Bool) (write : Char → List Char) : List Char → List Char
  | [] => []
  | c :: rest =>
      if isBreak c then c :: writeLines true write rest
      else (if starts then margin else []) ++ write c ++ writeLines false write rest

/-- Write a text in single quotes, where a quote is written twice. -/
def writeSingle (chars : List Char) : List Char :=
  '\'' :: writeLines false (fun c => if c = '\'' then ['\'', '\''] else [c]) chars ++
    (if chars.getLast?.any isBreak then margin else []) ++ ['\'']

def upperHexDigit (n : Nat) : Char :=
  if n < 10 then Char.ofNat (48 + n) else Char.ofNat (55 + n)

/-- The last digits of a number in base 16. -/
def hexDigits : Nat → Nat → List Char
  | 0, _ => []
  | count + 1, n => hexDigits count (n / 16) ++ [upperHexDigit (n % 16)]

/-- The characters that are written as a backslash and one more character. -/
def shortEscapes : List (Char × Char) :=
  [('\x00', '0'), ('\x07', 'a'), ('\x08', 'b'), ('\t', 't'), ('\n', 'n'), ('\x0b', 'v'),
    ('\x0c', 'f'), ('\r', 'r'), ('\x1b', 'e'), ('"', '"'), ('\\', '\\'), ('\u0085', 'N'),
    ('\u00a0', '_'), ('\u2028', 'L'), ('\u2029', 'P')]

/-- Write a character between double quotes. -/
def writeEscaped (c : Char) : List Char :=
  if isPrintable c && !isBreak c && c ≠ '"' && c ≠ '\\' then [c]
  else
    match shortEscapes.lookup c with
    | some short => ['\\', short]
    | none =>
        if c.toNat ≤ 0xFF then '\\' :: 'x' :: hexDigits 2 c.toNat
        else if c.toNat ≤ 0xFFFF then '\\' :: 'u' :: hexDigits 4 c.toNat
        else '\\' :: 'U' :: hexDigits 8 c.toNat

/-- What is said about the indentation and the last line ends of a block scalar. -/
def literalHints (chars : List Char) : List Char :=
  let step := if chars.head?.any (fun c => isSpace c || isBreak c) then ['2'] else []
  let chomping := match chars.reverse with
    | [] => ['-']
    | last :: rest =>
        if ¬ isBreak last then ['-']
        else if rest.isEmpty || rest.head?.any isBreak then ['+']
        else []
  step ++ chomping

/-- A text as a scalar that ends its line. -/
def writeScalar (text : String) : String :=
  let chars := text.toList
  String.ofList <|
    match styleOf text with
    | .plain => chars ++ ['\n']
    | .singleQuoted => writeSingle chars ++ ['\n']
    | .doubleQuoted => '"' :: chars.flatMap writeEscaped ++ ['"', '\n']
    | .literal | .folded =>
        '|' :: literalHints chars ++ '\n' :: writeLines true (fun c => [c]) chars ++
          if chars.getLast?.any isBreak then [] else ['\n']

end DiffSections.Yaml
