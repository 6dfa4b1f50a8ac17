/-!
# DiffSections.Json -- JSON values and their indented text

Reports are written as JSON with one item or field a line and two spaces for each level; an empty
array or object stays on one line. In a string only the quote, the backslash and the characters
below U+0020 are escaped.
-/

namespace DiffSections

set_option autoImplicit false

inductive JsonValue where
  | null
  | bool (value : Bool)
  | number (value : Nat)
  | string (value : String)
  | array (items : List JsonValue)
  | object (fields : List (String × JsonValue))

namespace JsonValue

def hexDigit (n : Nat) : Char :=
  if n < 10 then Char.ofNat (48 + n) else Char.ofNat (87 + n)

def escape (c : Char) : List Char :=
  if c = '"' then ['\\', '"']
  else if c = '\\' then ['\\', '\\']
  else if c = '\n' then ['\\', 'n']
  else if c = '\r' then ['\\', 'r']
  else if c = '\t' then ['\\', 't']
  else if c.toNat = 8 then ['\\', 'b']
  else if c.toNat = 12 then ['\\', 'f']
  else if c.toNat < 32 then
    ['\\', 'u', '0', '0', hexDigit (c.toNat / 16), hexDigit (c.toNat % 16)]
  else [c]

/-- A text as a JSON string. -/
def quote (text : String) : String :=
  "\"" ++ String.ofList (text.toList.flatMap escape) ++ "\""

/-- A line end and the indentation of a level. -/
def newline (level : Nat) : String :=
  "\n" ++ String.ofList (List.replicate (2 * level) ' ')

mutual

/-- The text of a value that stands at an indentation level. -/
def render (level : Nat) : JsonValue → String
  | .null => "null"
  | .bool true => "true"
  | .bool false => "false"
  | .number value => toString value
  | .string value => quote value
  | .array [] => "[]"
  | .array (item :: items) =>
      "[" ++ newline (level + 1) ++ render (level + 1) item ++ renderItems (level + 1) items ++
        newline level ++ "]"
  | .object [] => "\x7b\x7d"
  | .object ((name, value) :: fields) =>
      "\x7b" ++ newline (level + 1) ++ quote name ++ ": " ++ render (level + 1) value ++
        renderFields (level + 1) fields ++ newline level ++ "\x7d"

def renderItems (level : Nat) : List JsonValue → String
  | [] => ""
  | item :: items => "," ++ newline level ++ render level item ++ renderItems level items

def renderFields (level : Nat) : List (String × JsonValue) → String
  | [] => ""
  | (name, value) :: fields =>
      "," ++ newline level ++ quote name ++ ": " ++ render level value ++ renderFields level fields

end

/-- The text of a whole document. -/
def pretty (value : JsonValue) : String := render 0 value

end JsonValue

end DiffSections
