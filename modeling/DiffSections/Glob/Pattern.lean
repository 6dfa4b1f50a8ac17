/-!
# DiffSections.Glob.Pattern -- glob patterns as tokens

`?` is any octet and `*` any run of octets, slashes included. `**` as a whole path component stands
for any number of directories. `[...]` is a class of characters, `{a,b}` a choice between
patterns, which may nest, and a backslash takes away the meaning of the character after it.

Reading goes in two passes: characters to lexemes, which knows classes and escapes, and lexemes to
tokens, which knows `**` and choices. A pattern with two faults is refused for the one further left,
so the first pass hands over what it read before its fault.
-/

namespace DiffSections

set_option autoImplicit false

/-- Why a pattern is refused. -/
inductive GlobFault where
  | unclosedClass
  | invalidRange (first last : Char)
  | unopenedChoice
  | unclosedChoice
  | danglingEscape
  deriving DecidableEq, Repr

def GlobFault.message : GlobFault → String
  | .unclosedClass => "unclosed character class; missing ']'"
  | .invalidRange first last =>
      "invalid range; '" ++ first.toString ++ "' > '" ++ last.toString ++ "'"
  | .unopenedChoice =>
      "unopened alternate group; missing '\x7b' (maybe escape '\x7d' with '[\x7d]'?)"
  | .unclosedChoice =>
      "unclosed alternate group; missing '\x7d' (maybe escape '\x7b' with '[\x7b]'?)"
  | .danglingEscape => "dangling '\\'"

/-- A character class: ranges of characters, or what is outside them. -/
structure CharClass where
  negated : Bool
  ranges : List (Char × Char)
  deriving DecidableEq, Repr

inductive GlobToken where
  | literal (c : Char)
  /-- `?` -/
  | any
  /-- `*` -/
  | anyRun
  /-- `**/` at the start: nothing, or any directories and a slash. -/
  | leadingDirs
  /-- `/**` at the end: a slash and anything. -/
  | trailingDirs
  /-- `/**/` between components: a slash, or any directories between two. -/
  | innerDirs
  | charClass (set : CharClass)
  | choice (branches : List (List GlobToken))

namespace Glob

/-! ## Lexemes -/

inductive Lexeme where
  /-- A character that may have a meaning. -/
  | plain (c : Char)
  /-- A character behind a backslash. -/
  | escaped (c : Char)
  | charClass (set : CharClass)
  deriving DecidableEq

/-- Where the first pass stands. -/
inductive LexState where
  | outside
  /-- After a backslash. -/
  | escape
  /-- After `[`, where a `!` or `^` negates. -/
  | classStart
  /-- In a class, its ranges newest first: `fresh` until its first character, `dashed` after a dash
  that may extend the newest range. -/
  | inClass (negated : Bool) (ranges : List (Char × Char)) (fresh dashed : Bool)

/-- One character inside a class: the class closes, or its ranges grow. -/
def classStep (negated : Bool) (ranges : List (Char × Char)) (fresh dashed : Bool) (c : Char) :
    Except GlobFault (Sum CharClass LexState) :=
  if c = ']' ∧ ¬ fresh then
    let ranges := if dashed then ('-', '-') :: ranges else ranges
    .ok (.inl ⟨negated, ranges.reverse⟩)
  else if c = '-' ∧ ¬ fresh ∧ ¬ dashed then .ok (.inr (.inClass negated ranges false true))
  else
    match dashed, ranges with
    | true, (first, _) :: older =>
        if c < first then .error (.invalidRange first c)
        else .ok (.inr (.inClass negated ((first, c) :: older) false false))
    | _, _ => .ok (.inr (.inClass negated ((c, c) :: ranges) false false))

/-- Put a lexeme in front of what a later part of the pattern gave. -/
def consLexeme (lexeme : Lexeme) (later : List Lexeme × Option GlobFault) :
    List Lexeme × Option GlobFault :=
  (lexeme :: later.1, later.2)

/-- The lexemes of a pattern, up to a fault if there is one. -/
def lexemes : LexState → List Char → List Lexeme × Option GlobFault
  | .outside, [] => ([], none)
  | .escape, [] => ([], some .danglingEscape)
  | .classStart, [] => ([], some .unclosedClass)
  | .inClass _ _ _ _, [] => ([], some .unclosedClass)
  | .outside, c :: rest =>
      if c = '[' then lexemes .classStart rest
      else if c = '\\' then lexemes .escape rest
      else consLexeme (.plain c) (lexemes .outside rest)
  | .escape, c :: rest => consLexeme (.escaped c) (lexemes .outside rest)
  | .classStart, c :: rest =>
      if c = '!' ∨ c = '^' then lexemes (.inClass true [] true false) rest
      else
        match classStep false [] true false c with
        | .error fault => ([], some fault)
        | .ok (.inl set) => consLexeme (.charClass set) (lexemes .outside rest)
        | .ok (.inr state) => lexemes state rest
  | .inClass negated ranges fresh dashed, c :: rest =>
      match classStep negated ranges fresh dashed c with
      | .error fault => ([], some fault)
      | .ok (.inl set) => consLexeme (.charClass set) (lexemes .outside rest)
      | .ok (.inr state) => lexemes state rest

/-! ## Tokens -/

/-- A choice that is not closed yet: the tokens before it (newest first) and its finished
branches. -/
structure OpenChoice where
  before : List GlobToken
  branches : List (List GlobToken)

/-- The branch being read (newest token first) and the choices around it, innermost first. -/
structure Draft where
  branch : List GlobToken := []
  choices : List OpenChoice := []

namespace Draft

def push (draft : Draft) (token : GlobToken) : Draft :=
  { draft with branch := token :: draft.branch }

def openChoice (draft : Draft) : Draft :=
  { branch := [], choices := ⟨draft.branch, []⟩ :: draft.choices }

/-- A comma separates branches inside a choice, and is itself elsewhere. -/
def comma (draft : Draft) : Draft :=
  match draft.choices with
  | [] => draft.push (.literal ',')
  | choice :: outer =>
      { branch := []
        choices := { choice with branches := draft.branch.reverse :: choice.branches } :: outer }

def closeChoice (draft : Draft) : Except GlobFault Draft :=
  match draft.choices with
  | [] => .error .unopenedChoice
  | choice :: outer =>
      let branches := draft.branch.reverse :: choice.branches
      .ok { branch := .choice branches :: choice.before, choices := outer }

/-- `**` that is not a whole component is two runs. -/
def pushTwoRuns (draft : Draft) : Draft :=
  (draft.push .anyRun).push .anyRun

/-- `**` as a whole component, in place of the slash before it. After another such component it
adds nothing. -/
def pushDirs (draft : Draft) (token : GlobToken) : Draft :=
  match draft.branch with
  | .leadingDirs :: _ | .trailingDirs :: _ => draft
  | _ :: older => { draft with branch := token :: older }
  | [] => draft

/-- Whether a component can start after this character. -/
def startsComponent (draft : Draft) (previous : Option Char) : Bool :=
  previous = some '/' ||
    (!draft.choices.isEmpty && (previous = some ',' || previous = some '\x7b'))

end Draft

/-- The character a lexeme ends with. -/
def Lexeme.last : Lexeme → Char
  | .plain c => c
  | .escaped c => c
  | .charClass _ => ']'

/-- Read lexemes, given the character before them. -/
def tokens (draft : Draft) (previous : Option Char) : List Lexeme → Except GlobFault Draft
  | [] => .ok draft
  | .plain '*' :: .plain '*' :: rest =>
      match draft.branch, rest with
      | [], [] => tokens (draft.push .leadingDirs) (some '*') []
      | [], .plain '/' :: rest => tokens (draft.push .leadingDirs) (some '/') rest
      | [], rest => tokens draft.pushTwoRuns (some '*') rest
      | _ :: _, rest =>
          if draft.startsComponent previous then
            match rest with
            | [] => tokens (draft.pushDirs .trailingDirs) (some '*') []
            | .plain '/' :: rest => tokens (draft.pushDirs .innerDirs) (some '/') rest
            | .plain c :: rest =>
                if (c = ',' ∨ c = '\x7d') ∧ ¬ draft.choices.isEmpty then
                  tokens (draft.pushDirs .trailingDirs) (some '*') (.plain c :: rest)
                else tokens draft.pushTwoRuns (some '*') (.plain c :: rest)
            | rest => tokens draft.pushTwoRuns (some '*') rest
          else tokens draft.pushTwoRuns (some '*') rest
  | .plain '*' :: rest => tokens (draft.push .anyRun) (some '*') rest
  | .plain '?' :: rest => tokens (draft.push .any) (some '?') rest
  | .plain '\x7b' :: rest => tokens draft.openChoice (some '\x7b') rest
  | .plain '\x7d' :: rest =>
      match draft.closeChoice with
      | .error fault => .error fault
      | .ok draft => tokens draft (some '\x7d') rest
  | .plain ',' :: rest => tokens draft.comma (some ',') rest
  | .plain c :: rest => tokens (draft.push (.literal c)) (some c) rest
  | .escaped c :: rest => tokens (draft.push (.literal c)) (some c) rest
  | .charClass set :: rest => tokens (draft.push (.charClass set)) (some ']') rest

/-- The tokens of a pattern. -/
def parse (pattern : String) : Except GlobFault (List GlobToken) :=
  let (lexemes, fault) := lexemes .outside pattern.toList
  match tokens {} none lexemes, fault with
  | .error fault, _ => .error fault
  | .ok _, some fault => .error fault
  | .ok draft, none =>
      if draft.choices.isEmpty then .ok draft.branch.reverse else .error .unclosedChoice

end Glob

end DiffSections
