import DiffSections.Yaml.Node
import DiffSections.Yaml.Token.Lexer

/-!
# DiffSections.Yaml.Node.Grammar -- tokens as a tree

A text holds one document, or none at all; a second one is a fault. Where an entry, a key or a value
is left out, the next token tells (`nodeUnless?`). A sequence may stand in a mapping at the column
of its keys; it then has no start token and no end token.

In a sequence between brackets a key without a node before its colon takes the token after it along.
-/

namespace DiffSections.Yaml

set_option autoImplicit false

/-- The tokens that are left, the meanings of tag handles, and the number of each anchor's name. -/
structure Reading where
  tokens : List Token
  handles : List (String × Bytes)
  anchors : List (String × Nat) := []

/-- Where a node stands: outside all brackets, there as a key or value, or between brackets. -/
inductive NodePlace where
  | block
  | blockPart
  | flow
  deriving DecidableEq

namespace Reading

/-- Give out a number for an anchor. -/
def number (reading : Reading) (name : String) : Nat × Reading :=
  let count := reading.anchors.length
  let others := reading.anchors.filter fun entry => entry.1 ≠ name
  (count, { reading with anchors := (name, count) :: others })

/-- What a tag means; its handle has to have a meaning. -/
def tagMeaning? (reading : Reading) (handle : String) (suffix : Bytes) : Option Bytes :=
  if handle = "" then some suffix else (reading.handles.lookup handle).map (· ++ suffix)

/-- Read an anchor and a tag, in either order, if they are there. -/
def marks? (reading : Reading) : Option (NodeMarks × Reading) :=
  let anchored (name : String) (tag : Option Bytes) (tokens : List Token) :
      Option (NodeMarks × Reading) :=
    let (number, reading) := { reading with tokens }.number name
    some ({ anchor := some number, tag }, reading)
  match reading.tokens with
  | .anchor name :: .tag handle suffix :: tokens
  | .tag handle suffix :: .anchor name :: tokens => do
      let tag ← reading.tagMeaning? handle suffix
      anchored name (some tag) tokens
  | .anchor name :: tokens => anchored name none tokens
  | .tag handle suffix :: tokens => do
      let tag ← reading.tagMeaning? handle suffix
      return ({ tag := some tag }, { reading with tokens })
  | _ => some ({}, reading)

mutual

/-- Read a node. -/
def node? : Nat → NodePlace → Reading → Option (Node × Reading)
  | 0, _, _ => none
  | fuel + 1, place, reading =>
      match reading.tokens with
      | .alias name :: tokens =>
          (reading.anchors.lookup name).map fun number =>
            (.alias number, { reading with tokens })
      | _ => do
          let (marks, reading) ← reading.marks?
          let behind (tokens : List Token) : Reading := { reading with tokens }
          match reading.tokens, place with
          | .blockEntry :: _, .blockPart =>
              let (items, reading) ←
                blockItems? fuel [.blockEntry, .key, .value, .blockEnd] reading []
              return (.sequence marks items, reading)
          | .scalar text style :: tokens, _ =>
              return (.scalar marks text style, behind tokens)
          | .flowSequenceStart :: tokens, _ =>
              let (items, reading) ← flowItems? fuel (behind tokens) []
              return (.sequence marks items, reading)
          | .flowMappingStart :: tokens, _ =>
              let (parts, reading) ← flowParts? fuel (behind tokens) []
              return (.mapping marks parts, reading)
          | .blockSequenceStart :: tokens, .block
          | .blockSequenceStart :: tokens, .blockPart =>
              let (items, reading) ← blockItems? fuel [.blockEntry, .blockEnd] (behind tokens) []
              match reading.tokens with
              | .blockEnd :: tokens => return (.sequence marks items, { reading with tokens })
              | _ => none
          | .blockMappingStart :: tokens, .block
          | .blockMappingStart :: tokens, .blockPart =>
              let (parts, reading) ← blockParts? fuel (behind tokens) []
              return (.mapping marks parts, reading)
          | _, _ =>
              if marks.anchor.isSome ∨ marks.tag.isSome then
                return (.scalar marks "" .plain, reading)
              else none

/-- Read a node, unless the next token shows that it is left out. -/
def nodeUnless? : Nat → List Token → NodePlace → Reading → Option (Node × Reading)
  | 0, _, _, _ => none
  | fuel + 1, stops, place, reading =>
      if reading.tokens.head?.any stops.contains then some (.empty, reading)
      else node? fuel place reading

/-- Read a value, if a colon is there. -/
def value? : Nat → List Token → NodePlace → Reading → Option (Node × Reading)
  | 0, _, _, _ => none
  | fuel + 1, stops, place, reading =>
      match reading.tokens with
      | .value :: tokens => nodeUnless? fuel stops place { reading with tokens }
      | _ => some (.empty, reading)

/-- Read the items of a block sequence; those before are given, newest first. -/
def blockItems? : Nat → List Token → Reading → List Node → Option (List Node × Reading)
  | 0, _, _, _ => none
  | fuel + 1, stops, reading, items =>
      match reading.tokens with
      | .blockEntry :: tokens => do
          let (item, reading) ← nodeUnless? fuel stops .block { reading with tokens }
          blockItems? fuel stops reading (item :: items)
      | _ => some (items.reverse, reading)

/-- Read the keys and values of a block mapping. -/
def blockParts? : Nat → Reading → List Node → Option (List Node × Reading)
  | 0, _, _ => none
  | fuel + 1, reading, parts =>
      let stops := [Token.key, .value, .blockEnd]
      match reading.tokens with
      | .key :: tokens => do
          let (key, reading) ← nodeUnless? fuel stops .blockPart { reading with tokens }
          let (value, reading) ← value? fuel stops .blockPart reading
          blockParts? fuel reading (value :: key :: parts)
      | .blockEnd :: tokens => some (parts.reverse, { reading with tokens })
      | _ => none

/-- Read the items of a flow sequence from an item or the closing bracket on. -/
def flowItems? : Nat → Reading → List Node → Option (List Node × Reading)
  | 0, _, _ => none
  | fuel + 1, reading, items =>
      match reading.tokens with
      | .flowSequenceEnd :: tokens => some (items.reverse, { reading with tokens })
      | _ => do
          let (item, reading) ← flowItem? fuel reading
          match reading.tokens with
          | .flowSequenceEnd :: tokens => return ((item :: items).reverse, { reading with tokens })
          | .flowEntry :: tokens => flowItems? fuel { reading with tokens } (item :: items)
          | _ => none

/-- Read an item of a flow sequence, which may be a single key and value. -/
def flowItem? : Nat → Reading → Option (Node × Reading)
  | 0, _ => none
  | fuel + 1, reading =>
      match reading.tokens with
      | .key :: tokens => do
          let stops := [Token.flowEntry, .flowSequenceEnd]
          let (key, reading) ← match tokens with
            | .value :: tokens | .flowEntry :: tokens | .flowSequenceEnd :: tokens =>
                some (.empty, { reading with tokens })
            | _ => node? fuel .flow { reading with tokens }
          let (value, reading) ← value? fuel stops .flow reading
          return (.mapping {} [key, value], reading)
      | _ => node? fuel .flow reading

/-- Read the keys and values of a flow mapping from a key or the closing bracket on. -/
def flowParts? : Nat → Reading → List Node → Option (List Node × Reading)
  | 0, _, _ => none
  | fuel + 1, reading, parts =>
      match reading.tokens with
      | .flowMappingEnd :: tokens => some (parts.reverse, { reading with tokens })
      | _ => do
          let (key, value, reading) ← flowPart? fuel reading
          let parts := value :: key :: parts
          match reading.tokens with
          | .flowMappingEnd :: tokens => return (parts.reverse, { reading with tokens })
          | .flowEntry :: tokens => flowParts? fuel { reading with tokens } parts
          | _ => none

/-- Read a key and a value of a flow mapping; a node that is no key stands for one without value. -/
def flowPart? : Nat → Reading → Option (Node × Node × Reading)
  | 0, _ => none
  | fuel + 1, reading =>
      match reading.tokens with
      | .key :: tokens => do
          let (key, reading) ←
            nodeUnless? fuel [.value, .flowEntry, .flowMappingEnd] .flow { reading with tokens }
          let (value, reading) ← value? fuel [.flowEntry, .flowMappingEnd] .flow reading
          return (key, value, reading)
      | _ => do
          let (key, reading) ← node? fuel .flow reading
          return (key, .empty, reading)

end

end Reading

/-! ## Documents -/

/-- Read the directives before a document: one version, which is 1.1 or 1.2, and a meaning for each
tag handle. -/
def readDirectives? (versionSeen : Bool) (handles : List (String × Bytes)) :
    List Token → Option (List (String × Bytes) × List Token)
  | .versionDirective major minor :: tokens =>
      if versionSeen ∨ major ≠ 1 ∨ (minor ≠ 1 ∧ minor ≠ 2) then none
      else readDirectives? true handles tokens
  | .tagDirective handle head :: tokens =>
      if (handles.lookup handle).isSome then none
      else readDirectives? versionSeen ((handle, head) :: handles) tokens
  | tokens => some (handles, tokens)

/-- The tag handles that have a meaning where no directive gives them one. -/
def commonHandles : List (String × Bytes) :=
  [("!", Bytes.ofAscii "!"), ("!!", Bytes.ofAscii "tag:yaml.org,2002:")]

/-- Whether a document starts with a line of its own. -/
def startsExplicitly : List Token → Bool
  | .versionDirective _ _ :: _ | .tagDirective _ _ :: _ | .documentStart :: _ => true
  | _ => false

/-- Read a document. -/
def readDocument? (tokens : List Token) : Option (Node × List Token) := do
  let node? (handles : List (String × Bytes)) (tokens : List Token) :
      Option (Node × List Token) :=
    (Reading.node? (4 * tokens.length + 4) .block
        { tokens, handles := handles ++ commonHandles }).map fun (node, reading) =>
      (node, reading.tokens)
  if ¬ startsExplicitly tokens then node? [] tokens
  else
    let (handles, tokens) ← readDirectives? false [] tokens
    match tokens with
    | .documentStart :: .streamEnd :: _ => return (.empty, tokens.drop 1)
    | .documentStart :: .documentEnd :: _ => return (.empty, tokens.drop 1)
    | .documentStart :: tokens => node? handles tokens
    | _ => none

/-- The root of the only document; it is empty in a text that holds no document. -/
def Node.ofTokens? (tokens : List Token) : Option Node :=
  if tokens = [.streamEnd] then some .empty
  else do
    let (root, tokens) ← readDocument? tokens
    if tokens.dropWhile (· = .documentEnd) = [.streamEnd] then return root else none

/-- The tree that a text writes; nothing if it is not well-formed. -/
def Node.ofText? (text : String) : Option Node :=
  (Token.ofText? text).bind Node.ofTokens?

end DiffSections.Yaml
