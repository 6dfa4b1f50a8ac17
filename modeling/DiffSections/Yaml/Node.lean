import DiffSections.Yaml.Token

/-!
# DiffSections.Yaml.Node -- the tree that a settings file writes

An anchor is kept as its number: how many different names had been given out before it. A name that
is given out again adds none, so two nodes may have one number; an alias means the one that starts
later. Where the grammar lets a node be left out there is an empty plain scalar.
-/

namespace DiffSections.Yaml

set_option autoImplicit false

/-- What may stand before a node. -/
structure NodeMarks where
  anchor : Option Nat := none
  tag : Option Bytes := none

inductive Node where
  | alias (number : Nat)
  | scalar (marks : NodeMarks) (text : String) (style : ScalarStyle)
  | sequence (marks : NodeMarks) (items : List Node)
  /-- The keys and the values in turn. -/
  | mapping (marks : NodeMarks) (parts : List Node)

namespace Node

/-- What stands where a node is left out. -/
def empty : Node := .scalar {} "" .plain

mutual

/-- The node of a number that starts last, in this node. -/
def find? (number : Nat) : Node → Option Node
  | .alias _ => none
  | .scalar marks text style =>
      if marks.anchor = some number then some (.scalar marks text style) else none
  | .sequence marks items =>
      findIn? number items <|>
        if marks.anchor = some number then some (.sequence marks items) else none
  | .mapping marks parts =>
      findIn? number parts <|>
        if marks.anchor = some number then some (.mapping marks parts) else none

/-- The node of a number that starts last, in a list of nodes. -/
def findIn? (number : Nat) : List Node → Option Node
  | [] => none
  | node :: nodes => findIn? number nodes <|> find? number node

end

/-- The node that is meant, in the tree of a root. -/
def resolve? (root : Node) : Node → Option Node
  | .alias number => root.find? number
  | node => some node

/-- Whether nothing is written. -/
def isEmpty : Node → Bool
  | .scalar _ text .plain => text = ""
  | _ => false

/-- The text of a scalar of any style. -/
def text? : Node → Option String
  | .scalar _ text _ => some text
  | _ => none

end Node

end DiffSections.Yaml
