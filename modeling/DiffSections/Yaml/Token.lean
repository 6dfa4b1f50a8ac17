import DiffSections.Bytes

/-!
# DiffSections.Yaml.Token -- the tokens of a settings file

Indentation shows as tokens too: a block collection has a start token before its first entry and
`blockEnd` where its indentation ends. `key` stands before a key that is followed by a colon on the
same line, although nothing is written there. A tag is a handle and the octets after it, since those
may be written as escapes that are no text.
-/

namespace DiffSections.Yaml

set_option autoImplicit false

inductive ScalarStyle where
  | plain
  | singleQuoted
  | doubleQuoted
  | literal
  | folded
  deriving DecidableEq

inductive Token where
  | streamEnd
  | versionDirective (major minor : Nat)
  | tagDirective (handle : String) (head : Bytes)
  | documentStart
  | documentEnd
  | blockSequenceStart
  | blockMappingStart
  | blockEnd
  | flowSequenceStart
  | flowSequenceEnd
  | flowMappingStart
  | flowMappingEnd
  | blockEntry
  | flowEntry
  | key
  | value
  | alias (name : String)
  | anchor (name : String)
  | tag (handle : String) (suffix : Bytes)
  | scalar (text : String) (style : ScalarStyle)
  deriving DecidableEq

end DiffSections.Yaml
