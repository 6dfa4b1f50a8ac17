import DiffSections.Bytes
import DiffSections.Glob.Pattern

/-!
# DiffSections.Glob.Match -- whether a pattern matches a path

A pattern is matched from its end. `places` says, for every suffix of the path, whether what was
read of the pattern matches that suffix; at first that holds of the empty suffix only. Putting a
token in front turns one such list into the next (`before`), and the pattern matches when the first
entry, the one of the whole path, ends up true. So no search is needed and the work is the length of
the path times that of the pattern.

Paths and patterns are compared as UTF-8 octets: `?` and a class each take one octet.
-/

namespace DiffSections.Glob

set_option autoImplicit false

/-- For each suffix of a path, longest first, whether the rest of a pattern matches it. -/
abbrev Places := List Bool

/-- Only the empty suffix. -/
def endPlaces (path : Bytes) : Places :=
  path.map (fun _ => false) ++ [true]

/-- The suffixes that start with an octet of a kind and go on with a suffix in `places`. -/
def takeOne (kind : UInt8 → Bool) : Bytes → Places → Places
  | [], _ => [false]
  | b :: path, places => (kind b && places.tail.headD false) :: takeOne kind path places.tail

/-- The suffixes that end in a suffix in `places`. -/
def takeRun (places : Places) : Places :=
  places.foldr (fun here later => (here || later.headD false) :: later) []

/-- Entry by entry, one or the other. -/
def either (left right : Places) : Places :=
  List.zipWith (· || ·) left right

def takeSlash (path : Bytes) (places : Places) : Places :=
  takeOne (· == Bytes.slash) path places

/-- Nothing, or any directories and a slash. -/
def takeDirs (path : Bytes) (places : Places) : Places :=
  either places (takeRun (takeSlash path places))

/-- The octets of a character. -/
def octets (c : Char) : Bytes := Bytes.ofString c.toString

/-- Whether an octet is in a range of characters. A range stands for the octets of its first
character, those of its last one, and what is between the nearest two of them. -/
def inRange (range : Char × Char) (b : UInt8) : Bool :=
  let first := octets range.1
  let last := octets range.2
  first.contains b || last.contains b ||
    (range.1 != range.2 && first.getLastD 0 ≤ b && b ≤ last.headD 0)

def inClass (set : CharClass) (b : UInt8) : Bool :=
  set.negated != set.ranges.any (inRange · b)

mutual

/-- Whether a token writes nothing: a choice without a branch that writes something. -/
def isVoid : GlobToken → Bool
  | .choice branches => areVoidBranches branches
  | _ => false

def areVoid : List GlobToken → Bool
  | [] => true
  | token :: tokens => isVoid token && areVoid tokens

def areVoidBranches : List (List GlobToken) → Bool
  | [] => true
  | branch :: branches => areVoid branch && areVoidBranches branches

end

mutual

/-- The suffixes that match one token and go on with a suffix in `places`. -/
def before (path : Bytes) : GlobToken → Places → Places
  | .literal c, places => (octets c).foldr (fun b => takeOne (· == b) path) places
  | .any, places => takeOne (fun _ => true) path places
  | .anyRun, places => takeRun places
  | .leadingDirs, places => takeDirs path places
  | .trailingDirs, places => takeSlash path (takeRun places)
  | .innerDirs, places => takeSlash path (takeDirs path places)
  | .charClass set, places => takeOne (inClass set) path places
  | .choice branches, places =>
      if areVoidBranches branches then places else beforeBranches path branches places

def beforeAll (path : Bytes) : List GlobToken → Places → Places
  | [], places => places
  | token :: tokens, places => before path token (beforeAll path tokens places)

/-- The suffixes that match a branch. A branch that writes nothing is no branch. -/
def beforeBranches (path : Bytes) : List (List GlobToken) → Places → Places
  | [], places => places.map fun _ => false
  | branch :: branches, places =>
      let later := beforeBranches path branches places
      if areVoid branch then later else either (beforeAll path branch places) later

end

/-! ## Patterns that go by the file name -/

def isLiteral : GlobToken → Bool
  | .literal _ => true
  | _ => false

/-- What follows a first `**/`. -/
def dropLeadingDirs : List GlobToken → Option (List GlobToken)
  | .leadingDirs :: tokens => some tokens
  | _ => none

def dropRun : List GlobToken → List GlobToken
  | .anyRun :: tokens => tokens
  | tokens => tokens

def isSlash : GlobToken → Bool
  | .literal '/' => true
  | _ => false

def endsInDot (tokens : List GlobToken) : Bool :=
  match tokens.getLast? with
  | some (.literal '.') => true
  | _ => false

/-- A pattern that ends in a dot is matched by its text if it is nothing but text, or text behind
`*`, `**/` or `**/*`; otherwise it is matched by the name of the file. The name alone also decides
for `*.`, `**/*.` and a plain last component behind `**/`. -/
def goesByName (tokens : List GlobToken) : Bool :=
  let tail := dropRun ((dropLeadingDirs tokens).getD tokens)
  let lone := tail.length = 1 && tail.length < tokens.length
  let component := match dropLeadingDirs tokens with
    | some rest => rest.all isLiteral && !rest.any isSlash
    | none => false
  endsInDot tokens && (!tail.all isLiteral || lone || component)

/-- A path whose last component is `..` has no file name. -/
def hasName (path : Bytes) : Bool :=
  path.reverse.takeWhile (· != Bytes.slash) != [Bytes.dot, Bytes.dot]

/-- Whether the tokens of a pattern match a path. `**` alone matches every path. -/
def matches? (tokens : List GlobToken) (path : Bytes) : Bool :=
  match tokens with
  | [.leadingDirs] => true
  | _ =>
      (hasName path || !goesByName tokens) &&
        (beforeAll path tokens (endPlaces path)).headD false

end DiffSections.Glob
