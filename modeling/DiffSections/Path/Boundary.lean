import DiffSections.File.Facts
import DiffSections.Path.Quoted
import DiffSections.Text.Utf8

/-!
# DiffSections.Path.Boundary -- the two paths of a `diff --git` line

The line holds both paths with a space between them, and paths may hold spaces. A path in quotes
ends where its quotes do. Without quotes, the first split that names one path on both sides is
taken; failing that, the last one whose second path starts with `b/`; failing that, the first.
-/

namespace DiffSections.Boundary

set_option autoImplicit false

open Bytes

/-- What a path of this side is written with in front. -/
def sideHead : Side → Bytes
  | .orig => ofAscii "a/"
  | .new => ofAscii "b/"

/-- A path without its side's head, if it has it. -/
def stripSide (side : Side) (path : Bytes) : Bytes :=
  (after? (sideHead side) path).getD path

/-- A path as a record keeps it. -/
def pathText (side : Side) (path : Bytes) : String :=
  Text.lossy (stripSide side path)

/-- The ways to cut a line at one of its spaces, from the left. What stands before the cut is
reversed, and continues `before`. -/
def spaceCuts (before : Bytes) : Bytes → List (Bytes × Bytes)
  | [] => []
  | b :: rest =>
      if b = space then (before, rest) :: spaceCuts (b :: before) rest
      else spaceCuts (b :: before) rest

/-- Whether a cut names one path on both sides. -/
def isSymmetric (cut : Bytes × Bytes) : Bool :=
  stripSide .orig cut.1.reverse == stripSide .new cut.2

/-- Cut two paths of which neither is quoted. -/
def splitPlain? (line : Bytes) : Option (Bytes × Bytes) :=
  let cuts := spaceCuts [] line
  let cut := cuts.find? isSymmetric
    <|> (cuts.filter fun cut => startsWith cut.2 (sideHead .new)).getLast?
    <|> cuts.head?
  cut.map fun (before, after) => (before.reverse, after)

/-- Cut a plain path from the quoted one at the end of the line, if there is one. -/
def quotedCut? (line : Bytes) : Option (Bytes × Bytes) :=
  if line.getLast? = some quote then
    (spaceCuts [] line).find? fun cut => cut.2.head? = some quote
  else none

/-- The two paths of a line, unquoted. -/
def split? (line : Bytes) : Option (Bytes × Bytes) :=
  if line.head? = some quote then do
    let last ← Quoted.endIndex? line
    let orig ← Quoted.decode? (line.take (last + 1))
    let rest ← after? [space] (line.drop (last + 1))
    let new ← Quoted.pathOf? rest
    return (orig, new)
  else
    match quotedCut? line with
    | some (before, after) => (Quoted.decode? after).map (before.reverse, ·)
    | none => splitPlain? line

/-- The two paths of a line, as a record keeps them. -/
def paths? (line : Bytes) : Option (String × String) :=
  (split? line).map fun (orig, new) => (pathText .orig orig, pathText .new new)

end DiffSections.Boundary
