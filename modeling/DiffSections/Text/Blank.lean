/-!
# DiffSections.Text.Blank -- the white space of Unicode, and trimming

`isBlank` is the property White_Space: 25 code points. `trim` takes it off both ends of a text,
`trimEnd` off the end only.
-/

namespace DiffSections.Text

set_option autoImplicit false

/-- The code points of the property White_Space that stand outside runs. -/
def blankPoints : List Nat :=
  [0x20, 0x85, 0xA0, 0x1680, 0x2028, 0x2029, 0x202F, 0x205F, 0x3000]

def isBlank (c : Char) : Bool :=
  (9 ≤ c.toNat && c.toNat ≤ 13) || (0x2000 ≤ c.toNat && c.toNat ≤ 0x200A) ||
    blankPoints.contains c.toNat

def trimEnd (text : String) : String :=
  String.ofList (text.toList.reverse.dropWhile isBlank).reverse

def trim (text : String) : String :=
  trimEnd (String.ofList (text.toList.dropWhile isBlank))

end DiffSections.Text
