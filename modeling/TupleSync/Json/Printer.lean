import TupleSync.Json.Quoted
import TupleSync.Json.Numeral

/-!
# The compact text of a value

**Every value has one compact text**: no blank anywhere, members in the order they stand in, whole
numbers in decimal, other numbers as they were written.
-/

set_option autoImplicit false

namespace TupleSync.Json

/-- The text of a number. -/
def Number.bytes : Number → List UInt8
  | .whole n => Numeral.ofInt n
  | .decimal literal => literal.toUTF8.toList

/-- Puts a comma between the texts. -/
def commaSeparated : List (List UInt8) → List UInt8
  | [] => []
  | [t] => t
  | t :: rest => t ++ 44 :: commaSeparated rest

mutual

/-- The compact text of a value. -/
def bytes : Json → List UInt8
  | .null => [110, 117, 108, 108]
  | .bool true => [116, 114, 117, 101]
  | .bool false => [102, 97, 108, 115, 101]
  | .number n => n.bytes
  | .text s => Quoted.quoted s
  | .array items => 91 :: (commaSeparated (itemTexts items) ++ [93])
  | .object members => 123 :: (commaSeparated (memberTexts members) ++ [125])

/-- The texts of the items of an array. -/
def itemTexts : List Json → List (List UInt8)
  | [] => []
  | v :: rest => bytes v :: itemTexts rest

/-- The texts of the members of an object. -/
def memberTexts : List (String × Json) → List (List UInt8)
  | [] => []
  | (key, v) :: rest => (Quoted.quoted key ++ 58 :: bytes v) :: memberTexts rest

end

end TupleSync.Json
