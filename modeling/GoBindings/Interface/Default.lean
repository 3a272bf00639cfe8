import GoBindings.Json.Value
import GoBindings.TypeExpr

set_option autoImplicit false

/-! # Default values

A property may come with a default, a data value. It counts if it fits the type of the property,
apart from optional markers; otherwise the zero value of the type counts. A reference to a declared
type takes a text, because it may turn out to be an enumeration, and has no zero value. -/

namespace GoBindings

inductive Default
  | text (s : String)
  | int (n : Int)
  | float (x : Float)
  | boolean (b : Bool)
deriving Repr

namespace Default

def zeroOf : Primitive → Default
  | .text => text ""
  | .int | .int64 => int 0
  | .float => float 0
  | .boolean => boolean false

/-- The zero value of a type; references and collections have none. -/
def zero? (type : TypeExpr) : Option Default :=
  match type.required with
  | .primitive p => some (zeroOf p)
  | .named _ | .collection _ | .optional _ => none

def isInt64 (n : Int) : Bool := -0x8000000000000000 ≤ n && n < 0x8000000000000000

/-- A number as a double. A whole number is rounded to the nearest. -/
def floatOf : Json.Number → Float
  | .whole n => .ofModel (.ofInt n)
  | .real x => x

/-- The default that a data value stands for, if it fits the type. -/
def ofValue? (type : TypeExpr) (value : Json.Value) : Option Default :=
  match type.required, value with
  | .primitive .text, .text s | .named _, .text s => some (text s)
  | .primitive .boolean, .boolean b => some (boolean b)
  | .primitive .int, .number (.whole n) | .primitive .int64, .number (.whole n) =>
    if isInt64 n then some (int n) else none
  | .primitive .float, .number n => some (float (floatOf n))
  | _, _ => none

end Default

end GoBindings
