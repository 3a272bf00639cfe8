import GoBindings.Text.Case

set_option autoImplicit false

/-! # Go identifiers

Names of an interface description are free text, and Go identifiers are not. A name is first
brought into the alphabet of identifiers and then adjusted to its role: members are exported,
parameters keep clear of keywords and of the names that generated bodies use themselves. -/

namespace GoBindings.Identifier

def keywords : List String := [
  "break", "case", "chan", "const", "continue", "default", "defer", "else", "fallthrough", "for",
  "func", "go", "goto", "if", "import", "interface", "map", "package", "range", "return", "select",
  "struct", "switch", "type", "var"]

/-- Names a parameter must not shadow: the predeclared ones that generated bodies use, and the
    locals and packages of those bodies. -/
def reservedLocals : List String := [
  "bool", "string", "int", "int64", "float64", "error", "nil", "true", "false", "len", "make",
  "new", "append", "elem", "req", "params", "response", "value", "ret", "result", "fmt", "reflect"]

/-- An ASCII letter, digit or underscore. -/
def isPart (c : Char) : Bool := c.isAlphanum || c == '_'

/-- An identifier over the ASCII alphabet that is no keyword. -/
def isValid (name : String) : Bool :=
  match name.toList with
  | [] => false
  | c :: cs => (c.isAlpha || c == '_') && cs.all isPart && !keywords.contains name

/-- Every character outside the alphabet becomes an underscore, and an underscore is put in front
    of a digit or of nothing at all. -/
def sanitizeChars (cs : List Char) : List Char :=
  match cs.map fun c => if isPart c then c else '_' with
  | [] => ['_']
  | c :: cs => if c.isDigit then '_' :: c :: cs else c :: cs

def sanitize (name : String) : String := String.ofList (sanitizeChars name.toList)

/-- The name with its first character in upper case. -/
def capitalize (name : String) : String := String.ofList (Text.upperFirst name.toList)

/-- The name of a field or a method. An underscore has no upper case, so `X` is put in front. -/
def exported (name : String) : String :=
  let plain := sanitize name
  if plain.toList.head? = some '_' then "X" ++ plain else capitalize plain

/-- The name of a parameter. -/
def param (name : String) : String :=
  let plain := sanitize name
  if keywords.contains plain || reservedLocals.contains plain then "_" ++ plain else plain

/-- The name of an enum constant: type and value in upper case, joined by an underscore. -/
def enumConstant (type value : String) : String :=
  let valueChars := value.toList.map fun c => if c.isAlphanum then c else '_'
  String.ofList (Text.upper type.toList ++ '_' :: Text.upper valueChars)

end GoBindings.Identifier
