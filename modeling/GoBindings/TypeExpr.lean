import GoBindings.Text.Blank

set_option autoImplicit false

/-! # Type expressions

A property, a parameter or a result names its type by an expression: a word, followed by any number
of the markers `[]` (a collection of what stands before it) and `<>` (what stands before it, or
nothing). Blanks may surround the word and every marker. Seven words are primitive types; any other
word refers to a declared type, whose kind is settled against the registry of all declarations. -/

namespace GoBindings

inductive Primitive
  | text
  | int
  | int64
  | float
  | boolean
deriving DecidableEq, Repr

inductive TypeExpr
  | primitive (p : Primitive)
  | named (name : String)
  | collection (item : TypeExpr)
  | optional (inner : TypeExpr)
deriving DecidableEq, Repr

inductive TypeExprError
  | empty
  /-- No type expression; `text` is what the markers after it were taken from. -/
  | invalid (text : String)
deriving DecidableEq, Repr

namespace TypeExprError

def message : TypeExprError → String
  | empty => "empty type expression"
  | invalid text => s!"invalid type expression `{text}`"

end TypeExprError

namespace Primitive

/-- The primitive type that a word spells. -/
def ofWord? : String → Option Primitive
  | "String" | "string" => some text
  | "float" | "double" => some float
  | "boolean" => some boolean
  | "int" => some int
  | "int64" => some int64
  | _ => none

end Primitive

namespace TypeExpr

/-- A letter, then letters, digits and underscores; all ASCII. -/
def isWord : List Char → Bool
  | [] => false
  | c :: cs => c.isAlpha && cs.all fun c => c.isAlphanum || c == '_'

/-- The type a word denotes; `raw` is the text around it, for the error. -/
def ofWord (raw word : List Char) : Except TypeExprError TypeExpr :=
  match Primitive.ofWord? (String.ofList word) with
  | some p => .ok (primitive p)
  | none =>
    if isWord word then .ok (named (String.ofList word))
    else .error (.invalid (String.ofList raw))

/-- Reads an expression from its last marker inwards. -/
def parseChars (raw : List Char) : Except TypeExprError TypeExpr :=
  if (Text.trim raw).isEmpty then .error .empty
  else
    match _h : Text.beforeEnding? ['[', ']'] (Text.trim raw) with
    | some item => collection <$> parseChars item
    | none =>
      match _h : Text.beforeEnding? ['<', '>'] (Text.trim raw) with
      | some inner => optional <$> parseChars inner
      | none => ofWord raw (Text.trim raw)
termination_by raw.length
decreasing_by
  all_goals
    have := Text.length_lt_of_beforeEnding? (by simp) _h
    have := Text.length_trim_le raw
    omega

def parse (s : String) : Except TypeExprError TypeExpr := parseChars s.toList

def isOptional : TypeExpr → Bool
  | optional _ => true
  | _ => false

/-- The type without its outer optional markers. -/
def required : TypeExpr → TypeExpr
  | optional inner => inner.required
  | t => t

/-- The type made optional, unless it is already. -/
def asOptional (t : TypeExpr) : TypeExpr := if t.isOptional then t else optional t

end TypeExpr

end GoBindings
