import GoBindings.Decimal.Shortest
import GoBindings.Go.Syntax

set_option autoImplicit false

/-! # Go source text

Printing never chooses: indentation is one tab for each level, a map has one entry a line, and
documentation stands in line comments. -/

namespace GoBindings.Go

/-! ## Literals -/

def escapedChar : Char → List Char
  | '\\' => ['\\', '\\']
  | '"' => ['\\', '"']
  | '\n' => ['\\', 'n']
  | '\r' => ['\\', 'r']
  | '\t' => ['\\', 't']
  | c => [c]

/-- A text as it stands between the quotes of a string literal. -/
def escape (s : String) : String := String.ofList (s.toList.flatMap escapedChar)

def quote (s : String) : String := "\"" ++ escape s ++ "\""

/-- A whole number has all its digits and one decimal, so that it stays a floating point number; any
    other has the fewest digits that read back, without an exponent. -/
def floatText (x : Float) : String :=
  match Decimal.Binary64.ofFloat x with
  | .finite negative significand exponent =>
    let magnitude := match Decimal.Binary64.whole? significand exponent with
      | some n => Nat.toDigits 10 n ++ ['.', '0']
      | none => (Decimal.Shortest.ofParts .up significand exponent).positional
    String.ofList (if negative then '-' :: magnitude else magnitude)
  | .infinite negative => if negative then "-inf" else "inf"
  | .notANumber => "NaN"

namespace Literal

def print : Literal → String
  | string s => quote s
  | int n => toString n
  | float x => floatText x
  | bool b => if b then "true" else "false"
  | nil => "nil"

end Literal

/-! ## Types and expressions -/

namespace Ty

def print : Ty → String
  | named name => name
  | slice item => "[]" ++ item.print
  | pointer target => "*" ++ target.print
  | map key value => "map[" ++ key.print ++ "]" ++ value.print

end Ty

namespace Comparison

def print : Comparison → String
  | notEqual => "!="
  | greater => ">"

end Comparison

def tabs (indent : Nat) : String := String.ofList (List.replicate indent '\t')

def commaSeparated (parts : List String) : String := ", ".intercalate parts

namespace Expr

mutual

/-- The expression inside a line with the given indentation, which matters to maps only. -/
def print (indent : Nat) : Expr → String
  | ident name => name
  | literal l => l.print
  | select x field => x.print indent ++ "." ++ field
  | call function args =>
    function.print indent ++ "(" ++ commaSeparated (printArgs indent args) ++ ")"
  | index x i => x.print indent ++ "[" ++ i.print indent ++ "]"
  | mapOf type [] => type.print ++ "{}"
  | mapOf type (entry :: entries) =>
    type.print ++ "\x7b\n" ++ printEntries (indent + 1) (entry :: entries) ++ tabs indent ++ "\x7d"
  | emptyOf type => type.print ++ "{}"
  | compare left op right => left.print indent ++ " " ++ op.print ++ " " ++ right.print indent
  | not x => "!" ++ x.print indent
  | addressOf x => "&" ++ x.print indent
  | assertType x type => x.print indent ++ ".(" ++ type.print ++ ")"
  | receive channel => "<-" ++ channel.print indent

def printArgs (indent : Nat) : List Expr → List String
  | [] => []
  | x :: xs => x.print indent :: printArgs indent xs

def printEntries (indent : Nat) : List (Expr × Expr) → String
  | [] => ""
  | (key, value) :: entries =>
    tabs indent ++ key.print indent ++ ": " ++ value.print indent ++ ",\n" ++
      printEntries indent entries

end

end Expr

/-! ## Statements -/

namespace Stmt

def printReturn (indent : Nat) (values : List Expr) : String :=
  if values.isEmpty then "return"
  else "return " ++ commaSeparated (Expr.printArgs indent values)

mutual

/-- The statement in lines of its own. -/
def print (indent : Nat) : Stmt → String
  | define names value =>
    tabs indent ++ commaSeparated names ++ " := " ++ value.print indent ++ "\n"
  | assign target value =>
    tabs indent ++ target.print indent ++ " = " ++ value.print indent ++ "\n"
  | .return values => tabs indent ++ printReturn indent values ++ "\n"
  | ifThen condition body =>
    tabs indent ++ "if " ++ condition.print indent ++ " \x7b\n" ++ printAll (indent + 1) body ++
      tabs indent ++ "\x7d\n"
  | forRange key value items body =>
    tabs indent ++ "for " ++ key ++ ", " ++ value ++ " := range " ++ items.print indent ++
      " \x7b\n" ++ printAll (indent + 1) body ++ tabs indent ++ "\x7d\n"
  | declare name type => tabs indent ++ "var " ++ name ++ " " ++ type.print ++ "\n"
  | comment text => tabs indent ++ "// " ++ text ++ "\n"

def printAll (indent : Nat) : List Stmt → String
  | [] => ""
  | s :: rest => s.print indent ++ printAll indent rest

end

end Stmt

/-! ## Declarations -/

/-- Comment lines. -/
def printDoc (indent : Nat) (lines : List String) : String :=
  String.join (lines.map fun line => tabs indent ++ "// " ++ line ++ "\n")

namespace Param

def print (p : Param) : String := p.name ++ " " ++ p.type.print

end Param

/-- What follows a name in a signature. -/
def printSignature (params : List Param) (results : List Ty) : String :=
  let after := match results with
    | [] => ""
    | [single] => " " ++ single.print
    | many => " (" ++ commaSeparated (many.map Ty.print) ++ ")"
  "(" ++ commaSeparated (params.map Param.print) ++ ")" ++ after

namespace Signature

def print (s : Signature) : String := s.name ++ printSignature s.params s.results

end Signature

namespace Field

def print (f : Field) : String :=
  let line := match f.name with
    | some name => "\t" ++ name ++ " " ++ f.type.print ++ "\n"
    | none => "\t" ++ f.type.print ++ "\n"
  printDoc 1 f.doc ++ line

/-- Fields after the first; a documented one has an empty line before it. -/
def printFollowing (fields : List Field) : String :=
  String.join (fields.map fun f => if f.doc.isEmpty then f.print else "\n" ++ f.print)

end Field

namespace TypeBody

def print : TypeBody → String
  | struct [] => "struct{}\n"
  | struct (f :: fs) => "struct \x7b\n" ++ f.print ++ Field.printFollowing fs ++ "\x7d\n"
  | interface [] [] => "interface{}\n"
  | interface embedded methods =>
    "interface \x7b\n" ++ String.join (embedded.map fun name => "\t" ++ name ++ "\n") ++
      String.join (methods.map fun m => "\t" ++ m.print ++ "\n") ++ "\x7d\n"
  | like type => type.print ++ "\n"

end TypeBody

namespace TypeDecl

def print (d : TypeDecl) : String :=
  printDoc 0 d.doc ++ "type " ++ d.name ++ " " ++ d.body.print

end TypeDecl

namespace Const

def print (c : Const) : String := c.name ++ " " ++ c.type ++ " = " ++ c.value.print

end Const

namespace Func

def print (f : Func) : String :=
  let receiver := match f.receiver with
    | some r => "(" ++ r.print ++ ") "
    | none => ""
  let body := match f.body with
    | [] => " {}\n"
    | stmts => " \x7b\n" ++ Stmt.printAll 1 stmts ++ "\x7d\n"
  printDoc 0 f.doc ++ "func " ++ receiver ++ f.name ++ printSignature f.params f.results ++ body

end Func

namespace Decl

def print : Decl → String
  | type d => d.print
  | func f => f.print
  | consts [] => ""
  | consts cs => "const (\n" ++ String.join (cs.map fun c => "\t" ++ c.print ++ "\n") ++ ")\n"

end Decl

/-! ## Files -/

namespace File

def printImports : List String → String
  | [] => ""
  | [single] => "\nimport " ++ quote single ++ "\n"
  | many => "\nimport (\n" ++ String.join (many.map fun i => "\t" ++ quote i ++ "\n") ++ ")\n"

/-- An empty line before a declaration that has any text. -/
def printDecl (d : Decl) : String :=
  let text := d.print
  if text.isEmpty then "" else "\n" ++ text

def print (f : File) : String :=
  let header := if f.header.isEmpty then "" else printDoc 0 f.header ++ "\n"
  header ++ "package " ++ f.package ++ "\n" ++ printImports f.imports ++
    String.join (f.decls.map printDecl)

end File

end GoBindings.Go
