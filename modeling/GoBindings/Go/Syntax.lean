set_option autoImplicit false

/-! # Go syntax

As much of the Go language as generated bindings need. -/

namespace GoBindings.Go

inductive Ty
  /-- A predeclared or declared type, by its name. -/
  | named (name : String)
  | slice (item : Ty)
  | pointer (target : Ty)
  | map (key value : Ty)
deriving DecidableEq, Repr

inductive Literal
  | string (s : String)
  | int (n : Int)
  | float (x : Float)
  | bool (b : Bool)
  | nil
deriving Repr

inductive Comparison
  | notEqual
  | greater
deriving DecidableEq, Repr

inductive Expr
  | ident (name : String)
  | literal (l : Literal)
  /-- `x.field` -/
  | select (x : Expr) (field : String)
  | call (function : Expr) (args : List Expr)
  | index (x i : Expr)
  /-- A map with its entries. -/
  | mapOf (type : Ty) (entries : List (Expr × Expr))
  /-- The value of a type that has nothing set. -/
  | emptyOf (type : Ty)
  | compare (left : Expr) (op : Comparison) (right : Expr)
  | not (x : Expr)
  | addressOf (x : Expr)
  /-- `x.(T)` -/
  | assertType (x : Expr) (type : Ty)
  /-- What the next message on a channel says. -/
  | receive (channel : Expr)
deriving Repr

inductive Stmt
  /-- New variables with the values of an expression. -/
  | define (names : List String) (value : Expr)
  | assign (target value : Expr)
  | return (values : List Expr)
  | ifThen (condition : Expr) (body : List Stmt)
  | forRange (key value : String) (items : Expr) (body : List Stmt)
  /-- A new variable with the zero value of its type. -/
  | declare (name : String) (type : Ty)
  | comment (text : String)
deriving Repr

/-- A parameter or a receiver. -/
structure Param where
  name : String
  type : Ty
deriving DecidableEq, Repr

structure Signature where
  name : String
  params : List Param
  results : List Ty
deriving DecidableEq, Repr

/-- A field of a struct; without a name the type is embedded. -/
structure Field where
  name : Option String
  type : Ty
  doc : List String
deriving DecidableEq, Repr

inductive TypeBody
  | struct (fields : List Field)
  | interface (embedded : List String) (methods : List Signature)
  | like (type : Ty)
deriving DecidableEq, Repr

structure TypeDecl where
  doc : List String
  name : String
  body : TypeBody
deriving DecidableEq, Repr

structure Const where
  name : String
  type : String
  value : Literal
deriving Repr

structure Func where
  doc : List String
  receiver : Option Param
  name : String
  params : List Param
  results : List Ty
  body : List Stmt
deriving Repr

inductive Decl
  | type (d : TypeDecl)
  | consts (cs : List Const)
  | func (f : Func)
deriving Repr

structure File where
  /-- Comment lines above the package clause. -/
  header : List String
  package : String
  imports : List String
  decls : List Decl
deriving Repr

/-! ## Common forms -/

namespace Ty

def string : Ty := named "string"

def error : Ty := named "error"

/-- Named values of any type, as they are sent in a request. -/
def payload : Ty := map string (named "interface{}")

def isPointer : Ty → Bool
  | pointer _ => true
  | _ => false

end Ty

namespace Expr

def string (s : String) : Expr := literal (.string s)

def nil : Expr := literal .nil

def zero : Expr := literal (.int 0)

end Expr

namespace Decl

/-- The names a declaration adds to its package; methods belong to their type. -/
def packageNames : Decl → List String
  | type d => [d.name]
  | consts cs => cs.map Const.name
  | func f => if f.receiver.isNone then [f.name] else []

end Decl

end GoBindings.Go
