import GoBindings.Go.Syntax
import Mathlib.Data.List.Basic

set_option autoImplicit false

/-! # Types that code mentions

For every form of Go syntax, the names of the types that occur in it, by recursion over the syntax.
A conversion is written like a call, so what is called by a bare name counts as a type, unless it is
the function `len`. -/

namespace GoBindings.Go

/-- The types that the language declares, as far as bindings use them. -/
def predeclaredTypes : List String :=
  ["string", "int", "int64", "float64", "bool", "error", "interface{}"]

namespace Ty

def names : Ty → List String
  | named name => [name]
  | slice item => item.names
  | pointer target => target.names
  | map key value => key.names ++ value.names

theorem names_error_subset : error.names ⊆ predeclaredTypes := by decide

theorem names_payload_subset : payload.names ⊆ predeclaredTypes := by decide

end Ty

namespace Expr

/-- The type to which a call converts, if what is called is one. -/
def conversion : Expr → List String
  | ident name => if name = "len" then [] else [name]
  | _ => []

mutual

def typeNames : Expr → List String
  | ident _ => []
  | literal _ => []
  | select x _ => x.typeNames
  | call function args => function.conversion ++ function.typeNames ++ typeNamesOfArgs args
  | index x i => x.typeNames ++ i.typeNames
  | mapOf type entries => type.names ++ typeNamesOfEntries entries
  | emptyOf type => type.names
  | compare left _ right => left.typeNames ++ right.typeNames
  | not x => x.typeNames
  | addressOf x => x.typeNames
  | assertType x type => x.typeNames ++ type.names
  | receive channel => channel.typeNames

def typeNamesOfArgs : List Expr → List String
  | [] => []
  | x :: xs => x.typeNames ++ typeNamesOfArgs xs

def typeNamesOfEntries : List (Expr × Expr) → List String
  | [] => []
  | (key, value) :: entries => key.typeNames ++ value.typeNames ++ typeNamesOfEntries entries

end

@[simp]
theorem typeNamesOfArgs_eq (xs : List Expr) : typeNamesOfArgs xs = xs.flatMap typeNames := by
  induction xs with
  | nil => rfl
  | cons x xs ih => rw [typeNamesOfArgs, ih, List.flatMap_cons]

@[simp]
theorem typeNamesOfEntries_eq (entries : List (Expr × Expr)) :
    typeNamesOfEntries entries = entries.flatMap fun e => e.1.typeNames ++ e.2.typeNames := by
  induction entries with
  | nil => rfl
  | cons e entries ih => rw [typeNamesOfEntries, ih, List.flatMap_cons]

@[simp]
theorem typeNames_string (s : String) : (string s).typeNames = [] := by
  rw [string, typeNames]

end Expr

namespace Stmt

mutual

def typeNames : Stmt → List String
  | define _ value => value.typeNames
  | assign target value => target.typeNames ++ value.typeNames
  | .return values => values.flatMap Expr.typeNames
  | ifThen condition body => condition.typeNames ++ typeNamesOfAll body
  | forRange _ _ items body => items.typeNames ++ typeNamesOfAll body
  | declare _ type => type.names
  | comment _ => []

def typeNamesOfAll : List Stmt → List String
  | [] => []
  | s :: rest => s.typeNames ++ typeNamesOfAll rest

end

@[simp]
theorem typeNamesOfAll_eq (body : List Stmt) : typeNamesOfAll body = body.flatMap typeNames := by
  induction body with
  | nil => rfl
  | cons s rest ih => rw [typeNamesOfAll, ih, List.flatMap_cons]

@[simp]
theorem typeNames_define (names : List String) (value : Expr) :
    (define names value).typeNames = value.typeNames := by
  rw [typeNames]

end Stmt

def Param.typeNames (p : Param) : List String := p.type.names

def Signature.typeNames (s : Signature) : List String :=
  s.params.flatMap Param.typeNames ++ s.results.flatMap Ty.names

def Field.typeNames (f : Field) : List String := f.type.names

def TypeBody.typeNames : TypeBody → List String
  | struct fields => fields.flatMap Field.typeNames
  | interface embedded methods => embedded ++ methods.flatMap Signature.typeNames
  | like type => type.names

def Func.typeNames (f : Func) : List String :=
  f.receiver.toList.flatMap Param.typeNames ++ f.params.flatMap Param.typeNames ++
    f.results.flatMap Ty.names ++ f.body.flatMap Stmt.typeNames

/-- Every type that a declaration mentions, beside the one that it declares. -/
def Decl.typeNames : Decl → List String
  | type d => d.body.typeNames
  | consts cs => cs.map Const.type
  | func f => f.typeNames

end GoBindings.Go
