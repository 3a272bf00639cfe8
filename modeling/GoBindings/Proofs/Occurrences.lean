import GoBindings.Go.Syntax
import Mathlib.Data.List.Basic

set_option autoImplicit false

/-! # What occurs in a function

Something is collected from all expressions of a statement, however deep they are inside others
(`Stmt.fromExprs`), or from the statement and all statements inside it (`Stmt.fromStmts`): the maps
that are written out, the names from which something is selected, the keys under which a map is
written, the variables that come into being. -/

namespace GoBindings.Go

namespace Expr

section

variable {α : Type} (f : Expr → List α)

mutual

/-- What `f` gives for the expression and for all expressions inside it. -/
def collect : Expr → List α
  | ident name => f (ident name)
  | literal l => f (literal l)
  | select x field => f (select x field) ++ x.collect
  | call function args => f (call function args) ++ function.collect ++ collectArgs args
  | index x i => f (index x i) ++ x.collect ++ i.collect
  | mapOf type entries => f (mapOf type entries) ++ collectEntries entries
  | emptyOf type => f (emptyOf type)
  | compare left op right => f (compare left op right) ++ left.collect ++ right.collect
  | not x => f (not x) ++ x.collect
  | addressOf x => f (addressOf x) ++ x.collect
  | assertType x type => f (assertType x type) ++ x.collect
  | receive channel => f (receive channel) ++ channel.collect

def collectArgs : List Expr → List α
  | [] => []
  | x :: xs => x.collect ++ collectArgs xs

def collectEntries : List (Expr × Expr) → List α
  | [] => []
  | (key, value) :: entries => key.collect ++ value.collect ++ collectEntries entries

end

@[simp]
theorem collectArgs_eq (xs : List Expr) : collectArgs f xs = xs.flatMap (collect f) := by
  induction xs with
  | nil => rfl
  | cons x xs ih => rw [collectArgs, ih, List.flatMap_cons]

@[simp]
theorem collectEntries_eq (entries : List (Expr × Expr)) :
    collectEntries f entries = entries.flatMap fun e => e.1.collect f ++ e.2.collect f := by
  induction entries with
  | nil => rfl
  | cons e entries ih => rw [collectEntries, ih, List.flatMap_cons]

@[simp]
theorem collect_string (s : String) : (string s).collect f = f (literal (.string s)) := by
  rw [string, collect]

end

/-- The entries of the expression, if it is a map that is written out. -/
def ownMap : Expr → List (List (Expr × Expr))
  | mapOf _ entries => [entries]
  | _ => []

/-- The name from which the expression selects, if it selects from a name. -/
def ownSelection : Expr → List String
  | select (ident name) _ => [name]
  | _ => []

/-- The text, if the expression is one. -/
def text? : Expr → Option String
  | literal (.string s) => some s
  | _ => none

@[simp]
theorem text?_string (s : String) : (string s).text? = some s := rfl

end Expr

/-- The texts among the keys of a map. -/
def textKeys (entries : List (Expr × Expr)) : List String :=
  entries.filterMap fun e => e.1.text?

namespace Stmt

section

variable {α : Type} (f : Expr → List α)

mutual

/-- What `f` gives for all expressions in the statement. -/
def fromExprs : Stmt → List α
  | define _ value => value.collect f
  | assign target value => target.collect f ++ value.collect f
  | .return values => values.flatMap (Expr.collect f)
  | ifThen condition body => condition.collect f ++ fromExprsOfAll body
  | forRange _ _ items body => items.collect f ++ fromExprsOfAll body
  | declare _ _ => []
  | comment _ => []

def fromExprsOfAll : List Stmt → List α
  | [] => []
  | s :: rest => s.fromExprs ++ fromExprsOfAll rest

end

@[simp]
theorem fromExprsOfAll_eq (body : List Stmt) :
    fromExprsOfAll f body = body.flatMap (fromExprs f) := by
  induction body with
  | nil => rfl
  | cons s rest ih => rw [fromExprsOfAll, ih, List.flatMap_cons]

end

section

variable {α : Type} (f : Stmt → List α)

mutual

/-- What `f` gives for the statement and for all statements inside it. -/
def fromStmts : Stmt → List α
  | define names value => f (define names value)
  | assign target value => f (assign target value)
  | .return values => f (.return values)
  | ifThen condition body => f (ifThen condition body) ++ fromStmtsOfAll body
  | forRange key value items body => f (forRange key value items body) ++ fromStmtsOfAll body
  | declare name type => f (declare name type)
  | comment text => f (comment text)

def fromStmtsOfAll : List Stmt → List α
  | [] => []
  | s :: rest => s.fromStmts ++ fromStmtsOfAll rest

end

@[simp]
theorem fromStmtsOfAll_eq (body : List Stmt) :
    fromStmtsOfAll f body = body.flatMap (fromStmts f) := by
  induction body with
  | nil => rfl
  | cons s rest ih => rw [fromStmtsOfAll, ih, List.flatMap_cons]

end

/-- The entries of every map that is written out in a statement. -/
def maps : Stmt → List (List (Expr × Expr)) := fromExprs Expr.ownMap

/-- The names from which something is selected in a statement. -/
def selections : Stmt → List String := fromExprs Expr.ownSelection

/-- The text under which a statement writes to the map in a variable, if it does. -/
def ownKey (name : String) : Stmt → List String
  | assign (.index (.ident target) key) _ => if target = name then key.text?.toList else []
  | _ => []

/-- The texts under which a statement writes to the map in a variable, one for each assignment. -/
def keysWritten (name : String) : Stmt → List String := fromStmts (ownKey name)

/-- The variables that a statement brings, apart from those of statements inside it. -/
def ownBinds : Stmt → List String
  | define names _ => names
  | forRange key value _ _ => [key, value]
  | declare name _ => [name]
  | assign _ _ | .return _ | ifThen _ _ | comment _ => []

/-- All variables that a statement brings. -/
def binds : Stmt → List String := fromStmts ownBinds

end Stmt

/-- The variables of a function: its receiver, its parameters, and what its body brings. -/
def Func.binds (f : Func) : List String :=
  f.receiver.toList.map Param.name ++ f.params.map Param.name ++ f.body.flatMap Stmt.binds

namespace Decl

/-- The names from which something is selected in a declaration; only functions have
    expressions. -/
def selections : Decl → List String
  | func f => f.body.flatMap Stmt.selections
  | type _ | consts _ => []

/-- All variables in a declaration. -/
def binds : Decl → List String
  | func f => f.binds
  | type _ | consts _ => []

theorem exists_mem_selections_iff {decls : List Decl} {name : String} :
    (∃ d ∈ decls, name ∈ d.selections) ↔
      ∃ f, func f ∈ decls ∧ name ∈ f.body.flatMap Stmt.selections := by
  constructor
  · rintro ⟨d, hd, hname⟩
    cases d with
    | func f => exact ⟨f, hd, hname⟩
    | type t => exact absurd hname List.not_mem_nil
    | consts cs => exact absurd hname List.not_mem_nil
  · rintro ⟨f, hf, hname⟩
    exact ⟨func f, hf, hname⟩

theorem exists_func_of_mem_binds {decls : List Decl} {d : Decl} {name : String} (hd : d ∈ decls)
    (hname : name ∈ d.binds) : ∃ f, func f ∈ decls ∧ name ∈ f.binds := by
  cases d with
  | func f => exact ⟨f, hd, hname⟩
  | type t => exact absurd hname List.not_mem_nil
  | consts cs => exact absurd hname List.not_mem_nil

end Decl

end GoBindings.Go
