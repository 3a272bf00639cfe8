import GoBindings.Binding.Stub

set_option autoImplicit false

/-! # Constructor parameters

The function `getConstructorParams` of a class fills in what the caller does not give: defaults, and
a reference to the object from which the new one is made. -/

namespace GoBindings.Binding

open Go (Expr Stmt)

/-- A constructor parameter with its resolved type. -/
structure Seed where
  wireName : String
  type : Resolved
  default : Option Default
deriving Repr

def literalOf : Default → Go.Literal
  | .text s => .string s
  | .int n => .int n
  | .float x => .float x
  | .boolean b => .bool b

namespace Seed

def ofField (registry : Registry) (owner : String) (f : Interface.Field) :
    Except Failure Seed := do
  let type ← Resolved.ofType registry (.constructorParameter owner f.name) f.type
  return { wireName := f.name, type, default := f.default }

/-- What is filled in for the parameter, if anything. -/
def value? (s : Seed) : Option Expr :=
  match s.type.required, s.default with
  | .remote _, _ => some (textForm (.ident "from"))
  | .primitive _, some default => some (.literal (literalOf default))
  | .enum name, some (.text s) => some (.call (.ident name) [.string s])
  | _, _ => none

def packages (s : Seed) : List String :=
  if s.type.required.isRemote then textFormPackages else []

def entry? (s : Seed) : Option (Expr × Expr) := s.value?.map fun v => (.string s.wireName, v)

end Seed

/-- Options of the caller go over what is filled in. -/
def constructorBody (seeds : List Seed) : List Stmt :=
  if seeds.isEmpty then [.return [.ident "options"]]
  else [
    .define ["ret"] (.mapOf .payload (seeds.filterMap Seed.entry?)),
    .forRange "key" "value" (.ident "options")
      [.assign (.index (.ident "ret") (.ident "key")) (.ident "value")],
    .return [.ident "ret"]]

def constructorFunc (code : CodeSettings) (className : String) (seeds : List Seed) : Go.Func where
  doc := [
    "getConstructorParams returns the parameters sent on creation.",
    "Values in options take precedence over synthesized ones."]
  receiver := some (receiver className)
  name := "getConstructorParams"
  params := [
    { name := "from", type := .named (capabilityName code.rootClass) },
    { name := "options", type := .payload }]
  results := [.payload]
  body := constructorBody seeds

end GoBindings.Binding
