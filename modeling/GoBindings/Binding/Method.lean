import GoBindings.Binding.Resolved
import GoBindings.Interface.Module
import GoBindings.NameSet

set_option autoImplicit false

/-! # Methods with resolved types -/

namespace GoBindings.Binding

/-- No name may occur twice among the names of one kind in a declaration. -/
def ensureUnique (unit : String) (kind : NameKind) (names : List String) : Except Failure Unit :=
  match NameSet.firstRepeated [] names with
  | some name => .error (.unrenderable unit (.repeated kind name))
  | none => .ok ()

structure Param where
  goName : String
  /-- The key under which an argument is sent. -/
  wireName : String
  type : Resolved
deriving DecidableEq, Repr

structure Method where
  goName : String
  /-- The operation that is asked for. -/
  wireName : String
  doc : List String
  params : List Param
  result : Option Resolved
deriving DecidableEq, Repr

namespace Param

def ofField (registry : Registry) (owner method : String) (f : Interface.Field) :
    Except Failure Param := do
  let type ← Resolved.ofType registry (.parameter owner method f.name) f.type
  return { goName := Identifier.param f.name, wireName := f.name, type }

def goParam (style : OptionalStyle) (p : Param) : Go.Param where
  name := p.goName
  type := p.type.goType style

end Param

namespace Method

/-- The comment of a method: its documentation, then that of its result. -/
def docLines (m : Interface.Method) : List String :=
  match m.result with
  | some result => if result.doc.isEmpty then m.doc else m.doc ++ "Returns:" :: result.doc
  | none => m.doc

def resolveResult (registry : Registry) (place : Place) :
    Option Interface.Result → Except Failure (Option Resolved)
  | some result => some <$> Resolved.ofType registry place result.type
  | none => .ok none

def ofInterface (registry : Registry) (owner : String) (m : Interface.Method) :
    Except Failure Method := do
  let params ← m.params.mapM fun f => Param.ofField registry owner m.name f
  ensureUnique s!"{owner}.{m.name}" .parameter (params.map Param.goName)
  let result ← resolveResult registry (.result owner m.name) m.result
  return {
    goName := Identifier.exported m.name, wireName := m.name, doc := docLines m, params, result }

def goParams (style : OptionalStyle) (m : Method) : List Go.Param :=
  m.params.map fun p => p.goParam style

/-- Every method returns an error; what else it returns comes first. -/
def goResults (code : CodeSettings) (m : Method) : List Go.Ty :=
  match m.result with
  | some result => [result.returnType code, .error]
  | none => [.error]

def signature (code : CodeSettings) (m : Method) : Go.Signature where
  name := m.goName
  params := m.goParams code.optionalStyle
  results := m.goResults code

end Method

end GoBindings.Binding
