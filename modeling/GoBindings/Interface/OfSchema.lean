import GoBindings.DocText
import GoBindings.Interface.Module
import GoBindings.Logged
import GoBindings.Source

set_option autoImplicit false

/-! # From a description to a module

Everything keeps its order. The first type expression that cannot be understood ends the work; a
default that does not fit is dropped with a notice. -/

namespace GoBindings.Interface

def parseType (path : Path) (place : Place) (text : String) : Logged TypeExpr :=
  match TypeExpr.parse text with
  | .ok type => pure type
  | .error error => .fail (.badDescription path (.badType place error))

/-- The default of a property of the given type. -/
def settleDefault (place : Place) (type : TypeExpr) :
    Option Json.Value → Logged (Option Default)
  | none | some .null => pure (Default.zero? type)
  | some value =>
    match Default.ofValue? type value with
    | some fitting => pure (some fitting)
    | none => do
      .note (.defaultIgnored place value)
      return Default.zero? type

def Field.ofProperty (path : Path) (place : Place) (p : Schema.Property) : Logged Field := do
  let written ← parseType path place p.type
  let type := if p.optional then written.asOptional else written
  let default ← settleDefault place type p.defaultValue
  return { name := p.name, type, default, doc := DocText.lines p.doc }

/-- The result of a method; a blank type means that there is none. -/
def Result.ofSchema (path : Path) (place : Place) : Option Schema.Result → Logged (Option Result)
  | none => pure none
  | some r =>
    if (Text.trim r.type.toList).isEmpty then pure none
    else do
      let type ← parseType path place r.type
      return some { type, doc := DocText.lines r.doc }

def Method.ofSchema (path : Path) (owner : String) (m : Schema.Method) : Logged Method := do
  let params ← m.params.mapM fun p => Field.ofProperty path (.parameter owner m.name p.name) p
  let result ← Result.ofSchema path (.result owner m.name) m.result
  return { name := m.name, doc := DocText.lines m.doc, params, result }

def Class.ofSchema (path : Path) (c : Schema.RemoteClass) : Logged Class := do
  let properties ← c.properties.mapM fun p => Field.ofProperty path (.property c.name p.name) p
  let methods ← c.methods.mapM fun m => Method.ofSchema path c.name m
  let constructorParams ← c.constructorParams.mapM fun p =>
    Field.ofProperty path (.constructorParameter c.name p.name) p
  return {
    name := c.name, doc := DocText.lines c.doc, base := c.base, properties, methods,
    constructorParams }

def Shape.ofSchema (path : Path) (t : Schema.ComplexType) : Logged Shape :=
  if t.isEnum then pure (.enum t.values)
  else do
    let fields ← t.properties.mapM fun p => Field.ofProperty path (.property t.name p.name) p
    return .record t.base fields

def DataType.ofSchema (path : Path) (t : Schema.ComplexType) : Logged DataType := do
  let shape ← Shape.ofSchema path t
  return { name := t.name, doc := DocText.lines t.doc, shape }

def Module.ofSource (s : Source) : Logged Module := do
  let types ← s.document.complexTypes.mapM fun t => DataType.ofSchema s.path t
  let classes ← s.document.remoteClasses.mapM fun c => Class.ofSchema s.path c
  return { source := s.path, classes, types }

end GoBindings.Interface
