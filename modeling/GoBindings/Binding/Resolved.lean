import GoBindings.Go.Syntax
import GoBindings.Registry
import GoBindings.Settings

set_option autoImplicit false

/-! # Resolved types

A type expression whose names have been looked up, and the Go type that stands for it. A remote
object is used through the capability interface of its class. -/

namespace GoBindings.Binding

inductive Resolved
  | primitive (p : Primitive)
  | enum (name : String)
  | value (name : String)
  | remote (name : String)
  | collection (item : Resolved)
  | optional (inner : Resolved)
deriving DecidableEq, Repr

/-- The interface that a class and all classes extending it implement. -/
def capabilityName (className : String) : String := "I" ++ className

def primitiveName : Primitive → String
  | .text => "string"
  | .int => "int"
  | .int64 => "int64"
  | .float => "float64"
  | .boolean => "bool"

namespace Resolved

def ofEntry (name : String) (entry : Entry) : Resolved :=
  match entry.kind with
  | .enum => enum name
  | .value => value name
  | .remote => remote name

/-- Looks up the name in a type expression, which has at most one. -/
def ofType (registry : Registry) (place : Place) : TypeExpr → Except Failure Resolved
  | .primitive p => .ok (primitive p)
  | .named name => ofEntry name <$> registry.resolve name place
  | .collection item => collection <$> ofType registry place item
  | .optional inner => optional <$> ofType registry place inner

/-- The type without its outer optional markers. -/
def required : Resolved → Resolved
  | optional inner => inner.required
  | t => t

def isRemote : Resolved → Bool
  | remote _ => true
  | _ => false

/-- Go has a value of the type that means absent. -/
def isNillable (t : Resolved) : Bool :=
  match t.required with
  | remote _ | collection _ => true
  | _ => false

/-- Absence is told by a pointer that was put around the type. -/
def isPointerOptional (style : OptionalStyle) : Resolved → Bool
  | optional inner => style = .pointer && !inner.isNillable
  | _ => false

def goType (style : OptionalStyle) : Resolved → Go.Ty
  | primitive p => .named (primitiveName p)
  | enum name | value name => .named name
  | remote name => .named (capabilityName name)
  | collection item => .slice (item.goType style)
  | optional inner =>
    let type := inner.goType style
    if (optional inner).isPointerOptional style && !type.isPointer then .pointer type else type

/-- The type of a method's result. Where absence has to be told, a value is returned through a
    pointer. -/
def returnType (code : CodeSettings) (t : Resolved) : Go.Ty :=
  let type := t.goType code.optionalStyle
  match t.required, code.returnPolicy, type with
  | value _, .absent, .named _ => .pointer type
  | _, _, _ => type

end Resolved

end GoBindings.Binding
