import GoBindings.Json.Value
import GoBindings.Text.Blank

set_option autoImplicit false

/-! # Interface descriptions

A description declares remote classes, whose objects live on a server, and complex types, whose
values are sent over the wire. Everything is still as it is written: type expressions are texts, and
documentation carries its markup. -/

namespace GoBindings.Schema

/-- A property of a type, or a parameter of a method or of a constructor. -/
structure Property where
  name : String
  type : String
  doc : String
  optional : Bool
  defaultValue : Option Json.Value
deriving Repr

/-- The result of a method. -/
structure Result where
  type : String
  doc : String
deriving DecidableEq, Repr

structure Method where
  name : String
  doc : String
  params : List Property
  result : Option Result
deriving Repr

structure Constructor where
  params : List Property
deriving Repr

structure RemoteClass where
  name : String
  doc : String
  baseText : Option String
  properties : List Property
  methods : List Method
  events : List String
  constructor : Option Constructor
deriving Repr

/-- An enumeration of texts, or a record of properties. -/
structure ComplexType where
  format : Option String
  name : String
  doc : String
  values : List String
  properties : List Property
  baseText : Option String
deriving Repr

structure Document where
  remoteClasses : List RemoteClass
  complexTypes : List ComplexType
deriving Repr

/-- The name of a base as it is meant: without blanks around it, and none if nothing is left. -/
def baseName (written : Option String) : Option String :=
  match written with
  | none => none
  | some name =>
    let trimmed := Text.trim name.toList
    if trimmed.isEmpty then none else some (String.ofList trimmed)

namespace RemoteClass

def base (c : RemoteClass) : Option String := baseName c.baseText

def constructorParams (c : RemoteClass) : List Property :=
  match c.constructor with
  | some constructor => constructor.params
  | none => []

end RemoteClass

namespace ComplexType

def base (t : ComplexType) : Option String := baseName t.baseText

/-- The format `ENUM`, in any mixture of cases. -/
def isEnum (t : ComplexType) : Bool :=
  match t.format with
  | some format => format.toList.map Char.toUpper == ['E', 'N', 'U', 'M']
  | none => false

end ComplexType

end GoBindings.Schema
