import GoBindings.Interface.Default
import GoBindings.Path

set_option autoImplicit false

/-! # Modules of an interface

What a description declares, once its type expressions are understood, its defaults settled and its
documentation set in lines. Whether a name is a value or a remote object is still open: that takes
the declarations of all modules. -/

namespace GoBindings.Interface

/-- A property or a parameter. -/
structure Field where
  /-- As it is written, and sent over the wire. -/
  name : String
  type : TypeExpr
  default : Option Default
  doc : List String
deriving Repr

structure Result where
  type : TypeExpr
  doc : List String
deriving DecidableEq, Repr

structure Method where
  name : String
  doc : List String
  params : List Field
  result : Option Result
deriving Repr

structure Class where
  name : String
  doc : List String
  base : Option String
  properties : List Field
  methods : List Method
  constructorParams : List Field
deriving Repr

inductive Shape
  | enum (values : List String)
  | record (base : Option String) (fields : List Field)
deriving Repr

structure DataType where
  name : String
  doc : List String
  shape : Shape
deriving Repr

structure Module where
  source : Path
  classes : List Class
  types : List DataType
deriving Repr

end GoBindings.Interface
