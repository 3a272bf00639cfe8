import GoBindings.Binding.Constructor

set_option autoImplicit false

/-! # Code units

The Go declarations for one data type or one class, and for all of a module. A data type that
another declaration of the same name has replaced has no unit. -/

namespace GoBindings.Binding

structure CodeUnit where
  /-- The name of the type or class. -/
  name : String
  decls : List Go.Decl
  /-- The packages that the declarations use, in order. -/
  imports : List String
deriving Repr

/-- The units of a module, by the file they go to. -/
structure ModuleUnits where
  classes : List CodeUnit
  types : List CodeUnit
deriving Repr

/-! ## Data types -/

def embedded (base : String) : Go.Field where
  name := none
  type := .named base
  doc := []

/-- The struct field of a property. -/
def propertyField (registry : Registry) (style : OptionalStyle) (owner : String)
    (f : Interface.Field) : Except Failure Go.Field := do
  let type ← Resolved.ofType registry (.property owner f.name) f.type
  return { name := some (Identifier.exported f.name), type := type.goType style, doc := f.doc }

def enumConstants (type : String) (values : List String) : List Go.Const :=
  values.map fun value =>
    { name := Identifier.enumConstant type value, type, value := .string value }

def stringerFunc (type : String) : Go.Func where
  doc := ["String implements fmt.Stringer."]
  receiver := some { name := "t", type := .named type }
  name := "String"
  params := []
  results := [.string]
  body := [.return [.call (.ident "string") [.ident "t"]]]

def enumDecls (t : Interface.DataType) (values : List String) : Except Failure (List Go.Decl) := do
  let constants := enumConstants t.name values
  ensureUnique t.name .enumConstant (constants.map Go.Const.name)
  let block := if constants.isEmpty then [] else [Go.Decl.consts constants]
  return .type { doc := t.doc, name := t.name, body := .like .string } ::
    .func (stringerFunc t.name) :: block

/-- An embedded struct goes by the name of its type. -/
def recordDecls (registry : Registry) (style : OptionalStyle) (t : Interface.DataType)
    (base : Option String) (fields : List Interface.Field) : Except Failure (List Go.Decl) := do
  let own ← fields.mapM fun f => propertyField registry style t.name f
  ensureUnique t.name .field (base.toList ++ own.filterMap Go.Field.name)
  return [.type {
    doc := t.doc, name := t.name, body := .struct (base.toList.map embedded ++ own) }]

def typeUnit (registry : Registry) (code : CodeSettings) (t : Interface.DataType) :
    Except Failure CodeUnit := do
  let decls ← match t.shape with
    | .enum values => enumDecls t values
    | .record base fields => recordDecls registry code.optionalStyle t base fields
  return { name := t.name, decls, imports := [] }

/-! ## Classes -/

/-- The interface of a class, on top of that of its base. -/
def capabilityDecl (code : CodeSettings) (c : Interface.Class) (methods : List Method) :
    Go.TypeDecl where
  doc := [capabilityName c.name ++ s!" is implemented by {c.name} and every class extending it."]
  name := capabilityName c.name
  body := .interface
    ((c.base.toList.filter fun base => base != code.rootClass).map capabilityName)
    (methods.map fun m => m.signature code)

/-- What comes first in the struct of a class: its base, or the connection to the server. -/
def classHead (base : Option String) : Go.Field :=
  match base with
  | some base => embedded base
  | none => { name := some "connection", type := .pointer (.named "Connection"), doc := [] }

def classStruct (c : Interface.Class) (properties : List Go.Field) : Go.TypeDecl where
  doc := c.doc
  name := c.name
  body := .struct (classHead c.base :: properties)

/-- The declarations of a class, in order. The root class has no capability interface. -/
def classDecls (code : CodeSettings) (c : Interface.Class) (methods : List Method)
    (properties : List Go.Field) (seeds : List Seed) : List Go.Decl :=
  (if c.name = code.rootClass then [] else [.type (capabilityDecl code c methods)]) ++
    [.type (classStruct c properties), .func (constructorFunc code c.name seeds)] ++
    methods.map fun m => .func (m.stub code c.name)

def classImports (code : CodeSettings) (methods : List Method) (seeds : List Seed) :
    List String :=
  NameSet.ofList
    (seeds.flatMap Seed.packages ++ methods.flatMap fun m => m.packages code.optionalStyle)

def classUnit (registry : Registry) (code : CodeSettings) (c : Interface.Class) :
    Except Failure CodeUnit := do
  let methods ← c.methods.mapM fun m => Method.ofInterface registry c.name m
  let properties ← c.properties.mapM fun f => propertyField registry code.optionalStyle c.name f
  ensureUnique c.name .member
    (c.base.toList ++ properties.filterMap Go.Field.name ++ methods.map Method.goName)
  let seeds ← c.constructorParams.mapM fun f => Seed.ofField registry c.name f
  return {
    name := c.name
    decls := classDecls code c methods properties seeds
    imports := classImports code methods seeds }

/-! ## Modules -/

/-- The registry has the declaration at this position of this source for its name. -/
def isOwner (registry : Registry) (source : Path) (name : String) (index : Nat) : Bool :=
  match registry.find? name with
  | some entry => entry.origin.same source && entry.index == index
  | none => true

/-- The data types that count, in order. -/
def ownedTypes (registry : Registry) (m : Interface.Module) : List Interface.DataType :=
  (m.types.zipIdx.filter fun (t, index) => isOwner registry m.source t.name index).map Prod.fst

def ModuleUnits.ofModule (registry : Registry) (code : CodeSettings) (m : Interface.Module) :
    Except Failure ModuleUnits := do
  let types ← (ownedTypes registry m).mapM fun t => typeUnit registry code t
  let classes ← m.classes.mapM fun c => classUnit registry code c
  return { classes, types }

/-! ## One package for all modules -/

/-- The names that a unit adds to the package, each with the unit. -/
def CodeUnit.packageNames (u : CodeUnit) : List (String × String) :=
  (u.decls.flatMap Go.Decl.packageNames).map fun name => (name, u.name)

/-- The first name that is declared again, the unit that does so, and the unit that declared it
    first. -/
def firstClash (declared : List (String × String)) :
    List (String × String) → Option (String × String × String)
  | [] => none
  | (name, unit) :: rest =>
    match declared.lookup name with
    | some first => some (name, unit, first)
    | none => firstClash ((name, unit) :: declared) rest

def ensurePackageNamesUnique (modules : List ModuleUnits) : Except Failure Unit :=
  let units := modules.flatMap fun m => m.types ++ m.classes
  match firstClash [] (units.flatMap CodeUnit.packageNames) with
  | some (name, unit, first) => .error (.unrenderable unit (.taken name first))
  | none => .ok ()

end GoBindings.Binding
