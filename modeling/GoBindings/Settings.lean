import GoBindings.Failure
import GoBindings.Identifier

set_option autoImplicit false

/-! # Settings

Where descriptions are found, where code goes, and how it looks. -/

namespace GoBindings

/-- How a type that may be absent is written. -/
inductive OptionalStyle
  /-- Like the type itself. -/
  | bare
  /-- As a pointer, unless the type has an absent value of its own. -/
  | pointer
deriving DecidableEq, Repr

/-- What a method with a structured result returns if the call fails. -/
inductive ReturnPolicy
  /-- No value, and the error. -/
  | absent
  /-- An empty value, and the error. -/
  | zeroValue
deriving DecidableEq, Repr

/-- How the code looks. -/
structure CodeSettings where
  /-- The class at the root of the model. It has no capability interface. -/
  rootClass : String
  /-- The end of the name of a description, which the name of its code does not have. -/
  schemaSuffix : String
  /-- The end of the name of a file with complex types. -/
  typesSuffix : String
  optionalStyle : OptionalStyle
  returnPolicy : ReturnPolicy
  /-- A later complex type replaces an earlier one of the same name. -/
  allowOverrides : Bool
deriving DecidableEq, Repr

structure Settings where
  /-- The directory from which patterns are looked for. -/
  inputRoot : Path
  globs : List String
  outputDir : Path
  packageName : String
  code : CodeSettings
deriving DecidableEq, Repr

namespace CodeSettings

def default : CodeSettings where
  rootClass := "MediaObject"
  schemaSuffix := ".kmd.json"
  typesSuffix := "complex_types"
  optionalStyle := .bare
  returnPolicy := .absent
  allowOverrides := false

end CodeSettings

namespace Settings

def default : Settings where
  inputRoot := ⟨"."⟩
  globs := []
  outputDir := ⟨"kurento"⟩
  packageName := "kurento"
  code := .default

def isBlank (s : String) : Bool := (Text.trim s.toList).isEmpty

/-- A nonempty text over the alphabet of identifiers. -/
def isNamePart (s : String) : Bool := !s.isEmpty && s.toList.all Identifier.isPart

/-- The first reason why no valid package could be written with these settings. -/
def fault? (s : Settings) : Option SettingsFault :=
  if s.globs.isEmpty then some .noGlobs
  else match s.globs.find? isBlank with
    | some glob => some (.blankGlob glob)
    | none =>
      if !Identifier.isValid s.packageName then some (.badPackageName s.packageName)
      else if !Identifier.isValid s.code.rootClass then some (.badRootClass s.code.rootClass)
      else if s.code.schemaSuffix.isEmpty then some .emptySchemaSuffix
      else if !isNamePart s.code.typesSuffix then some (.badTypesSuffix s.code.typesSuffix)
      else none

def validate (s : Settings) : Except Failure Unit :=
  match s.fault? with
  | some fault => .error (.badSettings fault)
  | none => .ok ()

end Settings

end GoBindings
