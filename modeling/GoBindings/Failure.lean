import GoBindings.FileTree
import GoBindings.Glob.Pattern
import GoBindings.Schema.Reading
import GoBindings.TypeExpr

set_option autoImplicit false

/-! # Failures and notices

A run ends at its first failure. A notice tells of something that was passed over. Both are causes,
not texts; their wording is in one place each. -/

namespace GoBindings

/-! ## Places in a description -/

/-- Where a type is referred to. -/
inductive Place
  | property (owner name : String)
  | parameter (owner method name : String)
  | result (owner method : String)
  | constructorParameter (owner name : String)
  | base (owner : String)
  /-- A place outside of any declaration. -/
  | described (label : String)
deriving DecidableEq, Repr

namespace Place

def label : Place → String
  | property owner name => s!"{owner}.{name}"
  | parameter owner method name => s!"{owner}.{method}({name})"
  | result owner method => s!"{owner}.{method} return"
  | constructorParameter owner name => s!"{owner}(constructor {name})"
  | base owner => s!"{owner} (extends)"
  | described label => label

end Place

/-! ## Failures -/

inductive SettingsFault
  | noGlobs
  | blankGlob (glob : String)
  | badPackageName (name : String)
  | badRootClass (name : String)
  | emptySchemaSuffix
  | badTypesSuffix (suffix : String)
  | unreadable (path : Path) (fault : FileFault)
  | malformed (path : Path)
  | badPattern (pattern : String) (error : Glob.PatternError)
  | nothingMatched (patterns : List String) (root : Path)
  /-- Two sources are to be written to one file. -/
  | sameOutput (first second output : Path)
deriving DecidableEq, Repr

namespace SettingsFault

def message : SettingsFault → String
  | noGlobs => "at least one schema glob is required"
  | blankGlob glob => s!"empty schema glob `{glob}`"
  | badPackageName name => s!"package name `{name}` is not a valid Go identifier"
  | badRootClass name => s!"root class `{name}` is not a valid identifier"
  | emptySchemaSuffix => "schema suffix must not be empty"
  | badTypesSuffix suffix => s!"complex types suffix `{suffix}` must be alphanumeric"
  | unreadable path fault => s!"failed to read {path.text}: " ++ fault.message
  | malformed path => s!"{path.text}: malformed TOML"
  | badPattern pattern error => s!"invalid schema glob `{pattern}`: " ++ error.message
  | nothingMatched patterns root =>
    "no schema files matched " ++ ", ".intercalate patterns ++ s!" under {root.text}"
  | sameOutput first second output =>
    s!"{first.text} and {second.text} both map to output file {output.text}"

end SettingsFault

/-- Why a description is refused. -/
inductive DescriptionFault
  | unread (error : Schema.ReadError)
  | badType (place : Place) (error : TypeExprError)
deriving DecidableEq, Repr

namespace DescriptionFault

def message : DescriptionFault → String
  | unread error => error.message
  | badType place error => place.label ++ ": " ++ error.message

end DescriptionFault

/-- Kinds of names of which one declaration must not have two alike. -/
inductive NameKind
  | parameter
  | field
  | member
  | enumConstant
deriving DecidableEq, Repr

/-- Why no code can be written for a declaration. -/
inductive NameClash
  | repeated (kind : NameKind) (name : String)
  /-- Another declaration `first` has given the name to something in the same package. -/
  | taken (name first : String)
deriving DecidableEq, Repr

namespace NameKind

def word : NameKind → String
  | parameter => "parameter"
  | field => "field"
  | member => "member"
  | enumConstant => "enum constant"

end NameKind

namespace NameClash

def message : NameClash → String
  | repeated kind name => "duplicate " ++ kind.word ++ s!" `{name}`"
  | taken name first => s!"`{name}` is already declared by {first}"

end NameClash

inductive Failure
  | badSettings (fault : SettingsFault)
  | unreadable (path : Path) (fault : FileFault)
  | badDescription (path : Path) (fault : DescriptionFault)
  | unresolved (name : String) (place : Place)
  | declaredTwice (name : String) (first second : Path)
  | inheritanceCycle (name : String)
  | unrenderable (unit : String) (clash : NameClash)
  | unwritten (path : Path) (fault : FileFault)
deriving DecidableEq, Repr

namespace Failure

def message : Failure → String
  | badSettings fault => "invalid configuration: " ++ fault.message
  | unreadable path fault => s!"failed to read schema {path.text}: " ++ fault.message
  | badDescription path fault => s!"failed to parse schema {path.text}: " ++ fault.message
  | unresolved name place => s!"unresolved type `{name}` referenced by " ++ place.label
  | declaredTwice name first second =>
    s!"type `{name}` declared in {first.text} is declared again in {second.text}"
  | inheritanceCycle name => s!"inheritance cycle through remote class `{name}`"
  | unrenderable unit clash => s!"failed to render {unit}: " ++ clash.message
  | unwritten path fault => s!"failed to write {path.text}: " ++ fault.message

end Failure

/-! ## Notices -/

inductive Notice
  | nothingMatched (pattern : String)
  | redeclared (name : String) (first second : Path)
  | rootMissing (root : String)
  | defaultIgnored (place : Place) (value : Json.Value)
deriving Repr

namespace Notice

def message : Notice → String
  | nothingMatched _ => "Schema pattern matched no files"
  | redeclared _ _ _ => "Complex type redeclared, later declaration wins"
  | rootMissing _ => "Root class is not declared by any schema"
  | defaultIgnored _ _ => "Ignoring default value that does not fit its type"

/-- The particulars, by name. -/
def details : Notice → List (String × String)
  | nothingMatched pattern => [("pattern", pattern)]
  | redeclared name first second =>
    [("name", name), ("first", first.text), ("second", second.text)]
  | rootMissing root => [("root", root)]
  | defaultIgnored place value => [("context", place.label), ("default", value.compact)]

end Notice

end GoBindings
