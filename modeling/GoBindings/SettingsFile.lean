import GoBindings.Settings
import GoBindings.Toml.Reading

set_option autoImplicit false

/-! # Settings files

Every setting may be left out, and no other key may be there. Paths in a settings file are seen from
the directory of that file. -/

namespace GoBindings

open Toml (Value)

namespace OptionalStyle

def ofName? : String → Option OptionalStyle
  | "bare" => some bare
  | "pointer" => some pointer
  | _ => none

end OptionalStyle

namespace ReturnPolicy

def ofName? : String → Option ReturnPolicy
  | "absent" => some absent
  | "zero-value" => some zeroValue
  | _ => none

end ReturnPolicy

namespace Settings

def text? : Value → Option String
  | .text s => some s
  | _ => none

def boolean? : Value → Option Bool
  | .boolean b => some b
  | _ => none

def texts? : Value → Option (List String)
  | .list items => items.mapM text?
  | _ => none

/-- A list or a table with nothing in it. -/
def isEmptyValue : Value → Bool
  | .list items => items.isEmpty
  | .table _ entries => entries.isEmpty
  | _ => false

/-- A name from a fixed choice: a text, or the only key of a table, without a value. -/
def choice? {α : Type} (ofName? : String → Option α) : Value → Option α
  | .text name => ofName? name
  | .table _ [(name, v)] => if isEmptyValue v then ofName? name else none
  | _ => none

/-- How a setting is changed to a value, if it takes that value. -/
abbrev Setter (σ : Type) := σ → Value → Option σ

/-- The settings for code by their keys, in the order they have in a list. -/
def codeSetters : List (String × Setter CodeSettings) := [
  ("rootClass", fun s v => (text? v).map fun x => { s with rootClass := x }),
  ("schemaSuffix", fun s v => (text? v).map fun x => { s with schemaSuffix := x }),
  ("complexTypesSuffix", fun s v => (text? v).map fun x => { s with typesSuffix := x }),
  ("optionalStyle", fun s v =>
    (choice? OptionalStyle.ofName? v).map fun x => { s with optionalStyle := x }),
  ("returnPolicy", fun s v =>
    (choice? ReturnPolicy.ofName? v).map fun x => { s with returnPolicy := x }),
  ("allowTypeOverrides", fun s v => (boolean? v).map fun x => { s with allowOverrides := x })]

/-- Sets what the entries of a table say; every key must be known. -/
def setAll {σ : Type} (setters : List (String × Setter σ)) (s : σ) (entries : Toml.Entries) :
    Option σ :=
  entries.foldlM (fun s (key, v) => do (← setters.lookup key) s v) s

/-- Sets what the items of a list say; items beyond the last setting do not count. -/
def setInOrder {σ : Type} (setters : List (String × Setter σ)) (s : σ) (items : List Value) :
    Option σ :=
  (setters.zip items).foldlM (fun s (setter, v) => setter.2 s v) s

def code? : Value → Option CodeSettings
  | .table _ entries => setAll codeSetters .default entries
  | .list items => setInOrder codeSetters .default items
  | _ => none

def setters : List (String × Setter Settings) := [
  ("inputRoot", fun s v => (text? v).map fun x => { s with inputRoot := ⟨x⟩ }),
  ("schemaGlobs", fun s v => (texts? v).map fun x => { s with globs := x }),
  ("outputDir", fun s v => (text? v).map fun x => { s with outputDir := ⟨x⟩ }),
  ("packageName", fun s v => (text? v).map fun x => { s with packageName := x }),
  ("codegen", fun s v => (code? v).map fun x => { s with code := x })]

def parse (text : String) : Option Settings := do setAll setters default (← Toml.parse text)

/-- The settings with their paths seen from a directory; absolute paths stay. -/
def seenFrom (directory : Path) (s : Settings) : Settings :=
  { s with inputRoot := directory.join s.inputRoot, outputDir := directory.join s.outputDir }

/-- The settings of a file. -/
def load (t : FileTree) (path : Path) : Except Failure Settings :=
  match t.readText path with
  | .error fault => .error (.badSettings (.unreadable path fault))
  | .ok text =>
    match parse text with
    | none => .error (.badSettings (.malformed path))
    | some s =>
      match path.parent with
      | some directory => .ok (if directory.text.isEmpty then s else s.seenFrom directory)
      | none => .ok s

end Settings

end GoBindings
