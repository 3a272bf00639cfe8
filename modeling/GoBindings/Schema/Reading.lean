import GoBindings.Schema.Document
import GoBindings.Text.Case
import GoBindings.Text.Quoted

set_option autoImplicit false

/-! # Reading an interface description

A description is a data text. Its records are objects, whose members may come in any order and may
have keys nobody asks for, or lists of their fields in order. Reading goes through the text once, so
the error that is reported is the first one in the text. -/

namespace GoBindings.Schema

/-! ## Errors -/

/-- What stands where something else should stand. -/
inductive Found
  | null
  | boolean (b : Bool)
  | number (n : Json.Number)
  | text (s : String)
  | list
  | object
deriving DecidableEq, Repr

inductive Wanted
  | text
  | boolean
  | list
  | record (title : String)
deriving DecidableEq, Repr

inductive ReadError
  /-- The text breaks the rules of the notation, or a value cannot be represented. -/
  | malformed
  | duplicateField (name : String)
  | missingField (name : String)
  /-- A record written as a list ends before its required field number `length`. -/
  | wrongLength (length : Nat) (title : String) (fieldCount : Nat)
  | wrongType (found : Found) (wanted : Wanted)
deriving DecidableEq, Repr

namespace Found

def message : Found → String
  | null => "null"
  | boolean b => if b then "boolean `true`" else "boolean `false`"
  | number (.whole n) => s!"integer `{n}`"
  | number (.real x) => "floating point `" ++ (Json.Number.real x).text ++ "`"
  | text s => "string " ++ Text.quoted s
  | list => "sequence"
  | object => "map"

end Found

namespace Wanted

def message : Wanted → String
  | text => "a string"
  | boolean => "a boolean"
  | list => "a sequence"
  | record title => s!"struct {title}"

end Wanted

namespace ReadError

def message : ReadError → String
  | malformed => "malformed JSON"
  | duplicateField name => s!"duplicate field `{name}`"
  | missingField name => s!"missing field `{name}`"
  | wrongLength length title count =>
    let elements := if count = 1 then "element" else "elements"
    s!"invalid length {length}, expected struct {title} with {count} {elements}"
  | wrongType found wanted =>
    "invalid type: " ++ found.message ++ ", expected " ++ wanted.message

end ReadError

/-! ## Values of one kind -/

/-- Reads a tree inside which lists and objects may be nested up to the given depth. -/
abbrev Reading (α : Type) := Nat → Json.Tree → Except ReadError α

namespace Reading

/-- The error for a tree of the wrong kind. -/
def mismatch (wanted : Wanted) : Json.Tree → ReadError
  | .fault | .number none | .text none => .malformed
  | .null => .wrongType .null wanted
  | .boolean b => .wrongType (.boolean b) wanted
  | .number (some n) => .wrongType (.number n) wanted
  | .text (some s) => .wrongType (.text s) wanted
  | .list _ => .wrongType .list wanted
  | .object _ => .wrongType .object wanted

def text : Reading String
  | _, .text (some s) => .ok s
  | _, t => .error (mismatch .text t)

def boolean : Reading Bool
  | _, .boolean b => .ok b
  | _, t => .error (mismatch .boolean t)

def value : Reading Json.Value := fun depth t =>
  match Json.Value.ofTree depth t with
  | some v => .ok v
  | none => .error .malformed

/-- Absent if null is written. -/
def optional {α : Type} (read : Reading α) : Reading (Option α)
  | _, .null => .ok none
  | depth, t => some <$> read depth t

def list {α : Type} (read : Reading α) : Reading (List α)
  | depth + 1, .list items => items.mapM (read depth)
  | 0, .list _ => .error .malformed
  | _, t => .error (mismatch .list t)

end Reading

/-! ## Records -/

/-- A field of records of type `ρ`. -/
structure Field (ρ : Type) where
  name : String
  required : Bool
  /-- Reads the field's value; the result puts it into a record. -/
  read : Reading (ρ → ρ)

namespace Field

/-- The key is the field's name, or that with its first letter in upper case. -/
def accepts {ρ : Type} (f : Field ρ) (key : String) : Bool :=
  key == f.name || key.toList == Text.upperFirst f.name.toList

def mandatory {ρ α : Type} (name : String) (read : Reading α) (put : ρ → α → ρ) : Field ρ where
  name := name
  required := true
  read := fun depth t => (fun v r => put r v) <$> read depth t

def optional {ρ α : Type} (name : String) (read : Reading α) (put : ρ → α → ρ) : Field ρ :=
  { mandatory name read put with required := false }

end Field

/-- How records of type `ρ` are written. -/
structure Layout (ρ : Type) where
  title : String
  /-- In the order in which they stand when the record is written as a list. -/
  fields : List (Field ρ)
  /-- The record before any field is read. -/
  blank : ρ

namespace Layout

variable {ρ : Type}

/-- Reads the members of an object into a record, of which the fields `seen` are filled. -/
def readMembers (l : Layout ρ) (depth : Nat) (seen : List String) (r : ρ) :
    List Json.Member → Except ReadError (List String × ρ)
  | [] => .ok (seen, r)
  | (none, _) :: _ => .error .malformed
  | (some key, t) :: rest =>
    match l.fields.find? fun f => f.accepts key with
    | none => if t.isIntact then l.readMembers depth seen r rest else .error .malformed
    | some f =>
      if seen.contains f.name then .error (.duplicateField f.name)
      else do
        let put ← f.read depth t
        l.readMembers depth (f.name :: seen) (put r) rest

/-- The required fields must have been seen. -/
def checkSeen (l : Layout ρ) (seen : List String) : Except ReadError Unit :=
  match l.fields.find? fun f => f.required && !seen.contains f.name with
  | some f => .error (.missingField f.name)
  | none => .ok ()

def readObject (l : Layout ρ) (depth : Nat) (members : List Json.Member) : Except ReadError ρ := do
  let (seen, r) ← l.readMembers depth [] l.blank members
  l.checkSeen seen
  return r

/-- Reads the fields from number `index` on from the items of a list. -/
def readItems (l : Layout ρ) (depth index : Nat) (r : ρ) :
    List (Field ρ) → List Json.Tree → Except ReadError ρ
  | [], [] => .ok r
  | [], _ :: _ => .error .malformed
  | f :: fs, [] =>
    if f.required then .error (.wrongLength index l.title l.fields.length)
    else l.readItems depth (index + 1) r fs []
  | f :: fs, t :: ts => do
    let put ← f.read depth t
    l.readItems depth (index + 1) (put r) fs ts

def read (l : Layout ρ) : Reading ρ
  | depth + 1, .object members => l.readObject depth members
  | depth + 1, .list items => l.readItems depth 0 l.blank l.fields items
  | 0, .object _ | 0, .list _ => .error .malformed
  | _, t => .error (Reading.mismatch (.record l.title) t)

end Layout

/-! ## The records of a description -/

def Property.layout : Layout Property where
  title := "Property"
  fields := [
    .mandatory "name" .text fun r v => { r with name := v },
    .mandatory "type" .text fun r v => { r with type := v },
    .optional "doc" .text fun r v => { r with doc := v },
    .optional "optional" .boolean fun r v => { r with optional := v },
    .optional "defaultValue" (.optional .value) fun r v => { r with defaultValue := v }]
  blank := { name := "", type := "", doc := "", optional := false, defaultValue := none }

def Result.layout : Layout Result where
  title := "ReturnSpec"
  fields := [
    .mandatory "type" .text fun r v => { r with type := v },
    .optional "doc" .text fun r v => { r with doc := v }]
  blank := { type := "", doc := "" }

def Method.layout : Layout Method where
  title := "Method"
  fields := [
    .mandatory "name" .text fun r v => { r with name := v },
    .optional "doc" .text fun r v => { r with doc := v },
    .optional "params" (.list Property.layout.read) fun r v => { r with params := v },
    .optional "return" (.optional Result.layout.read) fun r v => { r with result := v }]
  blank := { name := "", doc := "", params := [], result := none }

def Constructor.layout : Layout Constructor where
  title := "Constructor"
  fields := [.optional "params" (.list Property.layout.read) fun _ v => { params := v }]
  blank := { params := [] }

def RemoteClass.layout : Layout RemoteClass where
  title := "RemoteClass"
  fields := [
    .mandatory "name" .text fun r v => { r with name := v },
    .optional "doc" .text fun r v => { r with doc := v },
    .optional "extends" (.optional .text) fun r v => { r with baseText := v },
    .optional "properties" (.list Property.layout.read) fun r v => { r with properties := v },
    .optional "methods" (.list Method.layout.read) fun r v => { r with methods := v },
    .optional "events" (.list .text) fun r v => { r with events := v },
    .optional "constructor" (.optional Constructor.layout.read)
      fun r v => { r with constructor := v }]
  blank :=
    { name := "", doc := "", baseText := none, properties := [], methods := [], events := [],
      constructor := none }

def ComplexType.layout : Layout ComplexType where
  title := "ComplexType"
  fields := [
    .optional "typeFormat" (.optional .text) fun r v => { r with format := v },
    .mandatory "name" .text fun r v => { r with name := v },
    .optional "doc" .text fun r v => { r with doc := v },
    .optional "values" (.list .text) fun r v => { r with values := v },
    .optional "properties" (.list Property.layout.read) fun r v => { r with properties := v },
    .optional "extends" (.optional .text) fun r v => { r with baseText := v }]
  blank :=
    { format := none, name := "", doc := "", values := [], properties := [], baseText := none }

def Document.layout : Layout Document where
  title := "KmdDocument"
  fields := [
    .optional "remoteClasses" (.list RemoteClass.layout.read)
      fun r v => { r with remoteClasses := v },
    .optional "complexTypes" (.list ComplexType.layout.read)
      fun r v => { r with complexTypes := v }]
  blank := { remoteClasses := [], complexTypes := [] }

/-! ## The whole text -/

/-- Every line break becomes a space. The notation forbids line breaks in texts, and documentation
    is often written with them. -/
def withoutLineBreaks : List Char → List Char
  | [] => []
  | '\r' :: '\n' :: cs => ' ' :: withoutLineBreaks cs
  | c :: cs => (if c == '\n' || c == '\r' then ' ' else c) :: withoutLineBreaks cs

/-- How often lists and objects may be nested. -/
def maxDepth : Nat := 127

def Document.parse (text : String) : Except ReadError Document := do
  let (tree, whole) := Json.read (withoutLineBreaks text.toList)
  let document ← Document.layout.read maxDepth tree
  if whole then return document else throw .malformed

end GoBindings.Schema
