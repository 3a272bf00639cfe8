import GoBindings.Binding.CodeUnit
import GoBindings.Go.Printer

set_option autoImplicit false

/-! # Output files

The code of a module goes to a file named after its source, and its data types, if there are any, to
a second file. -/

namespace GoBindings

structure OutputFile where
  path : Path
  /-- The description the file was made from. -/
  source : Path
  contents : String
deriving DecidableEq, Repr

namespace Output

/-- What the files of a source are named after: its file name without the suffix, with underscores
    for dots, in lower case. -/
def stem (source : Path) (suffix : String) : String :=
  let name := (source.fileName.getD "").toList
  let front := (Text.beforeEnding? suffix.toList name).getD name
  String.ofList (Text.lower (front.map fun c => if c == '.' then '_' else c))

def header (source : Path) : String :=
  let name := source.fileName.getD source.text
  s!"Code generated by kmdgen from {name}. DO NOT EDIT."

def fileOf (packageName : String) (source : Path) (units : List Binding.CodeUnit) : Go.File where
  header := [header source]
  package := packageName
  imports := NameSet.ofList (units.flatMap Binding.CodeUnit.imports)
  decls := units.flatMap Binding.CodeUnit.decls

def outputFile (s : Settings) (source : Path) (name : String) (units : List Binding.CodeUnit) :
    OutputFile where
  path := s.outputDir.join ⟨name ++ ".go"⟩
  source := source
  contents := (fileOf s.packageName source units).print

/-- The files of a module: always one for its classes, and one for its data types. -/
def ofModule (s : Settings) (source : Path) (units : Binding.ModuleUnits) : List OutputFile :=
  let name := stem source s.code.schemaSuffix
  let types :=
    if units.types.isEmpty then []
    else [outputFile s source (name ++ "_" ++ s.code.typesSuffix) units.types]
  outputFile s source name units.classes :: types

/-- The first file whose path an earlier file has, and that earlier file. -/
def firstCollision (earlier : List OutputFile) :
    List OutputFile → Option (OutputFile × OutputFile)
  | [] => none
  | file :: rest =>
    match earlier.find? fun e => e.path.same file.path with
    | some first => some (first, file)
    | none => firstCollision (file :: earlier) rest

def checkCollisions (files : List OutputFile) : Except Failure Unit :=
  match firstCollision [] files with
  | some (first, second) =>
    .error (.badSettings (.sameOutput first.source second.source second.path))
  | none => .ok ()

/-! ## Writing -/

/-- Makes the directory that a file goes to. -/
def prepare (t : FileTree) (path : Path) : FileTree × Except Failure Unit :=
  match path.parent with
  | none => (t, .ok ())
  | some parent =>
    if parent.text.isEmpty then (t, .ok ())
    else
      match t.makeDirectories parent with
      | (made, .ok ()) => (made, .ok ())
      | (made, .error fault) => (made, .error (.unwritten parent fault))

/-- Writes a file, with the directories it needs. -/
def write (t : FileTree) (file : OutputFile) : FileTree × Except Failure Unit :=
  match prepare t file.path with
  | (prepared, .error failure) => (prepared, .error failure)
  | (prepared, .ok ()) =>
    match prepared.writeFile file.path file.contents.toUTF8 with
    | .ok written => (written, .ok ())
    | .error fault => (prepared, .error (.unwritten file.path fault))

/-- Writes files in turn, up to the first that cannot be written. -/
def writeAll (t : FileTree) : List OutputFile → FileTree × Except Failure Unit
  | [] => (t, .ok ())
  | file :: rest =>
    match write t file with
    | (written, .ok ()) => writeAll written rest
    | (written, .error failure) => (written, .error failure)

end Output

end GoBindings
