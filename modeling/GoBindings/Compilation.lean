import GoBindings.Glob.Search
import GoBindings.Interface.OfSchema
import GoBindings.Output

set_option autoImplicit false

/-! # Compilation

From settings to files. All files are made before the first is written, so a failure on the way
leaves everything as it was. -/

namespace GoBindings.Compilation

/-! ## Sources -/

/-- Adds the paths of a list that are not there yet. -/
def addNew (paths : List Path) : List Path → List Path
  | [] => paths
  | p :: ps => if paths.any p.same then addNew paths ps else addNew (paths ++ [p]) ps

/-- The files that a pattern matches, in order. -/
def filesMatching (t : FileTree) (root : Path) (pattern : String) :
    Except Failure (List Path) :=
  match Glob.Pattern.parse (root.join ⟨pattern⟩).text with
  | .error error => .error (.badSettings (.badPattern pattern error))
  | .ok glob =>
    match glob.search t with
    | .error unlisted => .error (.unreadable unlisted.path unlisted.fault)
    | .ok found => .ok ((found.filter t.isFile).mergeSort Path.le)

/-- Adds the files that a pattern matches to those found before. -/
def addMatching (t : FileTree) (root : Path) (found : List Path) (pattern : String) :
    Logged (List Path) := do
  let matched ← Logged.ofExcept (filesMatching t root pattern)
  if matched.isEmpty then .note (.nothingMatched pattern)
  return addNew found matched

/-- The files that patterns match, by pattern and then in order, each once. -/
def findSources (t : FileTree) (root : Path) (patterns : List String) : Logged (List Path) := do
  let found ← patterns.foldlM (addMatching t root) []
  if found.isEmpty then .fail (.badSettings (.nothingMatched patterns root)) else pure found

def loadSource (t : FileTree) (path : Path) : Except Failure Source :=
  match t.readText path with
  | .ok text => Source.parse path text
  | .error fault => .error (.unreadable path fault)

def loadSources (t : FileTree) (root : Path) (patterns : List String) :
    Logged (List Source) := do
  let paths ← findSources t root patterns
  Logged.ofExcept (paths.mapM fun path => loadSource t path)

/-! ## Code -/

def noteRoot (registry : Registry) (root : String) : Logged Unit :=
  if registry.contains root then pure () else .note (.rootMissing root)

/-- The files for given sources. -/
def compileSources (s : Settings) (sources : List Source) : Logged (List OutputFile) := do
  let registry ← Registry.build s.code.allowOverrides sources
  noteRoot registry s.code.rootClass
  let modules ← sources.mapM Interface.Module.ofSource
  let units ← Logged.ofExcept <|
    modules.mapM fun m => Binding.ModuleUnits.ofModule registry s.code m
  Logged.ofExcept (Binding.ensurePackageNamesUnique units)
  let files := (modules.zip units).flatMap fun (m, u) => Output.ofModule s m.source u
  Logged.ofExcept (Output.checkCollisions files)
  return files

/-! ## Whole runs -/

/-- What a run has seen and made. -/
structure Report where
  sources : Nat
  classes : Nat
  /-- Complex types, replaced ones included. -/
  types : Nat
  /-- Events that classes list; no code is made for them. -/
  events : Nat
  files : List Path
deriving DecidableEq, Repr

def Report.of (sources : List Source) (files : List OutputFile) : Report where
  sources := sources.length
  classes := (sources.flatMap fun s => s.document.remoteClasses).length
  types := (sources.flatMap fun s => s.document.complexTypes).length
  events := (sources.flatMap fun s =>
    s.document.remoteClasses.flatMap Schema.RemoteClass.events).length
  files := files.map OutputFile.path

def compile (t : FileTree) (s : Settings) : Logged (Report × List OutputFile) := do
  Logged.ofExcept s.validate
  let sources ← loadSources t s.inputRoot s.globs
  let files ← compileSources s sources
  return (Report.of sources files, files)

/-- Does everything but write the files. -/
def check (t : FileTree) (s : Settings) : Logged Report := Prod.fst <$> compile t s

/-- Makes the files and writes them; what was written before a failure stays. -/
def generate (t : FileTree) (s : Settings) : FileTree × Logged Report :=
  let compiled := compile t s
  match compiled.result with
  | .error failure => (t, ⟨compiled.notices, .error failure⟩)
  | .ok (report, files) =>
    let (written, outcome) := Output.writeAll t files
    (written, ⟨compiled.notices, outcome.map fun _ => report⟩)

end GoBindings.Compilation
