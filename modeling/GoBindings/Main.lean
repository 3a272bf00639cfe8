import GoBindings.CommandLine
import GoBindings.LogFilter

set_option autoImplicit false

/-! # The program

Takes a picture of the directories that a command is about, runs the command on that picture, and
carries over what the run has changed. All decisions are made in `CommandLine.run`. -/

namespace GoBindings.Program

/-- The text of a location. -/
def locationText (location : Location) : String := "/" ++ "/".intercalate location

/-- Adds a directory and everything below it; files that are new come without contents, and links
    are left out. -/
partial def scan (t : FileTree) (location : Location) : IO FileTree := do
  let directory := (← IO.currentDir) / locationText location
  if !(← directory.isDir) then return t
  let mut t := if location.isEmpty then t else t.insert location .directory
  for entry in ← directory.readDir do
    let inside := location ++ [entry.fileName]
    match (← entry.path.symlinkMetadata).type with
    | .dir => t ← scan t inside
    | .file => if (t.get? inside).isNone then t := t.insert inside (.file .empty)
    | _ => pure ()
  return t

/-- Adds the directories above a location that are there. -/
def addAbove (t : FileTree) (location : Location) : IO FileTree := do
  let mut t := t
  for length in [1 : location.length] do
    let above := location.take length
    if ← ((← IO.currentDir) / locationText above).isDir then t := t.insert above .directory
  return t

/-- Adds all of the directory that a path leads to. -/
def addDirectory (t : FileTree) (p : Path) : IO FileTree := do
  let location := t.locate p
  scan (← addAbove t location) location

/-- Adds a file with its contents. -/
def addFile (t : FileTree) (p : Path) : IO FileTree := do
  let location := t.locate p
  let file := (← IO.currentDir) / locationText location
  if !(← file.pathExists) || (← file.isDir) then addAbove t location
  else return (← addAbove t location).insert location (.file (← IO.FS.readBinFile file))

/-- The part of a pattern before its first wildcard, up to a separator. -/
def patternBase (root : Path) (pattern : String) : Path :=
  let plain := (root.join ⟨pattern⟩).text.toList.takeWhile fun c => c != '*' && c != '?' && c != '['
  ⟨String.ofList (plain.reverse.dropWhile (· != '/')).reverse⟩

/-- The picture for a command with given options. -/
def picture (workingDirectory : Location) (o : CommandLine.Options) : IO FileTree := do
  let mut t : FileTree := ⟨workingDirectory, []⟩
  t ← addAbove t (workingDirectory ++ [CommandLine.settingsFileName])
  t ← addFile t (o.config.getD ⟨CommandLine.settingsFileName⟩)
  match CommandLine.settings t o with
  | .error _ => return t
  | .ok s =>
    for pattern in s.globs do
      t ← addDirectory t (patternBase s.inputRoot pattern)
    t ← addDirectory t s.outputDir
    match (Compilation.findSources t s.inputRoot s.globs).result with
    | .error _ => return t
    | .ok paths =>
      for path in paths do
        t ← addFile t path
      return t

/-- Carries over what is new in a tree. -/
def carryOver (before after : FileTree) : IO Unit := do
  for (location, node) in after.below [] do
    if before.get? location ≠ some node then
      let place := (← IO.currentDir) / locationText location
      match node with
      | .directory => if !(← place.isDir) then IO.FS.createDir place
      | .file contents => IO.FS.writeBinFile place contents

def noticeLine (n : Notice) : String :=
  let details := n.details.map fun (name, value) => s!" {name}={value}"
  "WARN " ++ n.message ++ String.join details

/-- Tells what a run has logged, as far as the filter shows it. -/
def report (filter : String) (r : CommandLine.Outcome) : IO Unit := do
  if LogFilter.shows filter "kmdgen_core" "warn" then
    for n in r.notices do
      IO.eprintln (noticeLine n)
  if LogFilter.shows filter "kmdgen_cli" "error" then
    if let some failure := r.failure then
      IO.eprintln ("ERROR " ++ failure.message)

def run (args : List String) : IO UInt32 := do
  match CommandLine.readArguments args with
  | .information =>
    IO.print CommandLine.helpText
    return 0
  | .wrongUse =>
    IO.eprint CommandLine.helpText
    return 2
  | .run _ o =>
    let home : Path := ⟨(← IO.currentDir).toString⟩
    let before ← picture ((⟨[], []⟩ : FileTree).locate home) o
    let r := CommandLine.run before args
    carryOver before r.tree
    report (LogFilter.ofValue (← IO.getEnv "KMDGEN_LOG")) r
    IO.print r.output
    return r.code.toUInt32

end GoBindings.Program

def main (args : List String) : IO UInt32 := GoBindings.Program.run args
