import GoBindings.Compilation
import GoBindings.SettingsFile

set_option autoImplicit false

/-! # The command line

Two commands take the same options: `check` does everything but write the files, `generate` writes
them. The exit code is 2 for a wrong use of the command line, 1 for a failure, and 0 otherwise. -/

namespace GoBindings.CommandLine

inductive Command
  | generate
  | check
deriving DecidableEq, Repr

/-- What the options of a command say; flags go over the settings file. -/
structure Options where
  config : Option Path
  globs : List String
  inputRoot : Option Path
  outputDir : Option Path
  packageName : Option String
deriving DecidableEq, Repr

inductive Request
  | run (command : Command) (options : Options)
  /-- A help or version text is asked for. -/
  | information
  | wrongUse
deriving DecidableEq, Repr

/-! ## Options -/

namespace Options

def none : Options := ⟨.none, [], .none, .none, .none⟩

/-- A path that is given once and is not empty. -/
def path? (earlier : Option Path) (value : String) : Option Path :=
  if earlier.isSome || value.isEmpty then .none else some ⟨value⟩

/-- Sets an option to a value. All but the list of patterns can be given once. -/
def set (o : Options) (name value : String) : Option Options :=
  match name with
  | "config" => (path? o.config value).map fun p => { o with config := some p }
  | "schema" => some { o with globs := o.globs ++ [value] }
  | "input-root" => (path? o.inputRoot value).map fun p => { o with inputRoot := some p }
  | "output-dir" => (path? o.outputDir value).map fun p => { o with outputDir := some p }
  | "package" =>
    if o.packageName.isSome then .none else some { o with packageName := some value }
  | _ => .none

def names : List String := ["config", "schema", "input-root", "output-dir", "package"]

end Options

/-- An argument by its form. -/
inductive Argument
  /-- Two dashes alone: no options after them. -/
  | separator
  | long (name : String) (value : Option String)
  /-- One dash and letters. -/
  | short (letters : List Char)
  | plain (text : String)
deriving DecidableEq, Repr

namespace Argument

def ofText (text : String) : Argument :=
  match text.toList with
  | ['-', '-'] => separator
  | '-' :: '-' :: cs =>
    match cs.dropWhile (· != '=') with
    | _ :: value => long (String.ofList (cs.takeWhile (· != '='))) (some (String.ofList value))
    | [] => long (String.ofList cs) none
  | '-' :: c :: cs => short (c :: cs)
  | _ => plain text

def asksHelp : Argument → Bool
  | long "help" none => true
  | short ('h' :: _) => true
  | _ => false

def asksVersion : Argument → Bool
  | long "version" none => true
  | short ('V' :: _) => true
  | _ => false

end Argument

/-- Reads the arguments of a command from left to right, up to a request for help. The value of an
    option is part of its argument or is the next argument, which must not look like an option. -/
def readOptions (command : Command) (o : Options) : List String → Request
  | [] => .run command o
  | arg :: rest =>
    match Argument.ofText arg with
    | .separator => if rest.isEmpty then .run command o else .wrongUse
    | .long name (some value) =>
      match o.set name value with
      | some o => readOptions command o rest
      | none => .wrongUse
    | .long name none =>
      if name == "help" then .information
      else if !Options.names.contains name then .wrongUse
      else match rest with
        | [] => .wrongUse
        | value :: rest =>
          match Argument.ofText value with
          | .plain value =>
            match o.set name value with
            | some o => readOptions command o rest
            | none => .wrongUse
          | _ => .wrongUse
    | .short letters => if letters.head? = some 'h' then .information else .wrongUse
    | .plain _ => .wrongUse

/-- The names that help can be asked for. -/
def helpTopics : List String := ["generate", "check", "help"]

def readHelp : List String → Request
  | [] => .information
  | [topic] => if helpTopics.contains topic then .information else .wrongUse
  | _ => .wrongUse

/-- What the arguments ask for. Without any, the help text is shown. -/
def readArguments : List String → Request
  | [] | ["--"] => .information
  | "generate" :: rest => readOptions .generate .none rest
  | "check" :: rest => readOptions .check .none rest
  | "help" :: rest => readHelp rest
  | arg :: _ =>
    let argument := Argument.ofText arg
    if argument.asksHelp || argument.asksVersion then .information else .wrongUse

/-! ## Running -/

def settingsFileName : String := "kmdgen.toml"

/-- The working directory as a path. -/
def workingPath (t : FileTree) : Path := ⟨"/" ++ "/".intercalate t.workingDirectory⟩

/-- The settings before options: those of the file that is named, or of the usual file if it is
    there. -/
def baseSettings (t : FileTree) (o : Options) : Except Failure Settings :=
  match o.config with
  | some path => Settings.load t path
  | none =>
    let usual := (workingPath t).join ⟨settingsFileName⟩
    if t.isFile usual then Settings.load t usual else .ok .default

/-- The settings with what options say instead. -/
def overridden (s : Settings) (o : Options) : Settings where
  inputRoot := o.inputRoot.getD s.inputRoot
  globs := if o.globs.isEmpty then s.globs else o.globs
  outputDir := o.outputDir.getD s.outputDir
  packageName := o.packageName.getD s.packageName
  code := s.code

def settings (t : FileTree) (o : Options) : Except Failure Settings := do
  let s ← baseSettings t o
  return overridden s o

def checkText (r : Compilation.Report) : String :=
  s!"{r.sources} schemas: {r.classes} remote classes, {r.types} complex types, {r.events} events" ++
    s!" -> {r.files.length} files\n" ++
    String.join (r.files.map fun file => s!"  {file.text}\n")

def generateText (s : Settings) (r : Compilation.Report) : String :=
  s!"Generated {r.files.length} files from {r.sources} schemas into {s.outputDir.text}\n"

def helpText : String :=
  "Generate Go client bindings from Kurento module descriptors (*.kmd.json)\n\n" ++
  "Usage: kmdgen [COMMAND]\n\n" ++
  "Commands:\n" ++
  "  generate  Generate bindings and write them to the output directory\n" ++
  "  check     Run the whole pipeline without writing anything\n" ++
  "  help      Print this message\n\n" ++
  "Options of a command:\n" ++
  "  --config <FILE>     Configuration file. Defaults to ./kmdgen.toml when present\n" ++
  "  --schema <GLOB>     Schema glob relative to the input root; may be given several times\n" ++
  "  --input-root <DIR>  Directory the schema globs are resolved against\n" ++
  "  --output-dir <DIR>  Directory the Go files are written to\n" ++
  "  --package <NAME>    Go package name of the generated files\n"

/-- What a run leaves behind. -/
structure Outcome where
  code : Nat
  output : String
  notices : List Notice
  failure : Option Failure
  tree : FileTree

namespace Outcome

/-- A run that did nothing. -/
def idle (code : Nat) (t : FileTree) : Outcome := ⟨code, "", [], none, t⟩

/-- A run that ended with a report or a failure. -/
def ofReport (t : FileTree) (say : Compilation.Report → String)
    (report : Logged Compilation.Report) : Outcome :=
  match report.result with
  | .ok r => ⟨0, say r, report.notices, none, t⟩
  | .error failure => ⟨1, "", report.notices, some failure, t⟩

end Outcome

def runCommand (t : FileTree) (command : Command) (o : Options) : Outcome :=
  match settings t o with
  | .error failure => ⟨1, "", [], some failure, t⟩
  | .ok s =>
    match command with
    | .check => .ofReport t checkText (Compilation.check t s)
    | .generate =>
      let (written, report) := Compilation.generate t s
      .ofReport written (generateText s) report

def run (t : FileTree) (args : List String) : Outcome :=
  match readArguments args with
  | .run command o => runCommand t command o
  | .information => .idle 0 t
  | .wrongUse => .idle 2 t

end GoBindings.CommandLine
