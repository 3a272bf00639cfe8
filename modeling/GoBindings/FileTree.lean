import GoBindings.Path

set_option autoImplicit false

/-! # File trees

Directories and regular files, without links, seen from a working directory. A location is the list
of names that leads from the root to an entry; the root is a directory that is always there. A path
is followed piece by piece, and every piece but the last has to be a directory. Names and paths have
a greatest length. That of a path holds for the path as a whole, before it is followed; that of a
name holds where the name is looked for, so a name behind a missing directory does no harm. -/

namespace GoBindings

/-- Why an operation on a file or a directory fails. -/
inductive FileFault
  | missing
  | alreadyExists
  | notADirectory
  | isADirectory
  | nameTooLong
  /-- The contents are no UTF-8 text. -/
  | notText
  /-- The path holds a character that no path may hold. -/
  | badName
deriving DecidableEq, Repr

namespace FileFault

def message : FileFault → String
  | missing => "No such file or directory (os error 2)"
  | alreadyExists => "File exists (os error 17)"
  | notADirectory => "Not a directory (os error 20)"
  | isADirectory => "Is a directory (os error 21)"
  | nameTooLong => "File name too long (os error 36)"
  | notText => "stream did not contain valid UTF-8"
  | badName => "file name contained an unexpected NUL byte"

end FileFault

/-- The names on the way from the root. -/
abbrev Location := List String

inductive Node
  | directory
  | file (contents : ByteArray)

instance : DecidableEq Node
  | .directory, .directory => isTrue rfl
  | .file a, .file b =>
    match ByteArray.instDecidableEq a b with
    | isTrue h => isTrue (h ▸ rfl)
    | isFalse h => isFalse fun heq => h (Node.file.inj heq)
  | .directory, .file _ => isFalse Node.noConfusion
  | .file _, .directory => isFalse Node.noConfusion

structure FileTree where
  workingDirectory : Location
  /-- Every location occurs once, and every location above one of them is a directory. -/
  entries : List (Location × Node)

/-- What a path leads to. -/
inductive Target
  | directory (location : Location)
  | file (location : Location) (contents : ByteArray)
  /-- Nothing, in a directory that is there. -/
  | nothing (location : Location)

namespace FileTree

/-! ## Entries by location -/

def get? (t : FileTree) (location : Location) : Option Node :=
  if location.isEmpty then some .directory
  else (t.entries.find? fun e => e.1 == location).map Prod.snd

def erase (t : FileTree) (location : Location) : FileTree :=
  { t with entries := t.entries.filter fun e => e.1 != location }

def insert (t : FileTree) (location : Location) (node : Node) : FileTree :=
  { t with entries := (location, node) :: (t.erase location).entries }

/-- What lies below a location, by the names that lead there from it; a directory stands before its
    contents, and names are in order. -/
def below (t : FileTree) (location : Location) : List (Location × Node) :=
  let inside := t.entries.filterMap fun e =>
    if location.isPrefixOf e.1 && e.1 != location then some (e.1.drop location.length, e.2)
    else none
  inside.mergeSort fun a b => decide ¬ b.1 < a.1

/-- The entries of a directory, in the order of their names. -/
def children (t : FileTree) (location : Location) : List (String × Node) :=
  (t.below location).filterMap fun
    | ([name], node) => some (name, node)
    | _ => none

/-! ## Following a path -/

/-- The most bytes of a name. -/
def maxName : Nat := 255

/-- The most bytes of a path. -/
def maxPath : Nat := 4095

/-- Follows the pieces of a path from a directory. -/
def walk (t : FileTree) (here : Location) : List String → Except FileFault Target
  | [] => .ok (.directory here)
  | piece :: rest =>
    if Path.isStay piece then t.walk here rest
    else if piece == ".." then t.walk here.dropLast rest
    else if piece.utf8ByteSize > maxName then .error .nameTooLong
    else
      let next := here ++ [piece]
      match t.get? next with
      | some .directory => t.walk next rest
      | some (.file contents) =>
        if rest.isEmpty then .ok (.file next contents) else .error .notADirectory
      | none => if rest.isEmpty then .ok (.nothing next) else .error .missing

def lookup (t : FileTree) (p : Path) : Except FileFault Target :=
  if p.text.toList.contains '\x00' then .error .badName
  else if p.text.utf8ByteSize > maxPath then .error .nameTooLong
  else if p.text.isEmpty then .error .missing
  else t.walk (if p.isAbsolute then [] else t.workingDirectory) p.pieces

def isFile (t : FileTree) (p : Path) : Bool :=
  match t.lookup p with
  | .ok (.file _ _) => true
  | _ => false

def isDirectory (t : FileTree) (p : Path) : Bool :=
  match t.lookup p with
  | .ok (.directory _) => true
  | _ => false

def contains (t : FileTree) (p : Path) : Bool := t.isFile p || t.isDirectory p

/-- The location that a path names, whether or not there is anything. -/
def locate (t : FileTree) (p : Path) : Location :=
  p.pieces.foldl (fun here piece =>
    if Path.isStay piece then here
    else if piece == ".." then here.dropLast
    else here ++ [piece]) (if p.isAbsolute then [] else t.workingDirectory)

/-! ## Reading and writing -/

def readText (t : FileTree) (p : Path) : Except FileFault String :=
  match t.lookup p with
  | .ok (.file _ contents) =>
    match String.fromUTF8? contents with
    | some text => .ok text
    | none => .error .notText
  | .ok (.directory _) => .error .isADirectory
  | .ok (.nothing _) => .error .missing
  | .error fault => .error fault

/-- Puts a file where there is one or nothing. -/
def writeFile (t : FileTree) (p : Path) (contents : ByteArray) : Except FileFault FileTree :=
  match t.lookup p with
  | .ok (.file location _) | .ok (.nothing location) => .ok (t.insert location (.file contents))
  | .ok (.directory _) => .error .isADirectory
  | .error fault => .error fault

def makeDirectory (t : FileTree) (p : Path) : Except FileFault FileTree :=
  match t.lookup p with
  | .ok (.nothing location) => .ok (t.insert location .directory)
  | .ok _ => .error .alreadyExists
  | .error fault => .error fault

/-- Goes up from a path to a directory that is there or can be made. The paths that were passed,
    the topmost first, are put before `passed`. -/
def climb (t : FileTree) (passed : List Path) :
    List Path → Except FileFault (FileTree × List Path)
  | [] => .ok (t, passed)
  | p :: above =>
    if p.text.isEmpty then .ok (t, passed)
    else
      match t.makeDirectory p with
      | .ok made => .ok (made, passed)
      | .error .missing => t.climb (p :: passed) above
      | .error .alreadyExists =>
        if t.isDirectory p then .ok (t, passed) else .error .alreadyExists
      | .error fault => .error fault

/-- Makes the directories of a list in turn; those made before a failure stay. -/
def makeInTurn (t : FileTree) : List Path → FileTree × Except FileFault Unit
  | [] => (t, .ok ())
  | p :: rest =>
    match t.makeDirectory p with
    | .ok made => made.makeInTurn rest
    | .error fault =>
      if fault = .alreadyExists && t.isDirectory p then t.makeInTurn rest else (t, .error fault)

/-- Makes a directory and those above it that are not there. -/
def makeDirectories (t : FileTree) (p : Path) : FileTree × Except FileFault Unit :=
  match t.climb [] p.ancestors with
  | .ok (made, passed) => made.makeInTurn passed
  | .error fault => (t, .error fault)

end FileTree

end GoBindings
