import GoBindings.FileTree
import GoBindings.Glob.Pattern

set_option autoImplicit false

/-! # Finding what a pattern matches

A step without wildcards is not looked for in its directory: it is put at the end of the path, and
only has to lead somewhere. So `.` and `..` can be steps of a pattern, and they stay in the paths
that are found. Only directories are listed, and a search fails at the first that cannot be. -/

namespace GoBindings.Glob

/-- The path of an entry of a directory. Entries of the working directory go by their bare names. -/
def childPath (directory : Path) (name : String) : Path :=
  if directory.same ⟨"."⟩ then ⟨name⟩ else directory.join ⟨name⟩

def Step.matchesName (step : Step) (name : String) : Bool :=
  match step with
  | .descend => false
  | .name tokens => spells tokens name.toList

/-- The entries `..` and `.` of a directory, for a wildcard that starts with a dot. -/
def dotEntries (tokens : List Token) : List String :=
  if tokens.head? = some (.char '.') then
    ["..", "."].filter fun name => spells tokens name.toList
  else []

/-- A directory that is there and cannot be listed. -/
structure Unlisted where
  path : Path
  fault : FileFault
deriving DecidableEq, Repr

/-- The directory that a path leads to. -/
def directoryAt? (t : FileTree) (path : Path) : Option Location :=
  match t.lookup path with
  | .ok (.directory location) => some location
  | _ => none

/-- Asks for a directory to be listed. It was found as an entry of another one, so its path may have
    grown too long to be followed. -/
def ensureListed (t : FileTree) (path : Path) : Except Unlisted Unit :=
  match t.lookup path with
  | .ok _ => .ok ()
  | .error fault => .error ⟨path, fault⟩

/-- The location of an entry, if it is a directory. -/
def inside? (location : Location) (names : List String) : Node → Option Location
  | .directory => some (location ++ names)
  | .file _ => none

/-- The paths below `path` to which the steps lead; `here` is the location of the directory that it
    is, if it is one. -/
def search (t : FileTree) : List Step → Path → Option Location → Except Unlisted (List Path)
  | [], path, _ => .ok [path]
  | .descend :: _, _, none => .ok []
  | [.descend], path, some location => do
    ensureListed t path
    let found ← (t.below location).mapM fun (names, node) => do
      let path := names.foldl childPath path
      if node = .directory then
        ensureListed t path
        return [path]
      else return []
    return found.flatten
  | .descend :: step :: steps, path, some location => do
    ensureListed t path
    let found ← (t.below location).mapM fun (names, node) => do
      let path := names.foldl childPath path
      if node = .directory then ensureListed t path
      if step.matchesName (names.getLast?.getD "") then
        search t steps path (inside? location names node)
      else return []
    return found.flatten
  | .name tokens :: steps, path, here =>
    match Step.literalChars? tokens with
    | some chars =>
      let name := String.ofList chars
      let next := childPath path name
      let found := if name == "." || name == ".." then here.isSome else t.contains next
      if found then search t steps next (directoryAt? t next) else .ok []
    | none =>
      match here with
      | some location => do
        ensureListed t path
        let dots ← (dotEntries tokens).mapM fun name =>
          search t steps (path.join ⟨name⟩) (directoryAt? t (path.join ⟨name⟩))
        let entries ← (t.children location).mapM fun (name, node) =>
          if spells tokens name.toList then
            search t steps (childPath path name) (inside? location [name] node)
          else .ok []
        return dots.flatten ++ entries.flatten
      | none => .ok []

namespace Pattern

/-- The paths that match, files and directories. -/
def search (t : FileTree) (p : Pattern) : Except Unlisted (List Path) := do
  let start : Path := ⟨if p.absolute then "/" else "."⟩
  let found ← Glob.search t p.steps start (directoryAt? t start)
  return if p.directoriesOnly then found.filter t.isDirectory else found

end Pattern

end GoBindings.Glob
