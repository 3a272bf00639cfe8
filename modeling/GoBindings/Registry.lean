import GoBindings.Logged
import GoBindings.NameSet
import GoBindings.Source

set_option autoImplicit false

/-! # The registry of declared types

All declarations of all sources, by name. It is complete before any code is written, so a name means
the same wherever it is used. Complex types are declared before classes; a class never replaces
anything, and a complex type replaces an earlier one only where that is allowed. -/

namespace GoBindings

/-- What a name stands for. -/
inductive Kind
  | enum
  | value
  | remote
deriving DecidableEq, Repr

/-- A declaration. -/
structure Entry where
  kind : Kind
  /-- The source that declares it. -/
  origin : Path
  /-- Its position among the complex types, or among the classes, of that source. -/
  index : Nat
  base : Option String
deriving DecidableEq, Repr

/-- Entries by name; every name occurs once. -/
structure Registry where
  entries : List (String × Entry)
deriving Repr

namespace Registry

def empty : Registry := ⟨[]⟩

def find? (r : Registry) (name : String) : Option Entry :=
  (r.entries.find? fun e => e.1 == name).map Prod.snd

def contains (r : Registry) (name : String) : Bool := (r.find? name).isSome

def set (r : Registry) (name : String) (entry : Entry) : Registry :=
  ⟨(name, entry) :: r.entries.filter fun e => e.1 != name⟩

/-- The entry of a name that is referred to at some place. -/
def resolve (r : Registry) (name : String) (place : Place) : Except Failure Entry :=
  match r.find? name with
  | some entry => .ok entry
  | none => .error (.unresolved name place)

/-! ## Declaring -/

/-- The complex types of a source, in order. -/
def typesOf (s : Source) : List (String × Entry) :=
  s.document.complexTypes.zipIdx.map fun (t, index) =>
    (t.name, {
      kind := if t.isEnum then .enum else .value, origin := s.path, index, base := t.base })

/-- The classes of a source, in order. -/
def classesOf (s : Source) : List (String × Entry) :=
  s.document.remoteClasses.zipIdx.map fun (c, index) =>
    (c.name, { kind := .remote, origin := s.path, index, base := c.base })

def declareType (overrides : Bool) (r : Registry) (d : String × Entry) : Logged Registry :=
  match r.find? d.1 with
  | none => pure (r.set d.1 d.2)
  | some earlier =>
    if overrides then do
      .note (.redeclared d.1 earlier.origin d.2.origin)
      return r.set d.1 d.2
    else .fail (.declaredTwice d.1 earlier.origin d.2.origin)

def declareClass (r : Registry) (d : String × Entry) : Logged Registry :=
  match r.find? d.1 with
  | none => pure (r.set d.1 d.2)
  | some earlier => .fail (.declaredTwice d.1 earlier.origin d.2.origin)

/-- All declarations of all sources: first the complex types, then the classes. -/
def declareAll (overrides : Bool) (sources : List Source) : Logged Registry := do
  let types ← (sources.flatMap typesOf).foldlM (declareType overrides) empty
  (sources.flatMap classesOf).foldlM declareClass types

/-! ## Hierarchy -/

/-- The names in order. -/
def names (r : Registry) : List String := NameSet.ofList (r.entries.map Prod.fst)

/-- The base that the declaration of a name gives. -/
def baseOf? (r : Registry) (name : String) : Option String := (r.find? name).bind Entry.base

/-- How many entries have a name that is not among `visited`. -/
def countUnvisited (r : Registry) (visited : List String) : Nat :=
  (r.entries.filter fun e => e.1 ∉ visited).length

theorem exists_entry_of_baseOf? {r : Registry} {name base : String}
    (h : r.baseOf? name = some base) : ∃ e ∈ r.entries, e.1 = name := by
  unfold baseOf? find? at h
  cases hf : r.entries.find? fun e => e.1 == name with
  | none => simp [hf] at h
  | some e =>
    have hname := List.find?_some hf
    exact ⟨e, List.mem_of_find?_eq_some hf, eq_of_beq hname⟩

/-- A name that has a base is an entry, so a visit to it leaves fewer entries. -/
theorem countUnvisited_lt {r : Registry} {visited : List String} {name base : String}
    (h : r.baseOf? name = some base) (hnew : name ∉ visited) :
    r.countUnvisited (name :: visited) < r.countUnvisited visited := by
  obtain ⟨e, he, rfl⟩ := exists_entry_of_baseOf? h
  have hsplit : (r.entries.filter fun d => d.1 ∉ e.1 :: visited)
      = (r.entries.filter fun d => d.1 ∉ visited).filter fun d => d.1 ≠ e.1 := by
    rw [List.filter_filter]
    exact List.filter_congr fun d _ => by simp
  unfold countUnvisited
  rw [hsplit, List.length_filter_lt_length_iff_exists]
  exact ⟨e, List.mem_filter.2 ⟨he, by simpa using hnew⟩, by simp⟩

/-- Goes from base to base. False if a name has no base, true if a name comes again. -/
def comesBack (r : Registry) (visited : List String) (name : String) : Bool :=
  match _h : r.baseOf? name with
  | none => false
  | some base =>
    if _hv : name ∈ visited then true else r.comesBack (name :: visited) base
termination_by r.countUnvisited visited
decreasing_by exact countUnvisited_lt _h _hv

/-- The base of a declaration has to be declared, with the same kind. Enumerations have no base,
    whatever they say. -/
def checkBase (r : Registry) (name : String) : Except Failure Unit :=
  match r.find? name with
  | none => .ok ()
  | some entry =>
    match entry.base with
    | none => .ok ()
    | some base =>
      if entry.kind = .enum || (r.find? base).map Entry.kind = some entry.kind then .ok ()
      else .error (.unresolved base (.base name))

def checkEnds (r : Registry) (name : String) : Except Failure Unit :=
  if r.comesBack [] name then .error (.inheritanceCycle name) else .ok ()

def checkHierarchy (r : Registry) : Except Failure Unit := do
  r.names.forM r.checkBase
  r.names.forM r.checkEnds

/-- The registry of all sources. -/
def build (overrides : Bool) (sources : List Source) : Logged Registry := do
  let all ← declareAll overrides sources
  Logged.ofExcept all.checkHierarchy
  return all

end Registry

end GoBindings
