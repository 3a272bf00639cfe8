set_option autoImplicit false

/-! # Paths

A path is a text, and is shown as it was written. What it means is the list of its components:
repeated separators, a separator at the end and a `.` behind the start do not count. Paths are
compared and ordered by components. -/

namespace GoBindings

structure Path where
  text : String
deriving DecidableEq, Repr

namespace Path

inductive Component
  | root
  | current
  | parent
  | normal (name : String)
deriving DecidableEq, Repr

namespace Component

/-- The kinds of components in their order. -/
def rank : Component → Nat
  | root => 0
  | current => 1
  | parent => 2
  | normal _ => 3

def name : Component → String
  | normal name => name
  | _ => ""

/-- Not above `b`: by kind, then by name. -/
def le (a b : Component) : Bool :=
  a.rank < b.rank || (a.rank == b.rank && a.name ≤ b.name)

end Component

/-- What stands between separators. -/
def pieces (p : Path) : List String := (p.text.toList.splitOn '/').map String.ofList

def isAbsolute (p : Path) : Bool := p.text.toList.head? == some '/'

/-- A piece that stays where the path is. -/
def isStay (piece : String) : Bool := piece == "" || piece == "."

def componentOf (piece : String) : Component :=
  if piece == ".." then .parent else .normal piece

def components (p : Path) : List Component :=
  let named := (p.pieces.filter fun piece => !isStay piece).map componentOf
  if p.isAbsolute then .root :: named
  else if p.pieces.head? == some "." then .current :: named
  else named

/-- Two texts for one path. -/
def same (p q : Path) : Bool := p.components == q.components

/-- Lexicographic order of components. -/
def leComponents : List Component → List Component → Bool
  | [], _ => true
  | _ :: _, [] => false
  | a :: as, b :: bs => if a = b then leComponents as bs else a.le b

def le (p q : Path) : Bool := leComponents p.components q.components

/-- `q` seen from `p`; an absolute `q` stays what it is. -/
def join (p q : Path) : Path :=
  if q.isAbsolute then q
  else
    match p.text.toList.getLast? with
    | none | some '/' => ⟨p.text ++ q.text⟩
    | some _ => ⟨p.text ++ "/" ++ q.text⟩

/-- The last component, if it is a name. -/
def fileName (p : Path) : Option String :=
  match p.components.getLast? with
  | some (.normal name) => some name
  | _ => none

/-- The pieces up to the last one that does not stay. -/
def trimStays (pieces : List String) : List String :=
  (pieces.reverse.dropWhile isStay).reverse

/-- The path without its last component; none if there is none to remove. -/
def parent (p : Path) : Option Path :=
  let trimmed := trimStays p.pieces
  match trimmed with
  | [] =>
    -- Only `.` can still be removed.
    if !p.isAbsolute && p.pieces.head? == some "." then some ⟨""⟩ else none
  | _ =>
    match trimStays trimmed.dropLast with
    | [] =>
      if p.isAbsolute then some ⟨"/"⟩
      else if p.pieces.head? == some "." then some ⟨"."⟩
      else some ⟨""⟩
    | front => some ⟨"/".intercalate front⟩

/-- The path, its parent, the parent of that, and so on; at most `count` of them. -/
def ancestorsUpTo (p : Path) : Nat → List Path
  | 0 => []
  | count + 1 =>
    match p.parent with
    | some parent => p :: parent.ancestorsUpTo count
    | none => [p]

/-- The path and everything above it. Each step takes a component away. -/
def ancestors (p : Path) : List Path := p.ancestorsUpTo (p.components.length + 1)

end Path

end GoBindings
