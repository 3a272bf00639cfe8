set_option autoImplicit false

/-! # Sets of names, and lists of names without repeats -/

namespace GoBindings.NameSet

/-- Puts a name into an ordered list, unless it is there. -/
def insert (name : String) : List String → List String
  | [] => [name]
  | n :: ns =>
    if name = n then n :: ns
    else if name < n then name :: n :: ns
    else n :: insert name ns

/-- The names of a list in order, each once. -/
def ofList (names : List String) : List String := names.foldr insert []

/-- The first name of a list that occurs before it, in the list or among `seen`. -/
def firstRepeated (seen : List String) : List String → Option String
  | [] => none
  | n :: ns => if seen.contains n then some n else firstRepeated (n :: seen) ns

end GoBindings.NameSet
