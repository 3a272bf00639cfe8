import GoBindings.Json.Tree

set_option autoImplicit false

/-! # Data values

A value taken from a tree is free of faults, and the members of an object stand in the order of
their keys, each key once. -/

namespace GoBindings.Json

inductive Value
  | null
  | boolean (b : Bool)
  | number (n : Number)
  | text (s : String)
  | list (items : List Value)
  | object (members : List (String × Value))
deriving Repr

namespace Value

/-! ## From a tree -/

/-- Sets a key of an ordered list of members. -/
def setMember (key : String) (v : Value) : List (String × Value) → List (String × Value)
  | [] => [(key, v)]
  | (k, w) :: rest =>
    if key = k then (k, v) :: rest
    else if key < k then (key, v) :: (k, w) :: rest
    else (k, w) :: setMember key v rest

/-- Members in the order of their keys; of several values for a key the last one counts. -/
def ordered (members : List (String × Value)) : List (String × Value) :=
  members.foldl (fun acc m => setMember m.1 m.2 acc) []

mutual

/-- The value of a tree in which lists and objects are nested at most `depth` times. -/
def ofTree (depth : Nat) : Tree → Option Value
  | .fault => none
  | .null => some null
  | .boolean b => some (boolean b)
  | .number n => n.map number
  | .text s => s.map text
  | .list items =>
    match depth with
    | 0 => none
    | depth + 1 => (ofItems depth items).map list
  | .object members =>
    match depth with
    | 0 => none
    | depth + 1 => (ofMembers depth members).map fun ms => object (ordered ms)

def ofItems (depth : Nat) : List Tree → Option (List Value)
  | [] => some []
  | t :: ts => do
    let v ← ofTree depth t
    let vs ← ofItems depth ts
    return v :: vs

def ofMembers (depth : Nat) : List (Option String × Tree) → Option (List (String × Value))
  | [] => some []
  | (key, t) :: rest => do
    let key ← key
    let v ← ofTree depth t
    let ms ← ofMembers depth rest
    return (key, v) :: ms

end

/-! ## As text -/

def escapedChar (c : Char) : List Char :=
  match c with
  | '"' => ['\\', '"']
  | '\\' => ['\\', '\\']
  | '\x08' => ['\\', 'b']
  | '\x0c' => ['\\', 'f']
  | '\n' => ['\\', 'n']
  | '\r' => ['\\', 'r']
  | '\t' => ['\\', 't']
  | c =>
    if c.toNat < 0x10 then ['\\', 'u', '0', '0', '0'] ++ Nat.toDigits 16 c.toNat
    else if c.toNat < 0x20 then ['\\', 'u', '0', '0'] ++ Nat.toDigits 16 c.toNat
    else [c]

def quotedText (s : String) : String :=
  String.ofList (['"'] ++ s.toList.flatMap escapedChar ++ ['"'])

mutual

/-- The value without any blanks between its tokens. -/
def compact : Value → String
  | null => "null"
  | boolean b => if b then "true" else "false"
  | number n => n.text
  | text s => quotedText s
  | list items => "[" ++ ",".intercalate (compactItems items) ++ "]"
  | object members => "\x7b" ++ ",".intercalate (compactMembers members) ++ "\x7d"

def compactItems : List Value → List String
  | [] => []
  | v :: vs => v.compact :: compactItems vs

def compactMembers : List (String × Value) → List String
  | [] => []
  | (key, v) :: rest => (quotedText key ++ ":" ++ v.compact) :: compactMembers rest

end

end Value

end GoBindings.Json
