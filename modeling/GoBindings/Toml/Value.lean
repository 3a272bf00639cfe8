set_option autoImplicit false

/-! # Values and tables of a settings text

A table is written in one of several ways, and how it was written decides what may still be added to
it. Numbers and dates are told apart from other values and not from each other: no setting takes
them. -/

namespace GoBindings.Toml

/-- How a table came about. -/
inductive TableForm
  /-- In braces; it is complete. -/
  | inline
  /-- By a header of its own. -/
  | header
  /-- By a header further inside. -/
  | implied
  /-- By a key with dots. -/
  | dotted
deriving DecidableEq, Repr

inductive Value
  | text (s : String)
  | boolean (b : Bool)
  | numberOrDate
  | list (items : List Value)
  | table (form : TableForm) (entries : List (String × Value))
deriving Repr

abbrev Entries := List (String × Value)

namespace Entries

def replace (key : String) (v : Value) (es : Entries) : Entries :=
  es.map fun e => if e.1 == key then (key, v) else e

/-- Sets a key with dots. A key is set once; the keys before it lead through tables that are not
    complete, and the last of these must have been made by such keys too. -/
def set (v : Value) : List String → Entries → Option Entries
  | [], _ => none
  | [key], es => if (es.lookup key).isSome then none else some (es ++ [(key, v)])
  | key :: next :: rest, es =>
    match es.lookup key with
    | none => do
      let inside ← set v (next :: rest) []
      return es ++ [(key, .table .dotted inside)]
    | some (.table form inside) =>
      if form = .dotted || (form = .implied && !rest.isEmpty) then do
        let inside ← set v (next :: rest) inside
        return replace key (.table form inside) es
      else none
    | some _ => none

/-- Opens the table of a header. It must not have been opened before, but it may have been implied;
    tables on the way there are implied. -/
def openTable : List String → Entries → Option Entries
  | [], _ => none
  | [key], es =>
    match es.lookup key with
    | none => some (es ++ [(key, .table .header [])])
    | some (.table .implied inside) => some (replace key (.table .header inside) es)
    | some _ => none
  | key :: next :: rest, es =>
    match es.lookup key with
    | none => do
      let inside ← openTable (next :: rest) []
      return es ++ [(key, .table .implied inside)]
    | some (.table .inline _) => none
    | some (.table form inside) => do
      let inside ← openTable (next :: rest) inside
      return replace key (.table form inside) es
    | some _ => none

/-- Changes the entries of a table that is there. -/
def modifyAt (change : Entries → Option Entries) : List String → Entries → Option Entries
  | [], es => change es
  | key :: rest, es =>
    match es.lookup key with
    | some (.table form inside) => do
      let inside ← modifyAt change rest inside
      return replace key (.table form inside) es
    | _ => none

end Entries

/-- A line that says something. -/
inductive Statement
  | assign (key : List String) (value : Value)
  | header (path : List String)
deriving Repr

/-- Carries out statements, in the table that the last header has opened. -/
def tableOf (here : List String) (es : Entries) : List Statement → Option Entries
  | [] => some es
  | .assign key v :: rest => do
    let es ← Entries.modifyAt (Entries.set v key) here es
    tableOf here es rest
  | .header path :: rest => do
    let es ← Entries.openTable path es
    tableOf path es rest

end GoBindings.Toml
