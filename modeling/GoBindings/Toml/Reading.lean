import GoBindings.Toml.Moment
import GoBindings.Toml.Number
import GoBindings.Toml.Value

set_option autoImplicit false

/-! # Reading a settings text

Lists may run over several lines and may hold comments; tables in braces may not. Readers return
what they have read and what follows. Lists and tables nest up to a fixed depth; the readers are told
how much room there is. They are also given a bound on the number of steps, which is computed from
the length of the text and is never reached. -/

namespace GoBindings.Toml

/-- What follows blanks, line breaks and comments; none if a comment holds a control character. -/
def skipGap (inComment : Bool) : List Char → Option (List Char)
  | [] => some []
  | '\n' :: rest | '\r' :: '\n' :: rest => skipGap false rest
  | c :: rest =>
    if inComment then if isPlain c then skipGap true rest else none
    else if isBlank c then skipGap false rest
    else if c == '#' then skipGap true rest
    else some (c :: rest)

/-- What follows the end of a line, where only a comment may still stand. -/
def endLine (cs : List Char) : Option (List Char) :=
  match skipBlank cs with
  | [] => some []
  | '#' :: rest => skipGap true rest
  | '\n' :: rest | '\r' :: '\n' :: rest => skipGap false rest
  | _ => none

/-- A value without quotes or brackets: a truth value, or a number or date. -/
def bareValue? : List Char → Option (Value × List Char)
  | 't' :: 'r' :: 'u' :: 'e' :: rest => some (.boolean true, rest)
  | 'f' :: 'a' :: 'l' :: 's' :: 'e' :: rest => some (.boolean false, rest)
  | cs => (moment? cs <|> number? cs).map fun rest => (.numberOrDate, rest)

/-- How many lists and tables in braces may stand inside each other. -/
def maxDepth : Nat := 79

mutual

def valueUpTo : Nat → Nat → List Char → Option (Value × List Char)
  | 0, _, _ => none
  | steps + 1, room, cs =>
    match cs, room with
    | '[' :: _, 0 | '\x7b' :: _, 0 => none
    | '[' :: rest, room + 1 =>
      (itemsUpTo steps room rest).map fun (items, rest) => (.list items, rest)
    | '\x7b' :: rest, room + 1 =>
      match skipBlank rest with
      | '\x7d' :: rest => some (.table .inline [], rest)
      | rest => do
        let (members, rest) ← membersUpTo steps room rest
        let entries ← members.foldlM (fun es (key, v) => Entries.set v key es) []
        return (.table .inline entries, rest)
    | '"' :: _, _ | '\'' :: _, _ =>
      (text? cs).map fun (chars, rest) => (.text (String.ofList chars), rest)
    | _, _ => bareValue? cs

/-- The items of a list, up to its end. -/
def itemsUpTo : Nat → Nat → List Char → Option (List Value × List Char)
  | 0, _, _ => none
  | steps + 1, room, cs => do
    match ← skipGap false cs with
    | ']' :: rest => return ([], rest)
    | cs =>
      let (v, rest) ← valueUpTo steps room cs
      match ← skipGap false rest with
      | ',' :: rest =>
        let (more, rest) ← itemsUpTo steps room rest
        return (v :: more, rest)
      | ']' :: rest => return ([v], rest)
      | _ => none

/-- The members of a table in braces, at least one, up to its end. -/
def membersUpTo : Nat → Nat → List Char → Option (List (List String × Value) × List Char)
  | 0, _, _ => none
  | steps + 1, room, cs => do
    let (member, rest) ← memberUpTo steps room cs
    match skipBlank rest with
    | ',' :: rest =>
      let (more, rest) ← membersUpTo steps room rest
      return (member :: more, rest)
    | '\x7d' :: rest => return ([member], rest)
    | _ => none

/-- A key and its value. -/
def memberUpTo : Nat → Nat → List Char → Option ((List String × Value) × List Char)
  | 0, _, _ => none
  | steps + 1, room, cs => do
    let (key, rest) ← key? cs
    match rest with
    | '=' :: rest =>
      let (v, rest) ← valueUpTo steps room (skipBlank rest)
      return ((key, v), rest)
    | _ => none

end

/-- The member that a text starts with. A value takes a character for at least every fourth step. -/
def member? (cs : List Char) : Option ((List String × Value) × List Char) :=
  memberUpTo (4 * (cs.length + 1)) maxDepth cs

/-- The statement that a text starts with. A header in two brackets starts a list of tables, which
    no setting takes. -/
def statement? : List Char → Option (Statement × List Char)
  | '[' :: rest => do
    let (path, rest) ← key? rest
    match rest with
    | ']' :: rest => return (.header path, rest)
    | _ => none
  | cs => (member? cs).map fun ((key, v), rest) => (.assign key v, rest)

/-- The statements of a text, at most `count`. -/
def statementsUpTo : Nat → List Char → Option (List Statement)
  | _, [] => some []
  | 0, _ => none
  | count + 1, cs => do
    let (s, rest) ← statement? cs
    let rest ← endLine rest
    let more ← statementsUpTo count rest
    return s :: more

/-- The table that a whole text describes. A byte order mark may come first. -/
def parse (text : String) : Option Entries := do
  let cs := match text.toList with
    | '\uFEFF' :: cs => cs
    | cs => cs
  let statements ← statementsUpTo (cs.length + 1) (← skipGap false cs)
  tableOf [] [] statements

end GoBindings.Toml
