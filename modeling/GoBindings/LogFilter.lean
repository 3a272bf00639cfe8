import GoBindings.Text.Blank

set_option autoImplicit false

/-! # Log filters

A filter says for each part of the program which messages are shown. A plain level is a filter for
all parts. -/

namespace GoBindings.LogFilter

def levels : List String := ["trace", "debug", "info", "warn", "error"]

def targets : List String := ["kmdgen_core", "kmdgen_cli"]

/-- The filter that shows messages of a level and above. -/
def ofLevel (level : String) : String :=
  ",".intercalate (targets.map fun target => s!"{target}={level}")

/-- The filter that a value of the user asks for; levels may be in any case. -/
def ofValue : Option String → String
  | none => ofLevel "info"
  | some value =>
    let level := String.ofList (value.toList.map Char.toLower)
    if levels.contains level then ofLevel level
    else if (Text.trim value.toList).isEmpty then ofLevel "info"
    else value

/-- The position of a level; the more a level shows, the smaller it is. -/
def rank? (level : String) : Option Nat := levels.findIdx? (· == level)

/-- A part of a filter: a target and its level, or a level for all targets. -/
def directive (part : String) : Option String × String :=
  match part.toList.dropWhile (· != '=') with
  | _ :: level => (some (String.ofList (part.toList.takeWhile (· != '='))), String.ofList level)
  | [] => (none, part)

/-- A filter shows a message of a target. The last part that is about the target decides. -/
def shows (filter target level : String) : Bool :=
  let parts := (filter.toList.splitOn ',').map fun part => directive (String.ofList part)
  match (parts.filter fun part => part.1 == none || part.1 == some target).getLast? with
  | some (_, least) =>
    match rank? least, rank? level with
    | some least, some level => least ≤ level
    | _, _ => false
  | none => false

end GoBindings.LogFilter
