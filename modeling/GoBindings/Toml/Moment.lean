set_option autoImplicit false

/-! # Dates and times of a settings text

A moment is a date, a time of day, or both, and then perhaps the distance from universal time. Like a
number it is checked and passed over, so that a reader returns what follows. A part that is not
complete is left to follow, where nothing can be made of it. -/

namespace GoBindings.Toml

/-- A number of exactly `count` digits, added to the digits of `n`. -/
def fixedDigits? (n : Nat) : Nat → List Char → Option (Nat × List Char)
  | 0, cs => some (n, cs)
  | count + 1, c :: cs =>
    if c.isDigit then fixedDigits? (n * 10 + (c.toNat - '0'.toNat)) count cs else none
  | _ + 1, [] => none

/-- Two digits for a number from `low` to `high`. -/
def twoDigits? (low high : Nat) (cs : List Char) : Option (Nat × List Char) := do
  let (n, rest) ← fixedDigits? 0 2 cs
  if low ≤ n && n ≤ high then some (n, rest) else none

/-- What follows the character `c`. -/
def after? (c : Char) : List Char → Option (List Char)
  | [] => none
  | d :: rest => if d == c then some rest else none

/-! ## Dates -/

def isLeapYear (year : Nat) : Bool := year % 4 == 0 && (year % 100 != 0 || year % 400 == 0)

def daysOf (year month : Nat) : Nat :=
  if month = 2 then if isLeapYear year then 29 else 28
  else if month ∈ [4, 6, 9, 11] then 30
  else 31

/-- Year, month and day; the day must be one of its month. -/
def date? (cs : List Char) : Option (List Char) := do
  let (year, rest) ← fixedDigits? 0 4 cs
  let (month, rest) ← twoDigits? 1 12 (← after? '-' rest)
  let (_, rest) ← twoDigits? 1 (daysOf year month) (← after? '-' rest)
  return rest

/-! ## Times -/

/-- The fraction of a second, of any length, if there is one. -/
def skipFraction : List Char → List Char
  | '.' :: c :: rest => if c.isDigit then rest.dropWhile Char.isDigit else '.' :: c :: rest
  | cs => cs

/-- Hour, minute and second; a minute may have a leap second. -/
def time? (cs : List Char) : Option (List Char) := do
  let (_, rest) ← twoDigits? 0 23 cs
  let (_, rest) ← twoDigits? 0 59 (← after? ':' rest)
  let (_, rest) ← twoDigits? 0 60 (← after? ':' rest)
  return skipFraction rest

/-- The distance from universal time, or the mark for none. -/
def offset? : List Char → Option (List Char)
  | 'Z' :: rest | 'z' :: rest => some rest
  | '+' :: rest | '-' :: rest => do
    let (_, rest) ← twoDigits? 0 23 rest
    let (_, rest) ← twoDigits? 0 59 (← after? ':' rest)
    return rest
  | _ => none

/-- The time after a date, with its offset. A blank may divide them. -/
def timeOfDate? : List Char → Option (List Char)
  | 'T' :: rest | 't' :: rest | ' ' :: rest => do
    let rest ← time? rest
    return (offset? rest).getD rest
  | _ => none

/-- What follows a date, a time or both. -/
def moment? (cs : List Char) : Option (List Char) :=
  match date? cs with
  | some rest => some ((timeOfDate? rest).getD rest)
  | none => time? cs

end GoBindings.Toml
