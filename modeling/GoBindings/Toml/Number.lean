import GoBindings.Text.Hex
import GoBindings.Toml.Text

set_option autoImplicit false

/-! # Numbers of a settings text

No setting takes a number, but one may stand where it does not count, and there it still has to be
written correctly and be in range. So a number is checked and passed over: a reader of a whole
number returns what follows it. -/

namespace GoBindings.Toml

/-! ## Digits -/

/-- The digits after the first one. A single underscore may stand between two digits. -/
def moreDigits? (isDigit : Char → Bool) : List Char → Option (List Char × List Char)
  | [] => some ([], [])
  | '_' :: c :: rest => if isDigit c then put c (moreDigits? isDigit rest) else none
  | c :: rest =>
    if isDigit c then put c (moreDigits? isDigit rest)
    else if c == '_' then none
    else some ([], c :: rest)

/-- A run of digits, without its underscores. -/
def digits? (isDigit : Char → Bool) : List Char → Option (List Char × List Char)
  | [] => none
  | c :: rest => if isDigit c then put c (moreDigits? isDigit rest) else none

/-- The number that digits spell in a base up to sixteen. -/
def numeral (base : Nat) (digits : List Char) : Nat :=
  digits.foldl (fun n c => n * base + (Text.hexDigit? c).getD 0) 0

/-- The digits of a base up to sixteen. -/
def isDigitIn (base : Nat) (c : Char) : Bool :=
  match Text.hexDigit? c with
  | some d => d < base
  | none => false

/-- Whether a sign is a minus, and what follows it; there need not be one. -/
def sign : List Char → Bool × List Char
  | '-' :: rest => (true, rest)
  | '+' :: rest => (false, rest)
  | cs => (false, cs)

/-! ## Ranges -/

/-- Whole numbers are held in 64 bits, with a sign. -/
def isInRange (negative : Bool) (n : Nat) : Bool :=
  if negative then n ≤ 0x8000000000000000 else n < 0x8000000000000000

/-- The least number that is rounded beyond the greatest double: half a unit above it. -/
def overflowStart : Nat := 0x3fffffffffffff <<< 970

/-- Whether `digits` · 10 ^ `exponent` is beyond the doubles. The number of digits decides unless
    the number is near the bound of about 1.8 · 10 ^ 308, so no large power is computed. -/
def overflows (digits : List Char) (exponent : Int) : Bool :=
  let significant := digits.dropWhile (· == '0')
  let size : Int := significant.length + exponent
  if significant.isEmpty || size < 300 then false
  else if size > 320 then true
  else
    match exponent with
    | .ofNat e => overflowStart ≤ numeral 10 significant * Nat.pow 10 e
    | .negSucc e => overflowStart * Nat.pow 10 (e + 1) ≤ numeral 10 significant

/-! ## Numbers -/

/-- A whole number in another base, after its mark. -/
def basedInteger? (base : Nat) (cs : List Char) : Option (List Char) := do
  let (ds, rest) ← digits? (isDigitIn base) cs
  if isInRange false (numeral base ds) then some rest else none

/-- The digits before a point. A zero is the only one of them, if it is the first. -/
def wholePart? : List Char → Option (List Char × List Char)
  | '0' :: rest => some (['0'], rest)
  | cs => digits? Char.isDigit cs

/-- The digits behind a point, if there is one. -/
def fractionPart? : List Char → Option (Option (List Char) × List Char)
  | '.' :: rest => (digits? Char.isDigit rest).map fun (ds, rest) => (some ds, rest)
  | cs => some (none, cs)

/-- The power of ten, if there is one. -/
def exponentPart? : List Char → Option (Option Int × List Char)
  | 'e' :: rest | 'E' :: rest => do
    let (negative, rest) := sign rest
    let (ds, rest) ← digits? Char.isDigit rest
    let e : Int := numeral 10 ds
    return (some (if negative then -e else e), rest)
  | cs => some (none, cs)

/-- A number in base ten, after its sign. One with a fraction or a power of ten is held as a double;
    it must not be above the doubles, but it may be below them. -/
def decimal? (negative : Bool) (cs : List Char) : Option (List Char) := do
  let (whole, rest) ← wholePart? cs
  let (fraction, rest) ← fractionPart? rest
  let (exponent, rest) ← exponentPart? rest
  let fits :=
    if fraction.isNone && exponent.isNone then isInRange negative (numeral 10 whole)
    else
      let behind := fraction.getD []
      negative || !overflows (whole ++ behind) (exponent.getD 0 - behind.length)
  if fits then some rest else none

/-- What follows a number. Only numbers in base ten, infinity and the value that is no number have a
    sign. -/
def number? : List Char → Option (List Char)
  | '0' :: 'x' :: rest => basedInteger? 16 rest
  | '0' :: 'o' :: rest => basedInteger? 8 rest
  | '0' :: 'b' :: rest => basedInteger? 2 rest
  | cs =>
    match sign cs with
    | (_, 'i' :: 'n' :: 'f' :: rest) | (_, 'n' :: 'a' :: 'n' :: rest) => some rest
    | (negative, rest) => decimal? negative rest

end GoBindings.Toml
