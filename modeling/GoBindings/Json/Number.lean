import GoBindings.Decimal.Shortest

set_option autoImplicit false

/-! # Numbers of a data text

A number is whole if it is written without a point and an exponent and fits 64 bits; any other is a
double. Reading a double is not correctly rounded: as many digits as fit 64 bits are gathered into a
whole number, and that is multiplied or divided by a power of ten. -/

namespace GoBindings.Json

inductive Number
  | whole (n : Int)
  | real (x : Float)
deriving DecidableEq, Repr

/-- A number as it is written. -/
structure NumberText where
  negative : Bool
  /-- The digits before the point. -/
  whole : List Nat
  /-- The digits after the point; none if there is no point. -/
  fraction : List Nat
  exponent : Option Int
deriving DecidableEq, Repr

namespace NumberText

/-- Gathers digits into a number below 2 ^ 64 as long as they fit; the rest is left over. -/
def gather (significand : Nat) : List Nat → Nat × List Nat
  | [] => (significand, [])
  | d :: ds =>
    if significand * 10 + d < 2 ^ 64 then gather (significand * 10 + d) ds
    else (significand, d :: ds)

def powerOfTen (e : Nat) : Float := Float.ofScientific 1 false e

/-- The double `significand` · 10 ^ `exponent`, or none if that is too large. Below the smallest
    power of ten that is a double the division is done in two steps. -/
def scaled (significand : Nat) (exponent : Int) : Option Float :=
  let x := significand.toUInt64.toFloat
  if 0 ≤ exponent then
    if exponent ≤ 308 then
      let y := x * powerOfTen exponent.toNat
      if y.isInf then none else some y
    else if significand = 0 then some x
    else none
  else if -308 ≤ exponent then some (x / powerOfTen (-exponent).toNat)
  else if -616 ≤ exponent then
    some (x / powerOfTen 308 / powerOfTen (-exponent - 308).toNat)
  else some 0

/-- The number that is written, or none if it is out of range. A negative zero is a double, and so
    is a negative number below the 64-bit integers. -/
def value (t : NumberText) : Option Number :=
  let (whole, excess) := gather 0 t.whole
  if excess.isEmpty && t.fraction.isEmpty && t.exponent.isNone then
    if !t.negative then some (.whole whole)
    else if whole = 0 || 0x8000000000000000 < whole then some (.real (-whole.toUInt64.toFloat))
    else some (.whole (-whole))
  else
    let (significand, ignored) := gather whole t.fraction
    let shift : Int := excess.length - (t.fraction.length - ignored.length)
    let magnitude := scaled significand (shift + t.exponent.getD 0)
    magnitude.map fun x => .real (if t.negative then -x else x)

end NumberText

namespace Number

/-- A number from 10^-5 up to 10^16 is written in full, with at least one decimal; any other has
    one digit before the point, and its exponent has a sign. -/
def realText (negative : Bool) (s : Decimal.Shortest) : List Char :=
  let magnitude := s.magnitude
  let body :=
    if -5 ≤ magnitude && magnitude ≤ 15 then
      if 0 ≤ s.exponent then s.positional ++ ['.', '0'] else s.positional
    else
      let mantissa := match s.digitChars with
        | [d] => [d]
        | [] => []
        | d :: ds => d :: '.' :: ds
      mantissa ++ 'e' :: (if magnitude < 0 then '-' else '+') :: Nat.toDigits 10 magnitude.natAbs
  if negative then '-' :: body else body

/-- The shortest text from which the number is read again. -/
def text : Number → String
  | whole n => toString n
  | real x => match Decimal.Binary64.ofFloat x with
    | .finite negative 0 _ => if negative then "-0.0" else "0.0"
    | .finite negative significand exponent =>
      String.ofList (realText negative (.ofParts .even significand exponent))
    | .infinite _ | .notANumber => "null"

end Number

end GoBindings.Json
