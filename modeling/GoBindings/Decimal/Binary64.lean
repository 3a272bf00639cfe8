set_option autoImplicit false

/-! # Double precision numbers, taken apart

A finite double is a sign, a whole number and a power of two. Exact decimal text is computed from
these parts, in natural number arithmetic. -/

namespace GoBindings.Decimal

inductive Binary64
  /-- The number ± `significand` · 2 ^ `exponent`. -/
  | finite (negative : Bool) (significand : Nat) (exponent : Int)
  | infinite (negative : Bool)
  | notANumber
deriving DecidableEq, Repr

namespace Binary64

/-- The parts of the number that 64 bits of the interchange format stand for. -/
def ofBits (bits : Nat) : Binary64 :=
  let negative := bits.testBit 63
  let biased : Nat := (bits >>> 52) % 0x800
  let fraction := bits % 0x10000000000000
  if biased = 2047 then
    if fraction = 0 then infinite negative else notANumber
  else if biased = 0 then finite negative fraction (-1074)
  else finite negative (0x10000000000000 + fraction) ((biased : Int) - 1075)

def ofFloat (x : Float) : Binary64 := ofBits x.toBits.toNat

/-- The magnitude of a number, if it is whole. -/
def whole? (significand : Nat) : Int → Option Nat
  | .ofNat e => some (significand <<< e)
  | .negSucc e =>
    if significand % (1 <<< (e + 1)) = 0 then some (significand >>> (e + 1)) else none

end Binary64

end GoBindings.Decimal
