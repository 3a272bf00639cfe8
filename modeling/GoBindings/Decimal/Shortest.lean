import GoBindings.Decimal.Binary64

set_option autoImplicit false

/-! # The fewest digits that read back

Every real number in an interval around a double rounds to that double. Among the decimals in the
interval those on the coarsest grid 10 ^ p are the shortest, and of those the nearest to the double
is taken. If a point of a grid lies in the interval then so does one of the double's two neighbours
on that grid, so only these are tried. -/

namespace GoBindings.Decimal

/-- The number `digits` · 10 ^ `exponent`. -/
structure Shortest where
  digits : Nat
  exponent : Int
deriving DecidableEq, Repr

/-- Which neighbour stands for a number halfway between both. -/
inductive Tie
  | up
  | even
deriving DecidableEq, Repr

/-- A point `value` of the interval from `low` to `high`, all in one unit. -/
structure Rounding where
  low : Nat
  value : Nat
  high : Nat
  /-- The ends belong to the interval. -/
  closed : Bool
deriving DecidableEq, Repr

namespace Rounding

def contains (r : Rounding) (x : Nat) : Bool :=
  if r.closed then r.low ≤ x && x ≤ r.high else r.low < x && x < r.high

def scale (r : Rounding) (factor : Nat) : Rounding :=
  { r with low := r.low * factor, value := r.value * factor, high := r.high * factor }

/-- The multiple of `grid` in the interval that is nearest to its value, as a multiplier. -/
def nearest? (tie : Tie) (r : Rounding) (grid : Nat) : Option Nat :=
  let below := r.value / grid
  let above := below + 1
  let hasBelow := r.contains (below * grid)
  let hasAbove := r.contains (above * grid)
  if hasBelow && hasAbove then
    let down := r.value - below * grid
    let up := above * grid - r.value
    if down < up then some below
    else if up < down then some above
    else match tie with
      | .up => some above
      | .even => some (if below % 2 = 0 then below else above)
  else if hasBelow then some below
  else if hasAbove then some above
  else none

end Rounding

namespace Shortest

/-- The numbers that round to the double with these parts, in units of 2 ^ (`exponent` - 2). Below
    a power of two doubles lie twice as dense. -/
def rounding (significand : Nat) (exponent : Int) : Rounding where
  low :=
    if significand = 0x10000000000000 ∧ exponent ≠ -1074 then 4 * significand - 1
    else 4 * significand - 2
  value := 4 * significand
  high := 4 * significand + 2
  closed := significand % 2 = 0

/-- Tries the grids 10 ^ `p`, 10 ^ (`p` - 1), …, `count` of them. -/
def search (tie : Tie) (r : Rounding) (unit : Int) (p : Int) : Nat → Option Shortest
  | 0 => none
  | count + 1 =>
    let scaled := r.scale (2 ^ unit.toNat * 10 ^ (-p).toNat)
    let grid := 10 ^ p.toNat * 2 ^ (-unit).toNat
    match scaled.nearest? tie grid with
    | some digits => some ⟨digits, p⟩
    | none => search tie r unit (p - 1) count

/-- The shortest decimal of the number `significand` · 2 ^ `exponent`, which is not zero. The first
    grid is coarser than the number; seventeen digits tell any two doubles apart. -/
def ofParts (tie : Tie) (significand : Nat) (exponent : Int) : Shortest :=
  let magnitude : Int := significand.log2 + 1 + exponent
  let start := magnitude * 30103 / 100000 + 1
  (search tie (rounding significand exponent) (exponent - 2) start 20).getD ⟨0, 0⟩

/-- The digits in order, most significant first. -/
def digitChars (s : Shortest) : List Char := Nat.toDigits 10 s.digits

/-- The power of ten of the first digit. -/
def magnitude (s : Shortest) : Int := s.digitChars.length - 1 + s.exponent

/-- The number without an exponent; it has a point only if it has decimals. -/
def positional (s : Shortest) : List Char :=
  let digits := s.digitChars
  let wholeLength := digits.length + s.exponent
  if 0 ≤ s.exponent then digits ++ List.replicate s.exponent.toNat '0'
  else if 0 < wholeLength then
    digits.take wholeLength.toNat ++ '.' :: digits.drop wholeLength.toNat
  else '0' :: '.' :: (List.replicate (-wholeLength).toNat '0' ++ digits)

end Shortest

end GoBindings.Decimal
