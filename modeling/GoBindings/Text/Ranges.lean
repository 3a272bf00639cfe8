set_option autoImplicit false

/-! # Sets of characters given by ranges of code points -/

namespace GoBindings.Text

/-- Whether the code point of `c` lies in one of the ranges, ends included. -/
def inRanges (ranges : List (Nat × Nat)) (c : Char) : Bool :=
  ranges.any fun r => r.1 ≤ c.toNat && c.toNat ≤ r.2

end GoBindings.Text
