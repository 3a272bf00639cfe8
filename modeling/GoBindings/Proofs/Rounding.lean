import GoBindings.Decimal.Binary64
import Mathlib.Algebra.Order.Field.Power
import Mathlib.Algebra.Order.Ring.Abs
import Mathlib.Data.Rat.Cast.Order
import Mathlib.Tactic.GCongr
import Mathlib.Tactic.Linarith
import Mathlib.Tactic.NormNum
import Mathlib.Tactic.Positivity
import Mathlib.Tactic.Ring

set_option autoImplicit false

/-! # Rounding whole numbers to doubles

`Rounds` says which double a whole number gives. The conversion of the library shifts and rounds
bits; `Rounds.ofFloat_ofInt` and `Rounds.eq_ofInt` show that it finds the one double that `Rounds`
allows. -/

namespace GoBindings.Decimal

/-! ## Rounding to a multiple of a power of two -/

/-- A number in units of 2 ^ `shift`, rounded to the nearest, and halfway between two to the even
    one. -/
def halfEven (n shift : Nat) : Nat :=
  if 2 * (n % 2 ^ shift) < 2 ^ shift then n / 2 ^ shift
  else if 2 ^ shift < 2 * (n % 2 ^ shift) then n / 2 ^ shift + 1
  else n / 2 ^ shift + n / 2 ^ shift % 2

theorem halfEven_zero (n : Nat) : halfEven n 0 = n := by
  simp [halfEven, Nat.mod_one]

/-- No multiple of the unit is nearer, and one that is as near is odd where this one is even. -/
theorem abs_halfEven_sub_le (n shift : Nat) (j : ℤ) :
    |(halfEven n shift : ℤ) * 2 ^ shift - n| ≤ |j * 2 ^ shift - n| ∧
      (j ≠ halfEven n shift →
        |(halfEven n shift : ℤ) * 2 ^ shift - n| = |j * 2 ^ shift - n| →
          halfEven n shift % 2 = 0 ∧ j % 2 = 1) := by
  have hn : (n : ℤ) = (n / 2 ^ shift : ℕ) * 2 ^ shift + (n % 2 ^ shift : ℕ) := by
    exact_mod_cast (Nat.div_add_mod' n (2 ^ shift)).symm
  have hlt : n % 2 ^ shift < 2 ^ shift := Nat.mod_lt _ (Nat.two_pow_pos shift)
  have hpow : (2 : ℤ) ^ shift = (2 ^ shift : ℕ) := by push_cast; rfl
  rw [hn, hpow]
  unfold halfEven
  generalize n % 2 ^ shift = r at *
  generalize n / 2 ^ shift = q at *
  generalize 2 ^ shift = d at *
  clear hn hpow
  -- where the other multiple lies, seen from the one below the number
  obtain ⟨a, rfl⟩ : ∃ a : ℤ, j = q + a := ⟨j - q, by omega⟩
  have hj : (q + a) * (d : ℤ) - (q * d + r) = a * d - r := by ring
  have hplace : (a ≤ -1 ∧ a * d ≤ -d) ∨ (a = 0 ∧ a * d = 0) ∨ (a = 1 ∧ a * d = d) ∨
      (2 ≤ a ∧ 2 * d ≤ a * d) := by
    rcases (by omega : a ≤ -1 ∨ a = 0 ∨ a = 1 ∨ 2 ≤ a) with ha | rfl | rfl | ha
    · exact Or.inl ⟨ha, by nlinarith⟩
    · exact Or.inr (Or.inl ⟨rfl, zero_mul _⟩)
    · exact Or.inr (Or.inr (Or.inl ⟨rfl, one_mul _⟩))
    · exact Or.inr (Or.inr (Or.inr ⟨ha, by nlinarith⟩))
  rw [hj]
  generalize a * (d : ℤ) = x at hplace
  simp only [abs_eq_max_neg]
  split
  · have hself : (q : ℤ) * d - (q * d + r) = -r := by ring
    rw [hself]
    omega
  · split
    · have hself : ((q + 1 : ℕ) : ℤ) * d - (q * d + r) = d - r := by push_cast; ring
      rw [hself]
      omega
    · rcases Nat.mod_two_eq_zero_or_one q with hq | hq
      · have hself : ((q + q % 2 : ℕ) : ℤ) * d - (q * d + r) = -r := by rw [hq]; push_cast; ring
        rw [hself]
        omega
      · have hself : ((q + q % 2 : ℕ) : ℤ) * d - (q * d + r) = d - r := by
          rw [hq]
          push_cast
          ring
        rw [hself]
        omega

theorem two_pow_le_of_log2 {n shift : Nat} (h : n.log2 = 52 + shift) : 2 ^ (52 + shift) ≤ n := by
  have hn : n ≠ 0 := by
    rintro rfl
    rw [Nat.log2_zero] at h
    omega
  exact h ▸ Nat.log2_self_le hn

theorem lt_two_pow_of_log2 {n shift : Nat} (h : n.log2 = 52 + shift) : n < 2 ^ (53 + shift) := by
  have hlt := Nat.lt_log2_self (n := n)
  rwa [h, show 52 + shift + 1 = 53 + shift by omega] at hlt

theorem le_halfEven {n shift : Nat} (h : n.log2 = 52 + shift) : 2 ^ 52 ≤ halfEven n shift := by
  have hlow : 2 ^ 52 ≤ n / 2 ^ shift := by
    rw [Nat.le_div_iff_mul_le (Nat.two_pow_pos shift), ← Nat.pow_add]
    exact two_pow_le_of_log2 h
  unfold halfEven
  split
  · exact hlow
  · split <;> omega

theorem halfEven_le {n shift : Nat} (h : n.log2 = 52 + shift) : halfEven n shift ≤ 2 ^ 53 := by
  have hhigh : n / 2 ^ shift < 2 ^ 53 := by
    rw [Nat.div_lt_iff_lt_mul (Nat.two_pow_pos shift), ← Nat.pow_add]
    exact lt_two_pow_of_log2 h
  unfold halfEven
  split
  · omega
  · split <;> omega

/-- Rounding carries into another bit from half a unit below the next power of two. -/
theorem halfEven_eq_two_pow_iff {n k : Nat} (h : n.log2 = 52 + (k + 1)) :
    halfEven n (k + 1) = 2 ^ 53 ↔ (2 ^ 54 - 1) * 2 ^ k ≤ n := by
  have hquotient : n / 2 ^ (k + 1) < 2 ^ 53 := by
    rw [Nat.div_lt_iff_lt_mul (Nat.two_pow_pos _), ← Nat.pow_add]
    exact lt_two_pow_of_log2 h
  have hn := Nat.div_add_mod' n (2 ^ (k + 1))
  have hrest : n % 2 ^ (k + 1) < 2 ^ (k + 1) := Nat.mod_lt _ (Nat.two_pow_pos _)
  unfold halfEven
  generalize n % 2 ^ (k + 1) = r at *
  generalize n / 2 ^ (k + 1) = q at *
  rw [Nat.pow_succ'] at hn hrest ⊢
  generalize 2 ^ k = u at *
  rcases Nat.lt_or_ge q (2 ^ 53 - 1) with hq | hq
  · have hsmall : q * (2 * u) ≤ (2 ^ 53 - 2) * (2 * u) := Nat.mul_le_mul_right _ (by omega)
    split
    · omega
    · split <;> omega
  · obtain rfl : q = 2 ^ 53 - 1 := by omega
    split
    · omega
    · split <;> omega

/-! ## The nearest double -/

/-- Parts as a finite double has them: the significand is as long as it can be. -/
structure Canonical (s : Nat) (e : Int) : Prop where
  bits : s < 2 ^ 53
  smallest : -1074 ≤ e
  long : 2 ^ 52 ≤ s ∨ e = -1074

/-- The parts of the double to which a whole number is rounded. -/
structure IsRounded (n : Nat) (s : Nat) (e : Int) : Prop where
  canonical : Canonical s e
  exponent_le_iff : ∀ k : Nat, e ≤ k + 1 ↔ n < (2 ^ 54 - 1) * 2 ^ k
  nearest : ∀ (s' : Nat) (e' : Int), s' < 2 ^ 53 →
    |(s : ℚ) * 2 ^ e - n| ≤ |(s' : ℚ) * 2 ^ e' - n|
  tie : ∀ (s' : Nat) (e' : Int), s' < 2 ^ 53 → (s' : ℚ) * 2 ^ e' ≠ s * 2 ^ e →
    |(s : ℚ) * 2 ^ e - n| = |(s' : ℚ) * 2 ^ e' - n| → s % 2 = 0 ∧ s' % 2 = 1

/-- A number that has these parts itself is rounded to them. -/
theorem isRounded_of_eq {n s : Nat} {e : Int} (hn : n < 2 ^ 53) (he : e ≤ 0)
    (hcanonical : Canonical s e) (hvalue : (s : ℚ) * 2 ^ e = n) : IsRounded n s e := by
  refine ⟨hcanonical, fun k => iff_of_true (by omega) ?_, ?_, ?_⟩
  · calc n < 2 ^ 53 := hn
      _ ≤ (2 ^ 54 - 1) * 1 := by norm_num
      _ ≤ (2 ^ 54 - 1) * 2 ^ k := Nat.mul_le_mul_left _ Nat.one_le_two_pow
  · intro s' e' _
    rw [hvalue, sub_self, abs_zero]
    exact abs_nonneg _
  · intro s' e' _ hne heq
    rw [hvalue, sub_self, abs_zero, eq_comm, abs_eq_zero, sub_eq_zero] at heq
    exact absurd (heq.trans hvalue.symm) hne

theorem isRounded_zero : IsRounded 0 0 (-1074) :=
  isRounded_of_eq (by decide) (by decide) ⟨by decide, le_rfl, Or.inr rfl⟩ (by simp)

/-- A number of at most 53 bits, moved to the left end of the significand. -/
theorem shiftLeft_bounds {n : Nat} (hn : n ≠ 0) (h : n.log2 ≤ 52) :
    2 ^ 52 ≤ n <<< (52 - n.log2) ∧ n <<< (52 - n.log2) < 2 ^ 53 := by
  rw [Nat.shiftLeft_eq]
  constructor
  · calc 2 ^ 52 = 2 ^ n.log2 * 2 ^ (52 - n.log2) := by rw [← Nat.pow_add]; congr 1; omega
      _ ≤ n * 2 ^ (52 - n.log2) := Nat.mul_le_mul_right _ (Nat.log2_self_le hn)
  · calc n * 2 ^ (52 - n.log2) < 2 ^ (n.log2 + 1) * 2 ^ (52 - n.log2) :=
        Nat.mul_lt_mul_of_pos_right Nat.lt_log2_self (Nat.two_pow_pos _)
      _ = 2 ^ 53 := by rw [← Nat.pow_add]; congr 1; omega

theorem isRounded_of_log2_le {n : Nat} (hn : n ≠ 0) (h : n.log2 ≤ 52) :
    IsRounded n (n <<< (52 - n.log2)) (n.log2 - 52) := by
  have hvalue : ((n <<< (52 - n.log2) : ℕ) : ℚ) * 2 ^ ((n.log2 : ℤ) - 52) = n := by
    rw [Nat.shiftLeft_eq]
    push_cast
    rw [mul_assoc, ← zpow_natCast, ← zpow_add₀ two_ne_zero, Nat.cast_sub h]
    simp
  have hbits := shiftLeft_bounds hn h
  have hsmall : n < 2 ^ 53 :=
    Nat.lt_log2_self.trans_le (Nat.pow_le_pow_right (by decide) (by omega))
  exact isRounded_of_eq hsmall (by omega) ⟨hbits.2, by omega, Or.inl hbits.1⟩ hvalue

/-- A double with a smaller unit is smaller than the power of two below the number. -/
theorem mul_zpow_lt {s shift : Nat} {e : Int} (hs : s < 2 ^ 53) (he : e < shift) :
    (s : ℚ) * 2 ^ e < 2 ^ (52 + shift) := by
  have hs' : (s : ℚ) < 2 ^ 53 := by exact_mod_cast hs
  calc (s : ℚ) * 2 ^ e < 2 ^ 53 * 2 ^ e := mul_lt_mul_of_pos_right hs' (by positivity)
    _ ≤ 2 ^ 53 * 2 ^ ((shift : ℤ) - 1) := by
      gcongr
      · norm_num
      · omega
    _ = 2 ^ (52 + shift) := by
      rw [← zpow_natCast, ← zpow_natCast, ← zpow_add₀ two_ne_zero]
      congr 1
      push_cast
      ring

section Shifted

variable {n shift : Nat} (h : n.log2 = 52 + shift)

/-- No double is nearer: if its unit is not smaller it is a multiple of the unit. -/
theorem abs_halfEven_sub_le_of_le {s : Nat} {e : Int} (he : shift ≤ e) :
    |(halfEven n shift : ℚ) * 2 ^ shift - n| ≤ |(s : ℚ) * 2 ^ e - n| ∧
      ((s : ℚ) * 2 ^ e ≠ halfEven n shift * 2 ^ shift →
        |(halfEven n shift : ℚ) * 2 ^ shift - n| = |(s : ℚ) * 2 ^ e - n| →
          halfEven n shift % 2 = 0 ∧ s % 2 = 1) := by
  obtain ⟨t, rfl⟩ : ∃ t : Nat, e = shift + t := ⟨(e - shift).toNat, by omega⟩
  have hmultiple : (s : ℚ) * 2 ^ ((shift : ℤ) + t) = ((s * 2 ^ t : ℤ) : ℚ) * 2 ^ shift := by
    rw [zpow_add₀ two_ne_zero, zpow_natCast, zpow_natCast]
    push_cast
    ring
  obtain ⟨hnearest, htie⟩ := abs_halfEven_sub_le n shift (s * 2 ^ t)
  rw [hmultiple]
  refine ⟨by exact_mod_cast hnearest, fun hne heq => ?_⟩
  have hj : (s : ℤ) * 2 ^ t ≠ halfEven n shift := by
    intro hj
    refine hne ?_
    rw [hj]
    rfl
  obtain ⟨heven, hodd⟩ := htie hj (by exact_mod_cast heq)
  refine ⟨heven, ?_⟩
  by_contra hs
  have hzero : (s : ℤ) % 2 = 0 := by omega
  rw [Int.mul_emod, hzero] at hodd
  simp at hodd

include h

/-- A double with a smaller unit is farther away. -/
theorem abs_halfEven_sub_lt_of_lt {s : Nat} {e : Int} (hs : s < 2 ^ 53) (he : e < shift) :
    |(halfEven n shift : ℚ) * 2 ^ shift - n| < |(s : ℚ) * 2 ^ e - n| := by
  have hlt := mul_zpow_lt hs he
  have hpow : (2 : ℚ) ^ (52 + shift) ≤ n := by exact_mod_cast two_pow_le_of_log2 h
  have hpower : |(halfEven n shift : ℚ) * 2 ^ shift - n| ≤ |(2 : ℚ) ^ (52 + shift) - n| := by
    have hcore := (abs_halfEven_sub_le n shift (2 ^ 52)).1
    rw [← pow_add] at hcore
    exact_mod_cast hcore
  calc |(halfEven n shift : ℚ) * 2 ^ shift - n| ≤ |(2 : ℚ) ^ (52 + shift) - n| := hpower
    _ = n - 2 ^ (52 + shift) := by rw [abs_of_nonpos (by linarith), neg_sub]
    _ < n - s * 2 ^ e := by linarith
    _ = |(s : ℚ) * 2 ^ e - n| := by rw [abs_of_neg (by linarith), neg_sub]

/-- The exponent tells on which side of half a unit below a power of two the number is. -/
theorem exponent_le_iff (k : Nat) :
    (if halfEven n shift = 2 ^ 53 then (shift : ℤ) + 1 else shift) ≤ k + 1 ↔
      n < (2 ^ 54 - 1) * 2 ^ k := by
  rcases Nat.lt_trichotomy shift (k + 1) with hshift | rfl | hshift
  · refine iff_of_true (by split <;> omega) ((lt_two_pow_of_log2 h).trans_le ?_)
    calc 2 ^ (53 + shift) ≤ 2 ^ (53 + k) := Nat.pow_le_pow_right (by decide) (by omega)
      _ = 2 ^ 53 * 2 ^ k := Nat.pow_add 2 53 k
      _ ≤ (2 ^ 54 - 1) * 2 ^ k := Nat.mul_le_mul_right _ (by norm_num)
  · rw [← not_le, ← halfEven_eq_two_pow_iff h]
    split
    · next hcarry => exact iff_of_false (by omega) (not_not.2 hcarry)
    · next hcarry => exact iff_of_true (by omega) hcarry
  · refine iff_of_false (by split <;> omega) (not_lt.2 (le_trans ?_ (two_pow_le_of_log2 h)))
    calc (2 ^ 54 - 1) * 2 ^ k ≤ 2 ^ 54 * 2 ^ k := Nat.mul_le_mul_right _ (by norm_num)
      _ = 2 ^ (54 + k) := (Nat.pow_add 2 54 k).symm
      _ ≤ 2 ^ (52 + shift) := Nat.pow_le_pow_right (by decide) (by omega)

/-- Of a number with more bits, the first 53 are kept. -/
theorem isRounded_of_log2_eq :
    IsRounded n (if halfEven n shift = 2 ^ 53 then 2 ^ 52 else halfEven n shift)
      (if halfEven n shift = 2 ^ 53 then shift + 1 else shift) := by
  have hlow := le_halfEven h
  have hhigh := halfEven_le h
  have hvalue : ((if halfEven n shift = 2 ^ 53 then 2 ^ 52 else halfEven n shift : ℕ) : ℚ)
      * 2 ^ (if halfEven n shift = 2 ^ 53 then (shift : ℤ) + 1 else shift)
        = halfEven n shift * 2 ^ shift := by
    split
    · next hcarry =>
      rw [hcarry, zpow_add₀ two_ne_zero, zpow_natCast]
      push_cast
      ring
    · rw [zpow_natCast]
  refine ⟨⟨?_, ?_, Or.inl ?_⟩, exponent_le_iff h, ?_, ?_⟩
  · split <;> omega
  · split <;> omega
  · split <;> omega
  · intro s e hs
    rw [hvalue]
    rcases lt_or_ge e shift with he | he
    · exact (abs_halfEven_sub_lt_of_lt h hs he).le
    · exact (abs_halfEven_sub_le_of_le he).1
  · intro s e hs hne heq
    rw [hvalue] at hne heq
    rcases lt_or_ge e shift with he | he
    · exact absurd heq (abs_halfEven_sub_lt_of_lt h hs he).ne
    · obtain ⟨heven, hodd⟩ := (abs_halfEven_sub_le_of_le he).2 hne heq
      refine ⟨?_, hodd⟩
      split
      · rfl
      · exact heven

end Shifted

/-! ## The conversion of the library -/

section Conversion

open Float.Model Float.Model.UnpackedFloat

/-- Shifting keeps the first bit that is lost, and whether any later one was set. -/
theorem shiftRight_exact (n shift : Nat) :
    (ExtendedMantissa.mk n false false) >>> shift
      = ⟨n / 2 ^ shift, decide (2 ^ shift ≤ 2 * (n % 2 ^ shift)),
          decide (2 * (n % 2 ^ shift) ≠ 0 ∧ 2 * (n % 2 ^ shift) ≠ 2 ^ shift)⟩ := by
  induction shift with
  | zero =>
    show ExtendedMantissa.mk n false false = _
    simp [Nat.mod_one]
  | succ shift ih =>
    have hstep : (ExtendedMantissa.mk n false false) >>> (shift + 1)
        = ((ExtendedMantissa.mk n false false) >>> shift).shiftRightOne := rfl
    have hlt : n % 2 ^ shift < 2 ^ shift := Nat.mod_lt _ (Nat.two_pow_pos shift)
    rw [hstep, ih, ExtendedMantissa.shiftRightOne, Nat.pow_succ, Nat.mod_mul,
      ← Nat.div_div_eq_div_mul]
    generalize n % 2 ^ shift = r at *
    generalize n / 2 ^ shift = q at *
    generalize 2 ^ shift = d at *
    have hq := Nat.mod_two_eq_zero_or_one q
    rw [ExtendedMantissa.mk.injEq]
    refine ⟨rfl, ?_, ?_⟩
    · rw [Bool.eq_iff_iff, bne_iff_ne, decide_eq_true_iff]
      rcases hq with hq | hq <;> rw [hq] <;> omega
    · rw [Bool.eq_iff_iff, Bool.or_eq_true, decide_eq_true_iff, decide_eq_true_iff,
        decide_eq_true_iff]
      rcases hq with hq | hq <;> rw [hq] <;> omega

theorem roundedMantissa_shiftRight (n shift : Nat) :
    ((ExtendedMantissa.mk n false false) >>> shift).roundedMantissa = halfEven n shift := by
  have hpos : 0 < 2 ^ shift := Nat.two_pow_pos shift
  rw [shiftRight_exact, halfEven]
  generalize n % 2 ^ shift = r at *
  generalize n / 2 ^ shift = q at *
  generalize 2 ^ shift = d at *
  rcases Nat.lt_trichotomy (2 * r) d with h | h | h
  · have hround : decide (d ≤ 2 * r) = false := decide_eq_false (by omega)
    rw [hround, if_pos h]
    cases decide (2 * r ≠ 0 ∧ 2 * r ≠ d) <;> rfl
  · have hround : decide (d ≤ 2 * r) = true := decide_eq_true (by omega)
    have hsticky : decide (2 * r ≠ 0 ∧ 2 * r ≠ d) = false := decide_eq_false (by omega)
    rw [hround, hsticky, if_neg (by omega), if_neg (by omega)]
    rfl
  · have hround : decide (d ≤ 2 * r) = true := decide_eq_true (by omega)
    have hsticky : decide (2 * r ≠ 0 ∧ 2 * r ≠ d) = true := decide_eq_true (by omega)
    rw [hround, hsticky, if_neg (by omega), if_pos h]
    rfl

theorem targetExponent_eq (n : Nat) (e : Int) :
    Format.binary64.targetExponent (totalExponent n e) = max (n.log2 + e - 52) (-1074) := by
  have hbits : (Format.binary64.mantissaBits : ℤ) = 53 := rfl
  have hsmallest : Format.binary64.minExponent = -1074 := rfl
  rw [Format.targetExponent, totalExponent, hbits, hsmallest]
  omega

variable {s t : Nat} {e : Int}

/-- Bits beyond 53 are shifted out. -/
theorem shiftToTargetExponent_eq (hs : s.log2 = 52 + t) (he : -1074 ≤ e) :
    shiftToTargetExponent Format.binary64 s e .exact
      = (ExtendedMantissa.mk s false false >>> t, e + t) := by
  have hshift : (max ((s.log2 : ℤ) + e - 52) (-1074) - e).toNat = t := by omega
  rw [shiftToTargetExponent, targetExponent_eq, shiftToExponent, hshift]
  rfl

/-- What is left is rounded, and if that makes it longer again it is shifted once more. -/
theorem roundWithAccuracy_eq (sign : Sign) (hs : s.log2 = 52 + t) (he : -1074 ≤ e) :
    ∃ s' e' hpos, roundWithAccuracy Format.binary64 sign s e .exact = .finite sign s' e' hpos ∧
      s' = (if halfEven s t = 2 ^ 53 then 2 ^ 52 else halfEven s t) ∧
        e' = if halfEven s t = 2 ^ 53 then e + t + 1 else e + t := by
  have hlow := le_halfEven hs
  have hhigh := halfEven_le hs
  have hagain : ∃ extended, shiftToTargetExponent Format.binary64 (halfEven s t) (e + t) .exact
      = (extended, if halfEven s t = 2 ^ 53 then e + t + 1 else e + t) ∧
        extended.mantissa = if halfEven s t = 2 ^ 53 then 2 ^ 52 else halfEven s t := by
    split
    · next hcarry =>
      rw [hcarry]
      exact ⟨_, shiftToTargetExponent_eq (t := 1) (Nat.log2_two_pow ..) (by omega), rfl⟩
    · next hcarry =>
      have hlog : (halfEven s t).log2 = 52 + 0 := (Nat.log2_eq_iff (by omega)).2 ⟨hlow, by omega⟩
      have hstays := shiftToTargetExponent_eq (e := e + t) hlog (by omega)
      rw [Nat.cast_zero, add_zero] at hstays
      exact ⟨_, hstays, rfl⟩
  obtain ⟨extended, hextended, hmantissa⟩ := hagain
  have hne : extended.mantissa ≠ 0 := by
    rw [hmantissa]
    split <;> omega
  refine ⟨_, _, Nat.pos_of_ne_zero hne, ?_, hmantissa, rfl⟩
  rw [roundWithAccuracy, shiftToTargetExponent_eq hs he]
  dsimp only
  rw [roundedMantissa_shiftRight, hextended]
  exact dif_neg hne

/-- Rounding takes a number to the nearest double. -/
theorem exists_round_eq (sign : Sign) {n : Nat} (hn : n ≠ 0) :
    ∃ s e hpos, UnpackedFloat.round Format.binary64 sign n 0 = .finite sign s e hpos ∧
      2 ^ 52 ≤ s ∧ -52 ≤ e ∧ IsRounded n s e := by
  rcases Nat.lt_or_ge 52 n.log2 with hlog | hlog
  · obtain ⟨shift, hshift⟩ : ∃ shift, n.log2 = 52 + shift := ⟨n.log2 - 52, by omega⟩
    have hsame : decreaseExponent n 0 (max ((n.log2 : ℤ) + 0 - 52) (-1074)) = (n, 0) := by
      have hzero : (0 - max ((n.log2 : ℤ) + 0 - 52) (-1074)).toNat = 0 := by omega
      rw [decreaseExponent, hzero]
      rfl
    obtain ⟨s, e, hpos, hround, hs, he⟩ :=
      roundWithAccuracy_eq (e := 0) sign hshift (by omega)
    simp only [zero_add] at he
    refine ⟨s, e, hpos, ?_, ?_, ?_, ?_⟩
    · rw [UnpackedFloat.round, targetExponent_eq, hsame]
      exact hround
    · have hlow := le_halfEven hshift
      rw [hs]
      split <;> omega
    · rw [he]
      split <;> omega
    · rw [hs, he]
      exact isRounded_of_log2_eq hshift
  · have hless : decreaseExponent n 0 (max ((n.log2 : ℤ) + 0 - 52) (-1074))
        = (n <<< (52 - n.log2), (n.log2 : ℤ) - 52) := by
      have hshift : (0 - max ((n.log2 : ℤ) + 0 - 52) (-1074)).toNat = 52 - n.log2 := by omega
      rw [decreaseExponent, hshift]
      congr 1
      omega
    have hbits := shiftLeft_bounds hn hlog
    have hpositive : 0 < n <<< (52 - n.log2) := (by decide : 0 < 2 ^ 52).trans_le hbits.1
    have hlog' : (n <<< (52 - n.log2)).log2 = 52 + 0 := (Nat.log2_eq_iff hpositive.ne').2 hbits
    obtain ⟨s, e, hpos, hround, hs, he⟩ :=
      roundWithAccuracy_eq (e := (n.log2 : ℤ) - 52) sign hlog' (by omega)
    have hcarry : ¬ n <<< (52 - n.log2) = 2 ^ 53 := hbits.2.ne
    simp only [halfEven_zero, if_neg hcarry, Nat.cast_zero, add_zero] at hs he
    refine ⟨s, e, hpos, ?_, ?_, by omega, ?_⟩
    · rw [UnpackedFloat.round, targetExponent_eq, hless]
      exact hround
    · rw [hs]
      exact hbits.1
    · rw [hs, he]
      exact isRounded_of_log2_le hn hlog

theorem ofInt_eq {n : Int} (hn : n ≠ 0) :
    UnpackedFloat.ofInt Format.binary64 n
      = UnpackedFloat.round Format.binary64 (if n < 0 then .negative else .positive)
          n.natAbs 0 := by
  rcases lt_or_gt_of_ne hn with hneg | hpos
  · have habs : (-n).toNat = n.natAbs := by omega
    rw [UnpackedFloat.ofInt, UnpackedFloat.normalize, Int.compare_eq_lt.2 hneg, if_pos hneg, habs]
  · have habs : n.toNat = n.natAbs := by omega
    rw [UnpackedFloat.ofInt, UnpackedFloat.normalize, Int.compare_eq_gt.2 hpos,
      if_neg hpos.not_gt, habs]

/-- The fields of a double stand side by side. -/
theorem ofBits_fields {sign biased fraction : Nat} (hsign : sign < 2) (hbiased : biased < 2 ^ 11)
    (hfraction : fraction < 2 ^ 52) :
    Binary64.ofBits (sign * 2 ^ 63 + biased * 2 ^ 52 + fraction)
      = if biased = 2047 then
          if fraction = 0 then .infinite (sign == 1) else .notANumber
        else if biased = 0 then .finite (sign == 1) fraction (-1074)
        else .finite (sign == 1) (0x10000000000000 + fraction) (biased - 1075) := by
  have hneg : (sign * 2 ^ 63 + biased * 2 ^ 52 + fraction).testBit 63 = (sign == 1) := by
    have hbit : (sign * 2 ^ 63 + biased * 2 ^ 52 + fraction) / 2 ^ 63 % 2 = sign := by omega
    rw [Nat.testBit_eq_decide_div_mod_eq, hbit]
    rfl
  have hexp : (sign * 2 ^ 63 + biased * 2 ^ 52 + fraction) >>> 52 % 0x800 = biased := by
    rw [Nat.shiftRight_eq_div_pow]
    omega
  have hfrac : (sign * 2 ^ 63 + biased * 2 ^ 52 + fraction) % 0x10000000000000 = fraction := by
    omega
  simp only [Binary64.ofBits, hneg, hexp, hfrac]

theorem toNat_packComponents (sign : Sign) (biased : BitVec 11) (fraction : BitVec 52) :
    (packComponents Format.binary64 sign biased fraction).toNat
      = sign.toBitVec.toNat * 2 ^ 63 + biased.toNat * 2 ^ 52 + fraction.toNat := by
  have hbiased := biased.isLt
  have hfraction := fraction.isLt
  unfold packComponents
  rw [BitVec.toNat_append, BitVec.toNat_append, Nat.shiftLeft_eq, Nat.shiftLeft_eq,
    Nat.mul_comm _ (2 ^ 11), ← Nat.two_pow_add_eq_or_of_lt hbiased, Nat.mul_comm _ (2 ^ 52),
    ← Nat.two_pow_add_eq_or_of_lt hfraction]
  ring

/-- A sign as the parts of a double tell it. -/
def isNegative : Sign → Bool
  | .negative => true
  | .positive => false

theorem toBitVec_eq_one (sign : Sign) : (sign.toBitVec.toNat == 1) = isNegative sign := by
  cases sign <;> rfl

theorem ofFloat_ofModel_pack (f : UnpackedFloat) :
    Binary64.ofFloat (.ofModel (.pack f)) = .ofBits (UnpackedFloat.pack Format.binary64 f).toNat :=
  rfl

theorem pack_finite (sign : Sign) {s : Nat} {e : Int} (hpos : 0 < s) (hs : s.log2 = 52) :
    UnpackedFloat.pack Format.binary64 (.finite sign s e hpos)
      = if 2048 ≤ (e + 1075).toNat + 1 then packedInfinity Format.binary64 sign
        else packComponents Format.binary64 sign (.ofNat 11 (e + 1075).toNat) (.ofNat 52 s) := by
  have hbias : e + Format.binary64.exponentBias + (52 : ℕ) = e + 1075 := by
    have hvalue : (Format.binary64.exponentBias : ℤ) = 1023 := rfl
    rw [hvalue]
    push_cast
    ring
  have hlong : s.log2 + 1 = 53 := by rw [hs]
  show (if 2048 ≤ (e + Format.binary64.exponentBias + (52 : ℕ)).toNat + 1 then _
    else if s.log2 + 1 = 53 then _ else _) = _
  rw [if_pos hlong, hbias]

theorem ofFloat_pack_finite (sign : Sign) {s : Nat} {e : Int} (hpos : 0 < s)
    (hs : 2 ^ 52 ≤ s ∧ s < 2 ^ 53) (he : -52 ≤ e) :
    Binary64.ofFloat (.ofModel (.pack (.finite sign s e hpos)))
      = if e ≤ 971 then .finite (isNegative sign) s e else .infinite (isNegative sign) := by
  have hsign := sign.toBitVec.isLt
  rw [ofFloat_ofModel_pack, pack_finite sign hpos ((Nat.log2_eq_iff hpos.ne').2 hs)]
  split
  · next hlarge =>
    rw [if_neg (by omega), packedInfinity, toNat_packComponents]
    exact (ofBits_fields hsign (by decide) (by decide)).trans
      (congrArg Binary64.infinite (toBitVec_eq_one sign))
  · next hsmall =>
    have hbiased : (BitVec.ofNat 11 (e + 1075).toNat).toNat = (e + 1075).toNat := by
      rw [BitVec.toNat_ofNat]
      omega
    have hfraction : (BitVec.ofNat 52 s).toNat = s - 2 ^ 52 := by
      rw [BitVec.toNat_ofNat]
      omega
    have hwhole : 0x10000000000000 + (s - 2 ^ 52) = s := by omega
    have hexponent : ((e + 1075).toNat : ℤ) - 1075 = e := by omega
    rw [if_pos (by omega), toNat_packComponents, hbiased, hfraction,
      ofBits_fields hsign (by omega) (by omega), if_neg (by omega), if_neg (by omega),
      toBitVec_eq_one, hwhole, hexponent]

/-- The parts of the double that a whole number converts to. -/
theorem exists_ofFloat_ofInt (n : Int) : ∃ s e, IsRounded n.natAbs s e ∧
    Binary64.ofFloat (.ofModel (.ofInt n))
      = if e ≤ 971 then .finite (n < 0) s e else .infinite (n < 0) := by
  rcases eq_or_ne n 0 with rfl | hn
  · exact ⟨0, -1074, isRounded_zero, rfl⟩
  · obtain ⟨s, e, hpos, hround, hs, he, hrounded⟩ :=
      exists_round_eq (if n < 0 then .negative else .positive) (Int.natAbs_ne_zero.2 hn)
    refine ⟨s, e, hrounded, ?_⟩
    rw [Float.Model.ofInt, ofInt_eq hn, hround,
      ofFloat_pack_finite _ _ ⟨hs, hrounded.canonical.bits⟩ he]
    have hsign : isNegative (if n < 0 then .negative else .positive) = decide (n < 0) := by
      split
      · next hneg => exact (decide_eq_true hneg).symm
      · next hneg => exact (decide_eq_false hneg).symm
    rw [hsign]

end Conversion

/-! ## Doubles from their parts -/

namespace Binary64

theorem exists_fields (x : Float) : ∃ sign biased fraction : Nat,
    sign < 2 ∧ biased < 2 ^ 11 ∧ fraction < 2 ^ 52 ∧
      x.toBits.toNat = sign * 2 ^ 63 + biased * 2 ^ 52 + fraction := by
  have hsize := x.toBits.toNat_lt
  exact ⟨x.toBits.toNat / 2 ^ 63, x.toBits.toNat / 2 ^ 52 % 2 ^ 11, x.toBits.toNat % 2 ^ 52,
    by omega, by omega, by omega, by omega⟩

theorem canonical_of_ofFloat {x : Float} {negative : Bool} {s : Nat} {e : Int}
    (h : ofFloat x = .finite negative s e) : Canonical s e := by
  obtain ⟨sign, biased, fraction, hsign, hbiased, hfraction, hbits⟩ := exists_fields x
  rw [ofFloat, hbits, ofBits_fields hsign hbiased hfraction] at h
  split at h
  · split at h <;> cases h
  · split at h
    · cases h
      exact ⟨by omega, le_rfl, Or.inr rfl⟩
    · cases h
      exact ⟨by omega, by omega, Or.inl (by omega)⟩

/-- A double that is a number or infinite is known by its parts. -/
theorem eq_of_ofFloat_eq {x y : Float} (h : ofFloat x = ofFloat y) (hx : ofFloat x ≠ .notANumber) :
    x = y := by
  obtain ⟨sign, biased, fraction, hsign, hbiased, hfraction, hbits⟩ := exists_fields x
  obtain ⟨sign', biased', fraction', hsign', hbiased', hfraction', hbits'⟩ := exists_fields y
  have hsame : ((sign == 1) = (sign' == 1)) ↔ sign = sign' := by
    rw [Bool.eq_iff_iff, beq_iff_eq, beq_iff_eq]
    omega
  have hfields : sign = sign' ∧ biased = biased' ∧ fraction = fraction' := by
    rw [ofFloat, hbits, ofBits_fields hsign hbiased hfraction] at h hx
    rw [ofFloat, hbits', ofBits_fields hsign' hbiased' hfraction'] at h
    split_ifs at h hx <;>
      simp only [finite.injEq, infinite.injEq, hsame, ne_eq, not_true_eq_false, reduceCtorEq]
        at h hx <;> omega
  have htoBits : x.toBits = y.toBits := UInt64.toNat_inj.1 (by omega)
  obtain ⟨⟨bits, _⟩⟩ := x
  obtain ⟨⟨bits', _⟩⟩ := y
  cases (htoBits : bits = bits')
  rfl

/-- The number that the parts of a finite double stand for. -/
def number (negative : Bool) (significand : Nat) (exponent : Int) : ℚ :=
  (if negative then -1 else 1) * (significand * 2 ^ exponent)

theorem abs_number (negative : Bool) (s : Nat) (e : Int) : |number negative s e| = s * 2 ^ e := by
  have hnonneg : (0 : ℚ) ≤ s * 2 ^ e := by positivity
  unfold number
  split
  · rw [neg_one_mul, abs_neg, abs_of_nonneg hnonneg]
  · rw [one_mul, abs_of_nonneg hnonneg]

end Binary64

theorem Canonical.eq_of_le {s s' : Nat} {e e' : Int} (h : Canonical s e) (h' : Canonical s' e')
    (he : e ≤ e') (hvalue : (s : ℚ) * 2 ^ e = s' * 2 ^ e') : s = s' ∧ e = e' := by
  obtain ⟨k, rfl⟩ := Int.le.dest he
  have hpos : (0 : ℚ) < 2 ^ e := by positivity
  have hs : s = s' * 2 ^ k := by
    rw [zpow_add₀ two_ne_zero, mul_comm (2 ^ e), ← mul_assoc, zpow_natCast] at hvalue
    exact_mod_cast mul_right_cancel₀ hpos.ne' hvalue
  -- a larger exponent is not the smallest one, and its significand would be too long here
  rcases Nat.eq_zero_or_pos k with rfl | hk
  · simpa using hs
  · have hlong : 2 ^ 52 ≤ s' := h'.long.resolve_right (by have := h.smallest; omega)
    have hdouble : s' * 2 ≤ s' * 2 ^ k :=
      Nat.mul_le_mul_left _ (Nat.le_self_pow hk.ne' 2)
    have := h.bits
    omega

/-- Doubles of one magnitude have the same significand and exponent. -/
theorem Canonical.eq {s s' : Nat} {e e' : Int} (h : Canonical s e) (h' : Canonical s' e')
    (hvalue : (s : ℚ) * 2 ^ e = s' * 2 ^ e') : s = s' ∧ e = e' := by
  rcases le_total e e' with he | he
  · exact h.eq_of_le h' he hvalue
  · exact (h'.eq_of_le h he hvalue.symm).imp Eq.symm Eq.symm

/-! ## Rounding whole numbers -/

/-- What rounding a whole number gives: no double is nearer to it, and if another one is as near,
    the significand is even. From half a unit beyond the largest double, which is
    (2 ^ 53 - 1) · 2 ^ 971, numbers are rounded to infinity. -/
inductive Rounds (n : Int) : Binary64 → Prop
  | finite {s : Nat} {e : Int} (hsize : n.natAbs < (2 ^ 54 - 1) * 2 ^ 970)
      (hnearest : ∀ y negative s' e', Binary64.ofFloat y = .finite negative s' e' →
        |Binary64.number (n < 0) s e - n| ≤ |Binary64.number negative s' e' - n|)
      (htie : ∀ y negative s' e', Binary64.ofFloat y = .finite negative s' e' →
        Binary64.number negative s' e' ≠ Binary64.number (n < 0) s e →
        |Binary64.number (n < 0) s e - n| = |Binary64.number negative s' e' - n| → s % 2 = 0) :
      Rounds n (.finite (n < 0) s e)
  | infinite (hsize : (2 ^ 54 - 1) * 2 ^ 970 ≤ n.natAbs) : Rounds n (.infinite (n < 0))

namespace Rounds

open Binary64

/-- The distance of a double with the sign of the number is that of their magnitudes. -/
theorem abs_number_sub (n : Int) (s : Nat) (e : Int) :
    |number (n < 0) s e - n| = |(s : ℚ) * 2 ^ e - n.natAbs| := by
  rcases lt_or_ge n 0 with hn | hn
  · have hcast : ((n.natAbs : ℕ) : ℚ) = -n := by
      rw [Nat.cast_natAbs, abs_of_neg hn, Int.cast_neg]
    rw [hcast, number, decide_eq_true hn, if_pos rfl, ← abs_neg]
    congr 1
    ring
  · have hcast : ((n.natAbs : ℕ) : ℚ) = n := by
      rw [Nat.cast_natAbs, abs_of_nonneg hn]
    rw [hcast, number, decide_eq_false hn.not_gt, if_neg Bool.false_ne_true, one_mul]

/-- Whatever its sign, a double is no nearer than that. -/
theorem le_abs_number_sub (n : Int) (negative : Bool) (s : Nat) (e : Int) :
    |(s : ℚ) * 2 ^ e - n.natAbs| ≤ |number negative s e - n| := by
  have hcast : ((n.natAbs : ℕ) : ℚ) = |(n : ℚ)| := by
    rw [Nat.cast_natAbs, Int.cast_abs]
  rw [← abs_number negative, hcast]
  exact abs_abs_sub_abs_le_abs_sub _ _

/-- Two doubles of one magnitude and two signs are not at one distance. -/
theorem number_eq_of_abs_eq {n : Int} {s : Nat} {e : Int} (h : IsRounded n.natAbs s e) {w : ℚ}
    (habs : |w| = |number (n < 0) s e|) (heq : |number (n < 0) s e - n| = |w - n|) :
    w = number (n < 0) s e := by
  rcases abs_eq_abs.1 habs with hsame | hopposite
  · exact hsame
  · rw [hopposite, abs_eq_abs] at heq
    have hzero : number (n < 0) s e = 0 := by
      rcases heq with hv | hn
      · linarith
      · have hn : n = 0 := by exact_mod_cast (by linarith : (n : ℚ) = 0)
        subst hn
        have hle := h.nearest 0 0 (by decide)
        rw [← abs_number_sub] at hle
        simpa using hle
    rw [hopposite, hzero, neg_zero]

/-- The double that a whole number converts to is the one that rounding gives. -/
theorem ofFloat_ofInt (n : Int) : Rounds n (ofFloat (.ofModel (.ofInt n))) := by
  obtain ⟨s, e, hrounded, hparts⟩ := exists_ofFloat_ofInt n
  have hsize : e ≤ 971 ↔ n.natAbs < (2 ^ 54 - 1) * 2 ^ 970 := hrounded.exponent_le_iff 970
  rw [hparts]
  split
  · next he =>
    refine .finite (hsize.1 he) ?_ ?_
    · intro y negative s' e' hy
      have hbits := (canonical_of_ofFloat hy).bits
      calc |number (n < 0) s e - n| = |(s : ℚ) * 2 ^ e - n.natAbs| := abs_number_sub n s e
        _ ≤ |(s' : ℚ) * 2 ^ e' - n.natAbs| := hrounded.nearest s' e' hbits
        _ ≤ |number negative s' e' - n| := le_abs_number_sub n negative s' e'
    · intro y negative s' e' hy hne heq
      have hbits := (canonical_of_ofFloat hy).bits
      have hle : |(s' : ℚ) * 2 ^ e' - n.natAbs| ≤ |(s : ℚ) * 2 ^ e - n.natAbs| := by
        rw [← abs_number_sub n s e, heq]
        exact le_abs_number_sub n negative s' e'
      refine (hrounded.tie s' e' hbits ?_ (le_antisymm (hrounded.nearest s' e' hbits) hle)).1
      intro hvalue
      refine hne (number_eq_of_abs_eq hrounded ?_ heq)
      rw [abs_number, abs_number, hvalue]
  · next he => exact .infinite (not_lt.1 (mt hsize.2 he))

/-- Rounding gives one double. -/
theorem eq_ofInt {n : Int} {x : Float} (h : Rounds n (ofFloat x)) : x = .ofModel (.ofInt n) := by
  obtain ⟨s, e, hrounded, hparts⟩ := exists_ofFloat_ofInt n
  have hsize : e ≤ 971 ↔ n.natAbs < (2 ^ 54 - 1) * 2 ^ 970 := hrounded.exponent_le_iff 970
  generalize hx : ofFloat x = parts at h
  cases h with
  | @finite s' e' hsmall hnearest htie =>
    rw [if_pos (hsize.2 hsmall)] at hparts
    have hle := hnearest _ _ _ _ hparts
    rw [abs_number_sub, abs_number_sub] at hle
    have hcanonical := canonical_of_ofFloat hx
    have heq := le_antisymm (hrounded.nearest s' e' hcanonical.bits) hle
    by_cases hvalue : (s' : ℚ) * 2 ^ e' = s * 2 ^ e
    · obtain ⟨rfl, rfl⟩ := hcanonical.eq hrounded.canonical hvalue
      exact eq_of_ofFloat_eq (hx.trans hparts.symm) (by rw [hx]; exact Binary64.noConfusion)
    · -- of two doubles as near as each other, only one has an even significand
      have hodd := (hrounded.tie s' e' hcanonical.bits hvalue heq).2
      have heven : s' % 2 = 0 := by
        refine htie _ _ _ _ hparts ?_ ?_
        · intro hnumber
          have habs := congrArg (|·|) hnumber
          rw [abs_number, abs_number] at habs
          exact hvalue habs.symm
        · rw [abs_number_sub, abs_number_sub, heq]
      omega
  | infinite hlarge =>
    rw [if_neg (mt hsize.1 (not_lt.2 hlarge))] at hparts
    exact eq_of_ofFloat_eq (hx.trans hparts.symm) (by rw [hx]; exact Binary64.noConfusion)

end Rounds

end GoBindings.Decimal
