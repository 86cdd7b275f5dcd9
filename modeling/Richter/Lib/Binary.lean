import Mathlib.Data.Int.Log
import Mathlib.Data.Rat.Floor
import Mathlib.Tactic.Linarith
import Mathlib.Tactic.Positivity
import Mathlib.Tactic.Ring

/-! Rounding to binary floating point: to the nearest number with `prec` binary digits, and of two to
the even one.  Exponents begin at `emin` and have no end, so that nothing overflows. -/

namespace Lib

/-- The nearest integer, and of two the even one. -/
def roundHalfEven (x : ℚ) : ℤ :=
  if x - ⌊x⌋ < 1 / 2 then ⌊x⌋
  else if 1 / 2 < x - ⌊x⌋ then ⌊x⌋ + 1
  else ⌊x⌋ + ⌊x⌋ % 2

@[simp] theorem roundHalfEven_intCast (k : ℤ) : roundHalfEven k = k := by
  simp [roundHalfEven]

theorem roundHalfEven_bounds (x : ℚ) : ⌊x⌋ ≤ roundHalfEven x ∧ roundHalfEven x ≤ ⌊x⌋ + 1 := by
  have hLow := Int.emod_nonneg ⌊x⌋ two_ne_zero
  have hHigh := Int.emod_lt_of_pos ⌊x⌋ two_pos
  unfold roundHalfEven
  split
  · omega
  · split <;> omega

theorem roundHalfEven_mono {x y : ℚ} (h : x ≤ y) : roundHalfEven x ≤ roundHalfEven y := by
  rcases (Int.floor_mono h).lt_or_eq with hLt | hEq
  · have hx := (roundHalfEven_bounds x).2
    have hy := (roundHalfEven_bounds y).1
    omega
  · -- Between the same integers, the fractions decide.
    have hLow := Int.emod_nonneg ⌊y⌋ two_ne_zero
    have hHigh := Int.emod_lt_of_pos ⌊y⌋ two_pos
    unfold roundHalfEven
    rw [hEq]
    split_ifs <;> first | omega | linarith

/-- The exponent of the last digit of a number that is rounded. -/
def ulpExponent (prec : ℕ) (emin : ℤ) (x : ℚ) : ℤ := max (Int.log 2 |x|) emin - (prec - 1 : ℕ)

/-- The nearest binary number. -/
def roundBinary (prec : ℕ) (emin : ℤ) (x : ℚ) : ℚ :=
  roundHalfEven (x / 2 ^ ulpExponent prec emin x) * 2 ^ ulpExponent prec emin x

/-- `float32`. -/
def roundFloat32 : ℚ → ℚ := roundBinary 24 (-126)

section Order

variable {prec : ℕ} {emin : ℤ} {x y : ℚ}

@[simp] theorem roundBinary_zero : roundBinary prec emin 0 = 0 := by
  have hZero := roundHalfEven_intCast 0
  simp only [Int.cast_zero] at hZero
  simp [roundBinary, hZero]

theorem zpow_ulp_pos (k : ℤ) : (0 : ℚ) < 2 ^ k := zpow_pos two_pos k

/-- A power of two is a whole number of units of each smaller one. -/
theorem zpow_div_zpow {k e : ℤ} (h : e ≤ k) :
    (2 : ℚ) ^ k / 2 ^ e = ((2 ^ (k - e).toNat : ℤ) : ℚ) := by
  rw [← zpow_sub₀ two_ne_zero]
  have hCast : ((k - e).toNat : ℤ) = k - e := Int.toNat_of_nonneg (by omega)
  push_cast
  rw [← zpow_natCast, hCast]

theorem roundBinary_le_zpow {k : ℤ} (h : x ≤ 2 ^ k) (hk : ulpExponent prec emin x ≤ k) :
    roundBinary prec emin x ≤ 2 ^ k := by
  have hUnit := zpow_ulp_pos (ulpExponent prec emin x)
  rw [roundBinary, ← le_div_iff₀ hUnit, zpow_div_zpow hk, Int.cast_le,
    ← roundHalfEven_intCast (2 ^ (k - ulpExponent prec emin x).toNat), ← zpow_div_zpow hk]
  exact roundHalfEven_mono (div_le_div_of_nonneg_right h hUnit.le)

theorem zpow_le_roundBinary {k : ℤ} (h : 2 ^ k ≤ x) (hk : ulpExponent prec emin x ≤ k) :
    2 ^ k ≤ roundBinary prec emin x := by
  have hUnit := zpow_ulp_pos (ulpExponent prec emin x)
  rw [roundBinary, ← div_le_iff₀ hUnit, zpow_div_zpow hk, Int.cast_le,
    ← roundHalfEven_intCast (2 ^ (k - ulpExponent prec emin x).toNat), ← zpow_div_zpow hk]
  exact roundHalfEven_mono (div_le_div_of_nonneg_right h hUnit.le)

theorem roundBinary_nonneg (h : 0 ≤ x) : 0 ≤ roundBinary prec emin x := by
  have hUnit := zpow_ulp_pos (ulpExponent prec emin x)
  have hRound : 0 ≤ roundHalfEven (x / 2 ^ ulpExponent prec emin x) := by
    rw [← roundHalfEven_intCast 0, Int.cast_zero]
    exact roundHalfEven_mono (div_nonneg h hUnit.le)
  exact mul_nonneg (by exact_mod_cast hRound) hUnit.le

/-- Rounding keeps the order: a number of a smaller exponent stays below the power of two that
begins the greater one. -/
theorem roundBinary_mono (hx : 0 ≤ x) (h : x ≤ y) :
    roundBinary prec emin x ≤ roundBinary prec emin y := by
  rcases hx.eq_or_lt with rfl | hPos
  · rw [roundBinary_zero]
    exact roundBinary_nonneg h
  have hLog : Int.log 2 |x| ≤ Int.log 2 |y| := by
    rw [abs_of_pos hPos, abs_of_pos (hPos.trans_le h)]
    exact Int.log_mono_right hPos h
  by_cases hSame : ulpExponent prec emin x = ulpExponent prec emin y
  · have hUnit := zpow_ulp_pos (ulpExponent prec emin y)
    rw [roundBinary, roundBinary, hSame]
    refine mul_le_mul_of_nonneg_right ?_ hUnit.le
    exact_mod_cast roundHalfEven_mono (div_le_div_of_nonneg_right h hUnit.le)
  · unfold ulpExponent at hSame
    have hLess : Int.log 2 |x| + 1 ≤ Int.log 2 |y| ∧ emin ≤ Int.log 2 |y| := by omega
    have hUpper : x ≤ 2 ^ Int.log 2 |y| := by
      have hNext := Int.lt_zpow_succ_log_self (b := 2) one_lt_two x
      rw [abs_of_pos hPos] at hLess
      exact hNext.le.trans (zpow_le_zpow_right₀ one_le_two hLess.1)
    have hLower : 2 ^ Int.log 2 |y| ≤ y := by
      rw [abs_of_pos (hPos.trans_le h)]
      exact_mod_cast Int.zpow_log_le_self (b := 2) one_lt_two (hPos.trans_le h)
    exact (roundBinary_le_zpow hUpper (by unfold ulpExponent; omega)).trans
      (zpow_le_roundBinary hLower (by unfold ulpExponent; omega))

end Order

example : roundFloat32 (1 / 10) = 13421773 / 134217728 := by decide +kernel

end Lib
