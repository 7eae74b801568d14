/-
# Runtime.Binary64 -- arithmetic that is rounded

A finite float is taken as the rational number that it is.  A quotient of integers, and a
difference or a product of floats, is the float nearest to the exact one (`double`), which is
half a `spacing` away at most.  What overflows is left out: the numbers here are below 2^1024.
-/
import Cronwatch.Runtime.Clock
import Mathlib.Data.Int.Log
import Mathlib.Data.Rat.Floor

namespace Cronwatch.Runtime

set_option autoImplicit false

/-- The distance between floats of this size: 53 binary digits, and none behind 2^-1074. -/
def spacing (q : ℚ) : ℚ := 2 ^ max (Int.log 2 |q| - 52) (-1074)

/-- The float nearest to a number; of two that are equally near, the one with an even last
digit. -/
def double (q : ℚ) : ℚ := roundHalfEven (q / spacing q) * spacing q

/-- `0.1`, and `1.0 - 9 / 10`, which is less. -/
example : double (1 / 10) = 3602879701896397 / 2 ^ 55 ∧
    double (1 - double (9 / 10)) = 900719925474099 / 2 ^ 53 := by decide +kernel

theorem roundHalfEven_near (q : ℚ) : |(roundHalfEven q : ℚ) - q| ≤ 1 / 2 := by
  have low : (q.floor : ℚ) ≤ q := Int.floor_le q
  have high : q < q.floor + 1 := Int.lt_floor_add_one q
  unfold roundHalfEven
  dsimp only
  rw [abs_le]
  split_ifs <;> push_cast <;> constructor <;> linarith

theorem spacing_pos (q : ℚ) : 0 < spacing q := zpow_pos two_pos _

/-- **The error of rounding** is half the distance to the next float at most. -/
theorem double_near (q : ℚ) : |double q - q| ≤ spacing q / 2 := by
  have positive := spacing_pos q
  have scaled : double q - q = (roundHalfEven (q / spacing q) - q / spacing q) * spacing q := by
    rw [double, sub_mul, div_mul_cancel₀ _ positive.ne']
  rw [scaled, abs_mul, abs_of_pos positive]
  calc _ ≤ 1 / 2 * spacing q :=
        mul_le_mul_of_nonneg_right (roundHalfEven_near _) positive.le
    _ = spacing q / 2 := by ring

/-- Below 2 floats are 2^-52 apart at most. -/
theorem double_near_of_lt_two {q : ℚ} (small : |q| < 2) : |double q - q| ≤ 2 ^ (-53 : Int) := by
  have digits : Int.log 2 |q| ≤ 0 := by
    rcases (abs_nonneg q).eq_or_lt with zero | positive
    · rw [← zero, Int.log_zero_right]
    · have below : Int.log 2 |q| < 1 :=
        (Int.lt_zpow_iff_log_lt one_lt_two positive).mp (by simpa using small)
      omega
  have apart : spacing q ≤ 2 ^ (-52 : Int) :=
    zpow_le_zpow_right₀ one_le_two (max_le (by omega) (by decide))
  calc |double q - q| ≤ spacing q / 2 := double_near q
    _ ≤ 2 ^ (-52 : Int) / 2 := div_le_div_of_nonneg_right apart zero_le_two
    _ = 2 ^ (-53 : Int) := by norm_num

end Cronwatch.Runtime
