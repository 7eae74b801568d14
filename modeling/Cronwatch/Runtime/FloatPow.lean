/-
# Runtime.FloatPow -- powers of floats

Float arithmetic is taken as exact but for powers: `**` and `math.pow` raise
`OverflowError` when the exact value is too large for a float (`floatPow`).
`exactPow` is the power without that limit.
-/
import Cronwatch.Runtime.Python
import Mathlib.Algebra.Order.Field.Rat
import Mathlib.Algebra.Order.Ring.Abs

namespace Cronwatch.Runtime

set_option autoImplicit false

/-- A power function, of base and exponent. -/
abbrev Power := ℚ → Nat → Except PyException ℚ

def exactPow : Power := fun base exponent => .ok (base ^ exponent)

def floatPow (message : String) : Power := fun base exponent =>
  if |base ^ exponent| < 2 ^ 1024 then .ok (base ^ exponent) else .error (.overflowError message)

/-- `base ** exponent`. -/
def doubleStar : Power := floatPow "(34, 'Numerical result out of range')"

/-- `math.pow(base, exponent)`. -/
def mathPow : Power := floatPow "math range error"

theorem floatPow_zero (message : String) (base : ℚ) : floatPow message base 0 = .ok 1 := by
  have small : |base ^ 0| < 2 ^ 1024 := by
    rw [pow_zero, abs_one]
    exact one_lt_pow₀ one_lt_two (by decide)
  rw [floatPow, if_pos small, pow_zero]

/-- For a base of at least 1 no sign comes in. -/
theorem floatPow_of_one_le (message : String) {base : ℚ} (growing : 1 ≤ base) (exponent : Nat) :
    floatPow message base exponent =
      if base ^ exponent < 2 ^ 1024 then .ok (base ^ exponent)
      else .error (.overflowError message) := by
  rw [floatPow, abs_of_nonneg (pow_nonneg (zero_le_one.trans growing) exponent)]

end Cronwatch.Runtime
