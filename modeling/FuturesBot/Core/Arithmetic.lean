import FuturesBot.Lib.Rounding

namespace FuturesBot
open Lib

/-- How the results of a calculation are rounded: not at all, or as the `float` and the `Decimal`
of the program are. A `float` is taken for the decimal that it is written as, and becomes the
nearest one where it is calculated with. -/
inductive Arithmetic
  | exact | python
  deriving DecidableEq, Repr

namespace Arithmetic

/-- 53 binary digits, for numbers that are neither huge nor tiny. -/
def float : Arithmetic → Rounding
  | .exact => .exact
  | .python => .ofDigits 2 53 (by decide) (by decide) (by decide)

/-- 28 decimal digits, likewise. -/
def decimal : Arithmetic → Rounding
  | .exact => .exact
  | .python => .ofDigits 10 28 (by decide) (by decide) (by decide)

end Arithmetic

/-- The `float` that is nearest to a number. -/
def nearestFloat (x : ℚ) : ℚ := Arithmetic.python.float x

/-- A `float` holds every integer of no more than 53 binary digits. -/
theorem nearestFloat_intCast {n : ℤ} (h : |n| < 2 ^ 53) : nearestFloat n = n := by
  have hlt : |n| < ((2 : ℕ) : ℤ) ^ 53 := by exact_mod_cast h
  have hshort := roundDigits_short (by decide) hlt 0
  rwa [zpow_zero, mul_one] at hshort

theorem abs_nearestFloat_le (x : ℚ) : |nearestFloat x| ≤ 2 * |x| :=
  Arithmetic.python.float.abs_apply_le x

end FuturesBot
