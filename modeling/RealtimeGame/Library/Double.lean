import Mathlib.Data.Nat.Log
import RealtimeGame.Library.Significant

/-!
# Library/Double — the double that is nearest to a natural number

The significand of a double has 53 bits, so that every number below `2^53` is a double (`ofNat_of_lt`).  A
larger one is rounded to a multiple of a power of two, to the even one of two that are equally near; one that
is too large for the exponent is infinite.
-/

namespace Library

namespace Double

/-- What the last bit of the significand is worth. -/
def ulp (n : Nat) : Nat := 2 ^ (Nat.log2 n - 52)

/-- In multiples of the last bit. -/
def rounded (n : Nat) : Nat := Significant.nearest (n / ulp n) * ulp n

/-- The double nearest to a number, and `none` if that is infinite. -/
def ofNat (n : Nat) : Option Nat := if rounded n < 2 ^ 1024 then some (rounded n) else none

example : ofNat (2 ^ 53 + 1) = some (2 ^ 53) := by decide +kernel
example : ofNat (2 ^ 1024 - 2 ^ 970) = none := by decide +kernel

/-- Up to `2^53` the last bit is worth one. -/
theorem ulp_of_lt {n : Nat} (h : n < 2 ^ 53) : ulp n = 1 := by
  have hlog : Nat.log2 n ≤ 52 := by
    rcases eq_or_ne n 0 with rfl | hne
    · decide
    · exact Nat.le_of_lt_succ ((Nat.log2_lt hne).mpr h)
  rw [ulp, Nat.sub_eq_zero_of_le hlog, pow_zero]

/-- **A number below `2^53` is a double.** -/
theorem ofNat_of_lt {n : Nat} (h : n < 2 ^ 53) : ofNat n = some n := by
  have hrounded : rounded n = n := by
    rw [rounded, ulp_of_lt h, Nat.cast_one, div_one, Significant.nearest_natCast, mul_one]
  have hlimit : 2 ^ 53 ≤ 2 ^ 1024 := pow_le_pow_right₀ one_le_two (by omega)
  rw [ofNat, hrounded, if_pos (h.trans_le hlimit)]

end Double

end Library
