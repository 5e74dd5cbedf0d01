import Mathlib.Data.Int.Log
import Mathlib.Data.Rat.Floor
import Mathlib.Tactic.Linarith
import Mathlib.Tactic.Positivity

/-!
# Doubles and rounding

A double is taken as the rational it stands for.  An operation on doubles is the
exact one, rounded to the nearest double, ties to the even one; what is too
large for a double does not occur.
-/

namespace Northwind

/-- `round(x)`: the nearest integer, of two nearest ones the even one. -/
def roundHalfEven (x : ℚ) : ℤ :=
  let fraction := x - ⌊x⌋
  if fraction < 1 / 2 then ⌊x⌋
  else if 1 / 2 < fraction then ⌊x⌋ + 1
  else if ⌊x⌋ % 2 = 0 then ⌊x⌋
  else ⌊x⌋ + 1

/-- The distance of the doubles around a number. -/
def unitInLastPlace (x : ℚ) : ℚ :=
  2 ^ (max (Int.log 2 |x|) (-1022) - 52)

/-- The double nearest to a number. -/
def binary64 (x : ℚ) : ℚ :=
  roundHalfEven (x / unitInLastPlace x) * unitInLastPlace x

theorem roundHalfEven_le (x : ℚ) : (roundHalfEven x : ℚ) ≤ x + 1 / 2 := by
  have hfloor := Int.floor_le x
  simp only [roundHalfEven]
  split
  · linarith
  · split
    · push_cast
      linarith
    · split
      · linarith
      · push_cast
        linarith

theorem le_roundHalfEven (x : ℚ) : x - 1 / 2 ≤ roundHalfEven x := by
  have hfloor := Int.lt_floor_add_one x
  simp only [roundHalfEven]
  split
  · linarith
  · split
    · push_cast
      linarith
    · split
      · linarith
      · push_cast
        linarith

theorem unitInLastPlace_pos (x : ℚ) : 0 < unitInLastPlace x := by
  rw [unitInLastPlace]
  exact zpow_pos (by norm_num) _

theorem unitInLastPlace_le {x : ℚ} (hx : 0 ≤ x) : unitInLastPlace x ≤ x / 100 + 1 / 100 := by
  have hsmall : (2 : ℚ) ^ (-52 : ℤ) ≤ 1 / 100 := by norm_num
  have htiny : (2 : ℚ) ^ (-1074 : ℤ) ≤ (2 : ℚ) ^ (-52 : ℤ) :=
    zpow_le_zpow_right₀ (by norm_num) (by norm_num)
  rw [unitInLastPlace, abs_of_nonneg hx]
  rcases le_total (Int.log 2 x) (-1022) with hle | hle
  · rw [max_eq_right hle]
    have hexponent : (-1022 - 52 : ℤ) = -1074 := by norm_num
    rw [hexponent]
    calc (2 : ℚ) ^ (-1074 : ℤ)
        ≤ 1 / 100 := htiny.trans hsmall
      _ ≤ x / 100 + 1 / 100 := by linarith
  · rw [max_eq_left hle, zpow_sub₀ (by norm_num), div_eq_mul_inv, ← zpow_neg]
    rcases hx.eq_or_lt with rfl | hpos
    · simp only [Int.log_zero_right, zpow_zero, one_mul, zero_div, zero_add]
      exact hsmall
    · have hlog : (2 : ℚ) ^ Int.log 2 x ≤ x := by
        exact_mod_cast Int.zpow_log_le_self (b := 2) (by norm_num) hpos
      calc (2 : ℚ) ^ Int.log 2 x * 2 ^ (-52 : ℤ)
          ≤ x * (1 / 100) := mul_le_mul hlog hsmall (by positivity) hx
        _ ≤ x / 100 + 1 / 100 := by linarith

/-- A double is hardly more than the number it stands for. -/
theorem binary64_le {x : ℚ} (hx : 0 ≤ x) : binary64 x ≤ x * (201 / 200) + 1 / 200 := by
  have hunit := unitInLastPlace_pos x
  have hround := mul_le_mul_of_nonneg_right (roundHalfEven_le (x / unitInLastPlace x)) hunit.le
  have hle := unitInLastPlace_le hx
  calc binary64 x
      ≤ (x / unitInLastPlace x + 1 / 2) * unitInLastPlace x := hround
    _ = x + unitInLastPlace x / 2 := by field_simp
    _ ≤ x * (201 / 200) + 1 / 200 := by linarith

/-- Nor is it much less. -/
theorem le_binary64 {x : ℚ} (hx : 0 ≤ x) : x * (199 / 200) - 1 / 200 ≤ binary64 x := by
  have hunit := unitInLastPlace_pos x
  have hround := mul_le_mul_of_nonneg_right (le_roundHalfEven (x / unitInLastPlace x)) hunit.le
  have hle := unitInLastPlace_le hx
  calc x * (199 / 200) - 1 / 200
      ≤ x - unitInLastPlace x / 2 := by linarith
    _ = (x / unitInLastPlace x - 1 / 2) * unitInLastPlace x := by field_simp
    _ ≤ binary64 x := hround

theorem roundHalfEven_nonneg {x : ℚ} (hx : 0 ≤ x) : 0 ≤ roundHalfEven x := by
  have hfloor : 0 ≤ ⌊x⌋ := Int.floor_nonneg.mpr hx
  simp only [roundHalfEven]
  split
  · exact hfloor
  · split
    · omega
    · split <;> omega

theorem binary64_nonneg {x : ℚ} (hx : 0 ≤ x) : 0 ≤ binary64 x := by
  have hunit := unitInLastPlace_pos x
  have hround : (0 : ℚ) ≤ roundHalfEven (x / unitInLastPlace x) := by
    exact_mod_cast roundHalfEven_nonneg (div_nonneg hx hunit.le)
  exact mul_nonneg hround hunit.le

end Northwind
