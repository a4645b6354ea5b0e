import Mathlib.Algebra.Order.Archimedean.Basic
import Mathlib.Data.Rat.Floor
import Mathlib.Tactic.Linarith
import Mathlib.Tactic.NormNum
import TemplateBindings.Clock.Double

/-!
# What rounding loses

Rounding to an integer loses at most a half (`TemplateBindings.Rounding.abs_toInteger_sub_le`). Rounding to
53 binary digits is rounding to an integer in units of a power of two, which is the smaller the smaller
the number is. So a number that is less than a power of two in size is changed by no more than that
power, 54 binary places further down (`TemplateBindings.Rounding.abs_toDouble_sub_le`).
-/

namespace TemplateBindings
namespace Rounding

variable {x : Rat} {n e : Int}

/-! ### To an integer -/

/-- **Rounding to an integer** loses at most a half. -/
theorem abs_toInteger_sub_le (x : Rat) : |(toInteger x : Rat) - x| ≤ 1 / 2 := by
  have hbelow : (x.floor : Rat) ≤ x := Rat.floor_le x
  have habove : x < x.floor + 1 := Int.lt_floor_add_one x
  rw [toInteger, abs_le]
  split_ifs with hlow hhigh heven <;> push_cast <;> constructor <;> linarith

/-- What is closer than a half to an integer is rounded to it. -/
theorem toInteger_eq (h : |x - n| < 1 / 2) : toInteger x = n := by
  have hround := abs_toInteger_sub_le x
  rw [abs_lt] at h
  rw [abs_le] at hround
  have hle : (toInteger x : Rat) < n + 1 := by linarith
  have hge : (n : Rat) < toInteger x + 1 := by linarith
  norm_cast at hle hge
  omega

/-- What is cut off on the side of zero is less than one. -/
theorem abs_sub_towardZero_lt (x : Rat) : |x - towardZero x| < 1 := by
  have hden : (0 : Rat) < x.den := by exact_mod_cast x.den_pos
  have hrest : x - towardZero x = (x.num.tmod x.den : Int) / x.den := by
    have hsplit : (x.num : Rat) = x.den * towardZero x + (x.num.tmod x.den : Int) := by
      exact_mod_cast (Int.mul_tdiv_add_tmod x.num x.den).symm
    rw [eq_div_iff hden.ne', sub_mul, Rat.mul_den_eq_num, hsplit]
    ring
  have hlt : |x.num.tmod x.den| < x.den := by
    rw [Int.abs_eq_natAbs, Int.natAbs_tmod]
    exact_mod_cast Nat.mod_lt _ x.den_pos
  rw [hrest, abs_div, abs_of_pos hden, div_lt_one hden]
  exact_mod_cast hlt

/-! ### To 53 binary digits -/

/-- The exponent of a number is not too large. -/
theorem zpow_binaryLog_le (hx : 0 < x) : (2 : Rat) ^ binaryLog x ≤ x := by
  rw [binaryLog]
  split
  · next h => exact h
  · -- the guess compares the numerator's power of two with the denominator's, and is one off at most
    have hnum : 0 < x.num := Rat.num_pos.2 hx
    have hlow : ((2 : Rat) ^ x.num.natAbs.log2) ≤ x.num.natAbs := by
      exact_mod_cast Nat.log2_self_le (by omega)
    have hhigh : (x.den : Rat) < 2 ^ (x.den.log2 + 1) := by
      exact_mod_cast Nat.lt_log2_self
    have hden : (0 : Rat) < x.den := by exact_mod_cast x.den_pos
    calc (2 : Rat) ^ ((x.num.natAbs.log2 : Int) - x.den.log2 - 1)
        = 2 ^ x.num.natAbs.log2 / 2 ^ (x.den.log2 + 1) := by
          rw [Int.sub_sub, zpow_sub₀ two_ne_zero, ← Nat.cast_succ, zpow_natCast, zpow_natCast]
      _ ≤ x.num.natAbs / x.den := by gcongr
      _ = x := by
          rw [← Int.cast_natCast (R := Rat), Int.natAbs_of_nonneg hnum.le, Rat.num_div_den]

theorem spacing_pos (x : Rat) : 0 < spacing x := zpow_pos two_pos _

/-- Smaller numbers lie closer to each other. -/
theorem spacing_le (hx : x ≠ 0) (h : |x| < 2 ^ e) : spacing x ≤ 2 ^ (e - 53) := by
  have habs : (if x < 0 then -x else x) = |x| := by
    split
    · next hneg => exact (abs_of_neg hneg).symm
    · next hpos => exact (abs_of_nonneg (not_lt.1 hpos)).symm
  have hlog : binaryLog |x| < e :=
    (zpow_lt_zpow_iff_right₀ one_lt_two).1 ((zpow_binaryLog_le (abs_pos.2 hx)).trans_lt h)
  rw [spacing, habs]
  exact zpow_le_zpow_right₀ one_le_two (by omega)

/-- **Rounding to 53 binary digits** loses at most half the distance between neighbours. -/
theorem abs_toDouble_sub_le (h : |x| < 2 ^ e) : |toDouble x - x| ≤ 2 ^ (e - 54) := by
  by_cases hx : x = 0
  · rw [toDouble, if_pos hx, hx, sub_zero, abs_zero]
    exact (zpow_pos two_pos _).le
  · have hpos := spacing_pos x
    have hspace := spacing_le hx h
    have hsplit : toDouble x - x = (toInteger (x / spacing x) - x / spacing x) * spacing x := by
      rw [toDouble, if_neg hx, sub_mul, div_mul_cancel₀ _ hpos.ne']
    rw [hsplit, abs_mul, abs_of_pos hpos]
    calc |(toInteger (x / spacing x) : Rat) - x / spacing x| * spacing x
        ≤ 1 / 2 * 2 ^ (e - 53) := by
          gcongr
          exact abs_toInteger_sub_le _
      _ = 2 ^ (e - 54) := by
          have he : e - 53 = e - 54 + 1 := by omega
          rw [he, zpow_add_one₀ two_ne_zero]
          ring

end Rounding
end TemplateBindings
