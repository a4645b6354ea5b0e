import TemplateBindings.Proofs.Clock.Order
import TemplateBindings.Proofs.Clock.Rounding

/-!
# Modification times keep their milliseconds

The stamp of a modification time goes through double precision twice: the milliseconds become a number
of seconds, and the part of it behind the point a number of microseconds. Up to a size of `2 ^ 33`
seconds the first rounding moves a moment by less than half a microsecond, so that the second, which
is to whole microseconds, takes it back to where it was (`TemplateBindings.Clock.splitSeconds_eq`). It
does not matter then which whole number of seconds the parts were taken at, or on which side of zero.
From there on a millisecond may be lost.
-/

namespace TemplateBindings
namespace Clock

open Rounding

variable {x : Rat} {milliseconds nanoseconds : Int}

/-- The bound, in milliseconds, below which no millisecond is lost. -/
def exactBound : Int := 2 ^ 33 * 1000

/-- **The part behind the point** of a number of seconds that is close to a number of milliseconds: in
double precision it has the microseconds that the milliseconds leave behind the whole seconds, and no
more than a second of them. -/
theorem toInteger_part (h : |x - (milliseconds : Rat) / 1000| ≤ 2 ^ (-21 : Int)) {whole : Int}
    (hwhole : |x - whole| < 1) {micros : Int}
    (hmicros : micros = milliseconds * 1000 - whole * 1000000) :
    toInteger (toDouble ((x - whole) * 1000000)) = micros ∧ |micros| ≤ 1000000 := by
  have hpart : |(x - whole) * 1000000| < 1000000 := by
    rw [abs_mul]
    norm_num
    linarith
  have hnear : |(x - whole) * 1000000 - micros| ≤ 1000000 * 2 ^ (-21 : Int) := by
    have hscale : (x - whole) * 1000000 - micros = 1000000 * (x - (milliseconds : Rat) / 1000) := by
      rw [hmicros]
      push_cast
      ring
    rw [hscale, abs_mul]
    norm_num at h ⊢
    linarith
  have hdouble : |toDouble ((x - whole) * 1000000) - (x - whole) * 1000000| ≤ 2 ^ (-34 : Int) :=
    abs_toDouble_sub_le (e := 20) (hpart.trans (by norm_num))
  constructor
  · refine toInteger_eq ?_
    calc |toDouble ((x - whole) * 1000000) - micros|
        ≤ |toDouble ((x - whole) * 1000000) - (x - whole) * 1000000| +
            |(x - whole) * 1000000 - micros| := abs_sub_le ..
      _ ≤ 2 ^ (-34 : Int) + 1000000 * 2 ^ (-21 : Int) := add_le_add hdouble hnear
      _ < 1 / 2 := by norm_num
  · have hlt : |(micros : Rat)| < 1000001 :=
      calc |(micros : Rat)| = |(x - whole) * 1000000 - ((x - whole) * 1000000 - micros)| := by
            rw [sub_sub_cancel]
        _ ≤ |(x - whole) * 1000000| + |(x - whole) * 1000000 - micros| := abs_sub ..
        _ < 1000000 + 1000000 * 2 ^ (-21 : Int) := add_lt_add_of_lt_of_le hpart hnear
        _ < 1000001 := by norm_num
    have hlt' : |micros| < 1000001 := by exact_mod_cast hlt
    omega

/-- **The parts of a number of seconds** that is close to a number of milliseconds are the parts of the
milliseconds. -/
theorem splitSeconds_eq (h : |x - (milliseconds : Rat) / 1000| ≤ 2 ^ (-21 : Int)) :
    splitSeconds x = (milliseconds / 1000, milliseconds % 1000 * 1000) := by
  obtain ⟨micros, hmicros⟩ : ∃ micros, micros = milliseconds * 1000 - towardZero x * 1000000 :=
    ⟨_, rfl⟩
  obtain ⟨hround, hbound⟩ := toInteger_part h (abs_sub_towardZero_lt x) hmicros
  rw [splitSeconds, hround]
  rw [abs_le] at hbound
  clear hround h
  -- the carry and the borrow put the microseconds between zero and a second
  split
  · rw [Prod.mk.injEq]
    omega
  · split
    · rw [Prod.mk.injEq]
      omega
    · rw [Prod.mk.injEq]
      omega

/-- A number of seconds close to a moment of the years with stamps has its stamp. -/
theorem stampOfSeconds_eq (h : |x - (milliseconds : Rat) / 1000| ≤ 2 ^ (-21 : Int))
    (hyears : InYears milliseconds) : stampOfSeconds x = .ok (stampOfMilliseconds milliseconds) := by
  have hstamp := hasStamp_of_inYears hyears
  have hyear := hstamp
  rw [hasStamp, Bool.and_eq_true, decide_eq_true_iff, decide_eq_true_iff] at hyear
  rw [inYears_iff] at hyears
  have hseconds : (decide (milliseconds / 1000 < -secondsBound) ||
      decide (secondsBound ≤ milliseconds / 1000)) = false := by
    rw [Bool.or_eq_false_iff, decide_eq_false_iff_not, decide_eq_false_iff_not, secondsBound]
    omega
  have hmicros : (milliseconds % 1000 * 1000 / 1000).toNat = (milliseconds % 1000).toNat := by
    rw [Int.mul_ediv_cancel _ (by decide)]
  rw [stampOfSeconds, splitSeconds_eq h]
  dsimp only
  rw [hseconds, if_neg Bool.false_ne_true, if_neg, if_pos hstamp, hmicros]
  · rfl
  · rw [Bool.or_eq_true, decide_eq_true_iff, decide_eq_true_iff, yearBound]
    omega

/-- What lies within the bound is in the years with four digits. -/
theorem inYears_of_exactBound (hlow : -exactBound ≤ milliseconds) (hhigh : milliseconds < exactBound) :
    InYears milliseconds := by
  rw [exactBound] at hlow hhigh
  rw [inYears_iff]
  omega

/-- The seconds of such milliseconds are close to them. -/
theorem abs_toDouble_milliseconds (hlow : -exactBound ≤ milliseconds)
    (hhigh : milliseconds < exactBound) :
    |toDouble ((milliseconds : Rat) / 1000) - (milliseconds : Rat) / 1000| ≤ 2 ^ (-21 : Int) := by
  rw [exactBound] at hlow hhigh
  by_cases hend : milliseconds = -(2 ^ 33 * 1000)
  · -- the least of them is a power of two itself
    have hexact : toDouble (((-(2 ^ 33 * 1000) : Int) : Rat) / 1000) =
        ((-(2 ^ 33 * 1000) : Int) : Rat) / 1000 := by
      decide +kernel
    rw [hend, hexact, sub_self, abs_zero]
    exact (zpow_pos two_pos _).le
  · refine abs_toDouble_sub_le (e := 33) ?_
    have hlow' : (-(2 ^ 33 * 1000) : Rat) < milliseconds := by
      exact_mod_cast lt_of_le_of_ne hlow (Ne.symm hend)
    have hhigh' : (milliseconds : Rat) < 2 ^ 33 * 1000 := by exact_mod_cast hhigh
    rw [abs_lt]
    norm_num at hlow' hhigh' ⊢
    constructor <;> linarith

/-- **The stamp of a modification time** within the bound is that of its milliseconds. -/
theorem stampOfNanoseconds_eq (hlow : -exactBound ≤ nanoseconds / 1000000)
    (hhigh : nanoseconds / 1000000 < exactBound) :
    stampOfNanoseconds nanoseconds = .ok (stampOfMilliseconds (nanoseconds / 1000000)) := by
  obtain ⟨x, hx⟩ : ∃ x, x = toDouble (((nanoseconds / 1000000 : Int) : Rat) / 1000) := ⟨_, rfl⟩
  have hnear := abs_toDouble_milliseconds hlow hhigh
  rw [← hx] at hnear
  have hsmall : |x| < tooLarge := by
    have hlow' : (-exactBound : Rat) ≤ (nanoseconds / 1000000 : Int) := by exact_mod_cast hlow
    have hhigh' : ((nanoseconds / 1000000 : Int) : Rat) < exactBound := by exact_mod_cast hhigh
    have hlimit : (2 : Rat) ^ (34 : Int) < tooLarge := zpow_lt_zpow_right₀ one_lt_two (by decide)
    rw [exactBound] at hlow' hhigh'
    norm_num at hnear hlow' hhigh' hlimit
    rw [abs_le] at hnear
    rw [abs_lt]
    constructor <;> linarith
  rw [abs_lt] at hsmall
  rw [stampOfNanoseconds, ← hx, if_neg, stampOfSeconds_eq hnear (inYears_of_exactBound hlow hhigh)]
  rw [Bool.or_eq_true, decide_eq_true_iff, decide_eq_true_iff]
  rintro (h | h)
  · exact absurd hsmall.1 (not_lt.2 h)
  · exact absurd hsmall.2 (not_lt.2 h)

end Clock
end TemplateBindings
