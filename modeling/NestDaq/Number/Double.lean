import Mathlib.Data.Int.Log
import Mathlib.Data.Rat.Floor
import Mathlib.Tactic.FieldSimp
import Mathlib.Tactic.Linarith
import Mathlib.Tactic.NormNum

/-!
# Numbers of double precision

Positive rational numbers rounded to the nearest one with fifty-three binary digits,
and to the one with an even last digit where two are equally near. The exponents are
not bounded: the numbers that are rounded here are neither huge nor tiny. Rounding
does not carry a number past an integer of up to fifty-three digits.
-/

namespace NestDaq.Number

/-- The nearest integer, and the even one of two. -/
def roundEven (x : ℚ) : ℤ :=
  if Int.fract x < 1 / 2 then ⌊x⌋
  else if 1 / 2 < Int.fract x then ⌊x⌋ + 1
  else if ⌊x⌋ % 2 = 0 then ⌊x⌋
  else ⌊x⌋ + 1

/-- The unit of the last of fifty-three binary digits. -/
def ulp (x : ℚ) : ℚ :=
  2 ^ (Int.log 2 x - 52)

/-- The nearest `double` of a number that is not negative. -/
def toDouble (x : ℚ) : ℚ :=
  roundEven (x / ulp x) * ulp x

variable {x : ℚ} {n : ℤ}

theorem le_roundEven (below : (n : ℚ) ≤ x) : n ≤ roundEven x := by
  have floor : n ≤ ⌊x⌋ := Int.le_floor.mpr below
  unfold roundEven
  split_ifs <;> omega

theorem roundEven_le (above : x ≤ n) : roundEven x ≤ n := by
  rcases above.eq_or_lt with same | less
  · rw [same, roundEven, Int.fract_intCast, if_pos (by norm_num), Int.floor_intCast]
  · have floor : ⌊x⌋ < n := Int.floor_lt.mpr less
    unfold roundEven
    split_ifs <;> omega

theorem sub_half_le_roundEven (x : ℚ) : x - 1 / 2 ≤ roundEven x := by
  have parts := Int.floor_add_fract x
  have small := Int.fract_lt_one x
  unfold roundEven
  split_ifs <;> push_cast <;> linarith

theorem ulp_pos (x : ℚ) : 0 < ulp x :=
  zpow_pos two_pos _

/-- The leading digit is not lost. -/
theorem pow_log_le_toDouble (positive : 0 < x) : (2 : ℚ) ^ Int.log 2 x ≤ toDouble x := by
  have digits : (2 : ℚ) ^ Int.log 2 x = 2 ^ 52 * ulp x := by
    rw [ulp, zpow_sub₀ two_ne_zero]
    norm_num
    ring
  have leading : (2 : ℚ) ^ Int.log 2 x ≤ x := by
    exact_mod_cast Int.zpow_log_le_self (by decide) positive
  have scaled : (((2 : ℤ) ^ 52 : ℤ) : ℚ) ≤ x / ulp x := by
    rw [le_div_iff₀ (ulp_pos x)]
    push_cast
    exact digits ▸ leading
  have rounded : (2 : ℚ) ^ 52 ≤ roundEven (x / ulp x) := by
    exact_mod_cast le_roundEven scaled
  rw [digits, toDouble]
  exact mul_le_mul_of_nonneg_right rounded (ulp_pos x).le

/-- An integer is a multiple of the last digit of a number that is not too large. -/
theorem exists_div_ulp_eq (small : Int.log 2 x ≤ 52) (n : ℕ) :
    ∃ multiple : ℤ, (n : ℚ) = multiple * ulp x := by
  obtain ⟨places, split⟩ := Int.exists_add_of_le small
  refine ⟨n * 2 ^ places, ?_⟩
  have exponent : Int.log 2 x - 52 = -(places : ℤ) := by omega
  rw [ulp, exponent, zpow_neg, zpow_natCast]
  push_cast
  field_simp

theorem log_lt_of_lt {exponent : ℕ} (positive : 0 < x) (less : x < 2 ^ exponent) :
    Int.log 2 x < exponent := by
  rw [← Int.lt_zpow_iff_log_lt (by decide) positive]
  exact_mod_cast less

theorem pow_le_of_le_log {exponent : ℕ} (positive : 0 < x) (large : (exponent : ℤ) ≤ Int.log 2 x) :
    (2 : ℚ) ^ exponent ≤ toDouble x := by
  refine le_trans ?_ (pow_log_le_toDouble positive)
  rw [← zpow_natCast]
  exact zpow_le_zpow_right₀ one_le_two large

theorem toDouble_zero : toDouble 0 = 0 := by
  norm_num [toDouble, roundEven]

/-- Rounding does not lead above an integer. -/
theorem toDouble_le {n : ℕ} (nonneg : 0 ≤ x) (above : x ≤ n) (digits : n < 2 ^ 53) :
    toDouble x ≤ n := by
  rcases nonneg.eq_or_lt with rfl | positive
  · rw [toDouble_zero]
    exact above
  have small : Int.log 2 x ≤ 52 := by
    have less : x < 2 ^ 53 := lt_of_le_of_lt above (by exact_mod_cast digits)
    have := log_lt_of_lt positive less
    omega
  obtain ⟨multiple, equal⟩ := exists_div_ulp_eq small n
  have scaled : x / ulp x ≤ multiple := by
    rw [div_le_iff₀ (ulp_pos x), ← equal]
    exact above
  rw [equal, toDouble]
  exact mul_le_mul_of_nonneg_right (by exact_mod_cast roundEven_le scaled) (ulp_pos x).le

/-- Rounding does not lead below an integer. -/
theorem le_toDouble {n : ℕ} (positive : 0 < x) (below : (n : ℚ) ≤ x) (digits : n < 2 ^ 53) :
    n ≤ toDouble x := by
  rcases le_or_gt (Int.log 2 x) 52 with small | large
  · obtain ⟨multiple, equal⟩ := exists_div_ulp_eq small n
    have scaled : (multiple : ℚ) ≤ x / ulp x := by
      rw [le_div_iff₀ (ulp_pos x), ← equal]
      exact below
    rw [equal, toDouble]
    exact mul_le_mul_of_nonneg_right (by exact_mod_cast le_roundEven scaled) (ulp_pos x).le
  · refine le_trans ?_ (@pow_le_of_le_log x 53 positive (by omega))
    exact_mod_cast digits.le

/-- Integers of up to fifty-three digits are exact. -/
theorem toDouble_natCast {n : ℕ} (digits : n < 2 ^ 53) : toDouble n = n := by
  rcases Nat.eq_zero_or_pos n with rfl | positive
  · exact_mod_cast toDouble_zero
  · have isPositive : (0 : ℚ) < n := by exact_mod_cast positive
    exact le_antisymm (toDouble_le isPositive.le le_rfl digits)
      (le_toDouble isPositive le_rfl digits)

/-- Rounding errs by half a unit. -/
theorem sub_half_ulp_le_toDouble (x : ℚ) : x - ulp x / 2 ≤ toDouble x := by
  have rounded := mul_le_mul_of_nonneg_right (sub_half_le_roundEven (x / ulp x)) (ulp_pos x).le
  have scaled : (x / ulp x - 1 / 2) * ulp x = x - ulp x / 2 := by
    have := (ulp_pos x).ne'
    field_simp
  rw [toDouble]
  linarith

/-- A number that lies behind an integer by more than half a unit stays behind it. -/
theorem lt_toDouble {n exponent : ℕ} (bound : n < 2 ^ exponent)
    (apart : (n : ℚ) + 2 ^ ((exponent : ℤ) - 54) < x) : n < toDouble x := by
  have gap : (0 : ℚ) < 2 ^ ((exponent : ℤ) - 54) := zpow_pos two_pos _
  have positive : 0 < x := by
    have : (0 : ℚ) ≤ n := n.cast_nonneg
    linarith
  rcases lt_or_ge (Int.log 2 x) exponent with small | large
  · have unit : ulp x / 2 ≤ 2 ^ ((exponent : ℤ) - 54) := by
      have halved : (2 : ℚ) ^ ((exponent : ℤ) - 54) = 2 ^ ((exponent : ℤ) - 53) / 2 := by
        rw [div_eq_mul_inv, ← zpow_sub_one₀ two_ne_zero, sub_sub]
        norm_num
      have exponents : ulp x ≤ 2 ^ ((exponent : ℤ) - 53) :=
        zpow_le_zpow_right₀ one_le_two (by omega)
      rw [halved]
      linarith
    have error := sub_half_ulp_le_toDouble x
    linarith
  · have leading := pow_le_of_le_log positive large
    have less : (n : ℚ) < 2 ^ exponent := by exact_mod_cast bound
    linarith

end NestDaq.Number
