import Mathlib.Algebra.Order.Archimedean.Basic
import Mathlib.Data.Int.Log
import Mathlib.Data.Rat.Floor
import Mathlib.Tactic.Linarith
import Mathlib.Tactic.NormNum

/-!
# Rounding to a binary floating-point format

The rational number nearest to a given one among those with a given number of binary
digits; of two that are equally near, the one with an even last digit. The range of the
exponent is not limited, and the numbers are not negative: this is what one operation of a
floating-point unit returns while it neither overflows nor gets subnormal.
-/

namespace FloatRounding

/-! ## To an integer -/

/-- The nearest integer, an even one if there are two. -/
def roundEven (x : ℚ) : Int :=
  if x - ⌊x⌋ < 1 / 2 then ⌊x⌋
  else if 1 / 2 < x - ⌊x⌋ then ⌊x⌋ + 1
  else if ⌊x⌋ % 2 = 0 then ⌊x⌋ else ⌊x⌋ + 1

theorem floor_le_roundEven (x : ℚ) : ⌊x⌋ ≤ roundEven x := by
  unfold roundEven
  split_ifs <;> omega

theorem roundEven_le_floor_succ (x : ℚ) : roundEven x ≤ ⌊x⌋ + 1 := by
  unfold roundEven
  split_ifs <;> omega

@[simp] theorem roundEven_intCast (n : Int) : roundEven n = n := by
  simp [roundEven]

theorem roundEven_mono {x y : ℚ} (h : x ≤ y) : roundEven x ≤ roundEven y := by
  rcases (Int.floor_mono h).lt_or_eq with hlt | heq
  · exact (roundEven_le_floor_succ x).trans ((by omega : ⌊x⌋ + 1 ≤ ⌊y⌋).trans
      (floor_le_roundEven y))
  · have hfrac : x - ⌊x⌋ ≤ y - ⌊y⌋ := by
      rw [heq]
      exact sub_le_sub_right h _
    unfold roundEven
    rw [← heq] at hfrac ⊢
    split_ifs <;> first | omega | exact absurd ‹_› (by linarith)

theorem roundEven_nonneg {x : ℚ} (h : 0 ≤ x) : 0 ≤ roundEven x := by
  have hmono := roundEven_mono h
  rwa [← Int.cast_zero, roundEven_intCast] at hmono

/-! ## To a number of digits -/

/-- What the last of `digits` binary digits of a number counts. -/
def ulp (digits : Nat) (x : ℚ) : ℚ := 2 ^ (Int.log 2 x - (digits - 1))

/-- **Rounding**: the nearest number with so many binary digits. -/
def roundTo (digits : Nat) (x : ℚ) : ℚ := roundEven (x / ulp digits x) * ulp digits x

variable {digits : Nat} {x y : ℚ}

theorem ulp_pos (digits : Nat) (x : ℚ) : 0 < ulp digits x := zpow_pos (by norm_num) _

theorem roundTo_nonneg (h : 0 ≤ x) : 0 ≤ roundTo digits x := by
  have hulp := ulp_pos digits x
  have hdigits : (0 : ℚ) ≤ roundEven (x / ulp digits x) :=
    Int.cast_nonneg (roundEven_nonneg (div_nonneg h hulp.le))
  exact mul_nonneg hdigits hulp.le

@[simp] theorem roundTo_zero (digits : Nat) : roundTo digits 0 = 0 := by
  have hzero : roundEven 0 = 0 := roundEven_intCast 0
  rw [roundTo, zero_div, hzero, Int.cast_zero, zero_mul]

/-- A whole number of last digits is not changed. -/
theorem roundTo_of_dvd {n : Int} (h : x = n * ulp digits x) : roundTo digits x = x := by
  have hulp := (ulp_pos digits x).ne'
  have hdiv : x / ulp digits x = n := by
    rw [div_eq_iff hulp]
    exact h
  rw [roundTo, hdiv, roundEven_intCast]
  exact h.symm

/-- A power of two that is not above the number is a whole number of last digits. -/
theorem zpow_eq_mul_ulp {e : Int} (hle : Int.log 2 x - (digits - 1) ≤ e) :
    ∃ n : Int, (2 : ℚ) ^ e = n * ulp digits x := by
  refine ⟨2 ^ (e - (Int.log 2 x - (digits - 1))).toNat, ?_⟩
  have hexp : ((e - (Int.log 2 x - (digits - 1))).toNat : Int) =
      e - (Int.log 2 x - (digits - 1)) := Int.toNat_of_nonneg (by omega)
  push_cast
  rw [← zpow_natCast, hexp, ulp, ← zpow_add₀ (by norm_num)]
  congr 1
  omega

/-- A power of two below a number stays below it. -/
theorem zpow_le_roundTo (hdigits : 0 < digits) (hpos : 0 < x) :
    (2 : ℚ) ^ Int.log 2 x ≤ roundTo digits x := by
  have hulp := ulp_pos digits x
  obtain ⟨n, hn⟩ := @zpow_eq_mul_ulp digits x (Int.log 2 x) (by omega)
  have hle : (2 : ℚ) ^ Int.log 2 x ≤ x := Int.zpow_log_le_self (by norm_num) hpos
  rw [hn, ← le_div_iff₀ hulp] at hle
  have hround := roundEven_mono hle
  rw [roundEven_intCast] at hround
  rw [hn, roundTo]
  exact mul_le_mul_of_nonneg_right (Int.cast_le.mpr hround) hulp.le

/-- A power of two above a number stays above it. -/
theorem roundTo_le_zpow (hdigits : 0 < digits) (x : ℚ) :
    roundTo digits x ≤ (2 : ℚ) ^ (Int.log 2 x + 1) := by
  have hulp := ulp_pos digits x
  obtain ⟨n, hn⟩ := @zpow_eq_mul_ulp digits x (Int.log 2 x + 1) (by omega)
  have hle : x ≤ (2 : ℚ) ^ (Int.log 2 x + 1) := (Int.lt_zpow_succ_log_self (by norm_num) x).le
  rw [hn, ← div_le_iff₀ hulp] at hle
  have hround := roundEven_mono hle
  rw [roundEven_intCast] at hround
  rw [hn, roundTo]
  exact mul_le_mul_of_nonneg_right (Int.cast_le.mpr hround) hulp.le

/-- **Rounding is monotone**, also over a power of two. -/
theorem roundTo_mono (hdigits : 0 < digits) (hx : 0 ≤ x) (h : x ≤ y) :
    roundTo digits x ≤ roundTo digits y := by
  rcases hx.eq_or_lt with rfl | hpos
  · rw [roundTo_zero]
    exact roundTo_nonneg h
  · rcases (Int.log_mono_right (b := 2) hpos h).lt_or_eq with hlt | heq
    · calc roundTo digits x ≤ (2 : ℚ) ^ (Int.log 2 x + 1) := roundTo_le_zpow hdigits x
        _ ≤ (2 : ℚ) ^ Int.log 2 y := zpow_le_zpow_right₀ (by norm_num) (by omega)
        _ ≤ roundTo digits y := zpow_le_roundTo hdigits (hpos.trans_le h)
    · have hulp : ulp digits x = ulp digits y := by rw [ulp, ulp, heq]
      have hpos := ulp_pos digits y
      rw [roundTo, roundTo, hulp]
      refine mul_le_mul_of_nonneg_right (Int.cast_le.mpr (roundEven_mono ?_)) hpos.le
      exact div_le_div_of_nonneg_right h hpos.le

/-- **A number that fits in the digits** is not changed, whatever its exponent. -/
theorem roundTo_mul_zpow {n : Nat} {e : Int} (h : n < 2 ^ digits) :
    roundTo digits (n * 2 ^ e) = n * 2 ^ e := by
  rcases Nat.eq_zero_or_pos n with rfl | hpos
  · rw [Nat.cast_zero, zero_mul]
    exact roundTo_zero digits
  · have hx : (0 : ℚ) < n * 2 ^ e := mul_pos (Nat.cast_pos.mpr hpos) (zpow_pos (by norm_num) _)
    have hlog : Int.log 2 (n * 2 ^ e : ℚ) - (digits - 1) ≤ e := by
      have hlt : (n * 2 ^ e : ℚ) < (2 : Nat) ^ (digits + e : Int) := by
        rw [Nat.cast_ofNat, zpow_add₀ (by norm_num), zpow_natCast]
        exact mul_lt_mul_of_pos_right (by exact_mod_cast h) (zpow_pos (by norm_num) _)
      have hless := (Int.lt_zpow_iff_log_lt (by norm_num) hx).mp hlt
      omega
    obtain ⟨k, hk⟩ := @zpow_eq_mul_ulp digits (n * 2 ^ e : ℚ) e hlog
    refine roundTo_of_dvd (n := n * k) ?_
    push_cast
    rw [mul_assoc, ← hk]

theorem roundTo_natCast {n : Nat} (h : n < 2 ^ digits) : roundTo digits n = n := by
  have hzero := @roundTo_mul_zpow digits n 0 h
  rwa [zpow_zero, mul_one] at hzero

/-- Rounding stays below a natural number that fits in the digits. -/
theorem roundTo_le_natCast {n : Nat} (hdigits : 0 < digits) (hx : 0 ≤ x) (hle : x ≤ n)
    (h : n < 2 ^ digits) : roundTo digits x ≤ n := by
  rw [← roundTo_natCast h]
  exact roundTo_mono hdigits hx hle

/-- Rounding at most doubles a number. -/
theorem roundTo_le_two_mul (hdigits : 0 < digits) (hx : 0 ≤ x) : roundTo digits x ≤ 2 * x := by
  rcases hx.eq_or_lt with rfl | hpos
  · rw [roundTo_zero, mul_zero]
  · have hlog : (2 : ℚ) ^ Int.log 2 x ≤ x := Int.zpow_log_le_self (by norm_num) hpos
    calc roundTo digits x ≤ (2 : ℚ) ^ (Int.log 2 x + 1) := roundTo_le_zpow hdigits x
      _ = 2 * 2 ^ Int.log 2 x := by rw [zpow_add_one₀ (by norm_num), mul_comm]
      _ ≤ 2 * x := mul_le_mul_of_nonneg_left hlog (by norm_num)

/-! ## Signed numbers -/

/-- A negative number is rounded as its absolute value is. -/
def roundSigned (digits : Nat) (x : ℚ) : ℚ :=
  if x < 0 then -roundTo digits (-x) else roundTo digits x

/-- The conversion to an integer: the fraction is cut off. -/
def trunc (x : ℚ) : Int := if x < 0 then -⌊-x⌋ else ⌊x⌋

theorem trunc_nonpos (h : x ≤ 0) : trunc x ≤ 0 := by
  rcases h.eq_or_lt with rfl | hneg
  · simp [trunc]
  · rw [trunc, if_pos hneg, Int.neg_nonpos_iff]
    exact Int.floor_nonneg.mpr (neg_nonneg.mpr h)

/-- An integer that is converted to a floating-point number and back gets at most its
double, and stays at or below zero if it was. -/
theorem trunc_roundSigned_le (hdigits : 0 < digits) (n : Int) :
    trunc (roundSigned digits n) ≤ max 0 (2 * n) := by
  rcases Int.lt_or_le n 0 with hneg | hnonneg
  · have hx : (n : ℚ) < 0 := Int.cast_lt_zero.mpr hneg
    have hround : roundSigned digits n ≤ 0 := by
      rw [roundSigned, if_pos hx]
      exact neg_nonpos.mpr (roundTo_nonneg (neg_nonneg.mpr hx.le))
    exact (trunc_nonpos hround).trans (le_max_left _ _)
  · have hx : (0 : ℚ) ≤ n := Int.cast_nonneg hnonneg
    have htwo := roundTo_le_two_mul hdigits hx
    rw [roundSigned, if_neg hx.not_gt, trunc, if_neg (roundTo_nonneg hx).not_gt]
    have hle : ((⌊roundTo digits (n : ℚ)⌋ : Int) : ℚ) ≤ ((2 * n : Int) : ℚ) := by
      push_cast
      exact (Int.floor_le _).trans htwo
    exact le_max_of_le_right (Int.cast_le.mp hle)

end FloatRounding
