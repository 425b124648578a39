import Mathlib.Algebra.Order.Chebyshev
import Mathlib.Algebra.Order.Field.Basic
import Mathlib.Tactic.FieldSimp
import Mathlib.Tactic.Linarith
import Mathlib.Tactic.Positivity
import Mathlib.Tactic.Ring

/-!
# The line through points

The line that fits finitely many points best in the sum of the squares, over any ordered field.
The points are two families over a finite set.
-/

namespace LeastSquares

open Finset

variable {ι 𝕜 : Type*} [Field 𝕜]

/-- The mean of a family. -/
def mean (s : Finset ι) (f : ι → 𝕜) : 𝕜 := (∑ i ∈ s, f i) / #s

/-- The sum of the products of the distances from the means. -/
def covariance (s : Finset ι) (x y : ι → 𝕜) : 𝕜 :=
  ∑ i ∈ s, (x i - mean s x) * (y i - mean s y)

/-- The slope of the line; it is zero if the points are all above one another. -/
def slope (s : Finset ι) (x y : ι → 𝕜) : 𝕜 := covariance s x y / covariance s x x

/-- The families may be listed in any order. -/
theorem slope_comp_equiv {κ : Type*} [Fintype ι] [Fintype κ] (e : κ ≃ ι) (x y : ι → 𝕜) :
    slope univ (x ∘ e) (y ∘ e) = slope univ x y := by
  have hmean : ∀ f : ι → 𝕜, mean univ (f ∘ e) = mean univ f := by
    intro f
    rw [mean, mean, card_univ, card_univ, Fintype.card_congr e]
    exact congrArg (· / _) (e.sum_comp f)
  have hcov : ∀ f g : ι → 𝕜, covariance univ (f ∘ e) (g ∘ e) = covariance univ f g := by
    intro f g
    rw [covariance, covariance, hmean, hmean]
    exact e.sum_comp fun i => (f i - mean univ f) * (g i - mean univ g)
  rw [slope, slope, hcov, hcov]

variable {s : Finset ι} {x y : ι → 𝕜} [LinearOrder 𝕜] [IsStrictOrderedRing 𝕜]

theorem card_mul_mean (s : Finset ι) (f : ι → 𝕜) : #s * mean s f = ∑ i ∈ s, f i := by
  rcases s.eq_empty_or_nonempty with rfl | hs
  · simp [mean]
  · have hcard : (#s : 𝕜) ≠ 0 := by
      exact_mod_cast (card_pos.mpr hs).ne'
    rw [mean]
    field_simp

/-- The distances from the mean cancel. -/
theorem sum_sub_mean (s : Finset ι) (f : ι → 𝕜) : ∑ i ∈ s, (f i - mean s f) = 0 := by
  rw [sum_sub_distrib, sum_const, nsmul_eq_mul, card_mul_mean, sub_self]

theorem covariance_eq (s : Finset ι) (x y : ι → 𝕜) :
    #s * covariance s x y = #s * ∑ i ∈ s, x i * y i - (∑ i ∈ s, x i) * ∑ i ∈ s, y i := by
  have hx := card_mul_mean s x
  have hy := card_mul_mean s y
  have hexpand : covariance s x y =
      ∑ i ∈ s, x i * y i - mean s y * ∑ i ∈ s, x i - mean s x * ∑ i ∈ s, y i +
        #s * (mean s x * mean s y) := by
    rw [covariance, mul_sum, mul_sum, ← nsmul_eq_mul, ← sum_const, ← sum_sub_distrib,
      ← sum_sub_distrib, ← sum_add_distrib]
    refine sum_congr rfl fun i _ => ?_
    ring
  rw [hexpand, ← hx, ← hy]
  ring

theorem covariance_self_nonneg (s : Finset ι) (x : ι → 𝕜) : 0 ≤ covariance s x x :=
  sum_nonneg fun _ _ => mul_self_nonneg _

/-- Points that do not rise have a covariance that is not positive. -/
theorem covariance_nonpos (h : AntivaryOn x y s) : covariance s x y ≤ 0 := by
  rcases s.eq_empty_or_nonempty with rfl | hs
  · simp [covariance]
  · have hcard : (0 : 𝕜) < #s := by
      exact_mod_cast card_pos.mpr hs
    have hchebyshev := h.card_mul_sum_le_sum_mul_sum
    have heq := covariance_eq s x y
    refine le_of_mul_le_mul_left ?_ hcard
    rw [mul_zero, heq]
    linarith

/-- **Points that do not rise** are fitted by a line that does not rise. -/
theorem slope_nonpos (h : AntivaryOn x y s) : slope s x y ≤ 0 :=
  div_nonpos_of_nonpos_of_nonneg (covariance_nonpos h) (covariance_self_nonneg s x)

/-- The sum of the squares that a line leaves. -/
def residual (s : Finset ι) (x y : ι → 𝕜) (a b : 𝕜) : 𝕜 := ∑ i ∈ s, (y i - (a + b * x i)) ^ 2

/-- The residual of a line, by how far it is from the mean and by its slope. -/
theorem residual_eq (s : Finset ι) (x y : ι → 𝕜) (a b : 𝕜) :
    residual s x y a b = covariance s y y - 2 * b * covariance s x y +
      b ^ 2 * covariance s x x + #s * (mean s y - a - b * mean s x) ^ 2 := by
  have hx := sum_sub_mean s x
  have hy := sum_sub_mean s y
  have hcross : ∑ i ∈ s, 2 * (mean s y - a - b * mean s x) *
      ((y i - mean s y) - b * (x i - mean s x)) = 0 := by
    rw [← mul_sum, sum_sub_distrib, ← mul_sum, hx, hy]
    ring
  have hsplit : ∀ i ∈ s, (y i - (a + b * x i)) ^ 2 =
      (y i - mean s y) * (y i - mean s y) - 2 * b * ((x i - mean s x) * (y i - mean s y)) +
        b ^ 2 * ((x i - mean s x) * (x i - mean s x)) +
        2 * (mean s y - a - b * mean s x) * ((y i - mean s y) - b * (x i - mean s x)) +
        (mean s y - a - b * mean s x) ^ 2 := fun i _ => by ring
  rw [residual, sum_congr rfl hsplit, sum_add_distrib, sum_add_distrib, sum_add_distrib,
    sum_sub_distrib, hcross, sum_const, nsmul_eq_mul, ← mul_sum, ← mul_sum]
  rw [covariance, covariance, covariance]
  ring

/-- Points that are all above one another have no covariance. -/
theorem covariance_eq_zero_of_self (h : covariance s x x = 0) : covariance s x y = 0 := by
  have hzero := (sum_eq_zero_iff_of_nonneg fun i _ => mul_self_nonneg (x i - mean s x)).mp h
  refine sum_eq_zero fun i hi => ?_
  rw [mul_self_eq_zero.mp (hzero i hi), zero_mul]

/-- Points that are all above one another are no exception. -/
theorem slope_mul_covariance (s : Finset ι) (x y : ι → 𝕜) :
    slope s x y * covariance s x x = covariance s x y := by
  by_cases h : covariance s x x = 0
  · rw [h, mul_zero, covariance_eq_zero_of_self h]
  · exact div_mul_cancel₀ _ h

/-- **No line fits better** than the one with this slope through the means. -/
theorem residual_slope_le (s : Finset ι) (x y : ι → 𝕜) (a b : 𝕜) :
    residual s x y (mean s y - slope s x y * mean s x) (slope s x y) ≤ residual s x y a b := by
  have hslope := slope_mul_covariance s x y
  -- the two residuals differ by squares
  have hgap : residual s x y a b -
      residual s x y (mean s y - slope s x y * mean s x) (slope s x y) =
        covariance s x x * (b - slope s x y) ^ 2 +
          #s * (mean s y - a - b * mean s x) ^ 2 := by
    rw [residual_eq, residual_eq, ← hslope]
    ring
  have hnonneg : 0 ≤ covariance s x x * (b - slope s x y) ^ 2 +
      #s * (mean s y - a - b * mean s x) ^ 2 :=
    add_nonneg (mul_nonneg (covariance_self_nonneg s x) (sq_nonneg _)) (by positivity)
  linarith

end LeastSquares
