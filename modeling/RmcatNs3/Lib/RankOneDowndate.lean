import Mathlib.LinearAlgebra.BilinearForm.Hom
import Mathlib.LinearAlgebra.BilinearForm.Properties
import Mathlib.LinearAlgebra.SesquilinearForm.Basic
import Mathlib.Tactic.Linarith

/-!
# Measuring along a vector

What is left of a covariance form `B` once its value along `h` has been measured
with a noise of variance `r`: a multiple of `B h ⊗ B h` is taken away. The form
stays symmetric and non-negative, by Cauchy and Schwarz.
-/

namespace RankOneDowndate

open LinearMap.BilinForm

variable {𝕜 M : Type*} [Field 𝕜] [AddCommGroup M] [Module 𝕜 M]

/-- The variance of what is measured. -/
def innovation (B : LinearMap.BilinForm 𝕜 M) (h : M) (r : 𝕜) : 𝕜 := r + B h h

/-- The form after the measurement. -/
noncomputable def downdate (B : LinearMap.BilinForm 𝕜 M) (h : M) (r : 𝕜) :
    LinearMap.BilinForm 𝕜 M :=
  B - (innovation B h r)⁻¹ • linMulLin (B h) (B h)

variable {B : LinearMap.BilinForm 𝕜 M} {r : 𝕜} (h : M)

theorem downdate_apply (x y : M) :
    downdate B h r x y = B x y - (innovation B h r)⁻¹ * (B h x * B h y) := rfl

variable [LinearOrder 𝕜] [IsStrictOrderedRing 𝕜]

theorem innovation_pos (hB : B.IsPosSemidef) (hr : 0 < r) : 0 < innovation B h r :=
  add_pos_of_pos_of_nonneg hr (hB.nonneg h)

/-- **A measurement keeps a form semi-definite.** -/
theorem isPosSemidef_downdate (hB : B.IsPosSemidef) (hr : 0 < r) :
    (downdate B h r).IsPosSemidef := by
  refine ⟨⟨?_⟩, ⟨?_⟩⟩
  · intro x y
    rw [downdate_apply, downdate_apply, hB.eq x y, mul_comm (B h x)]
  · intro x
    have hpos := innovation_pos h hB hr
    have hsymm : LinearMap.IsSymm B := LinearMap.BilinForm.isSymm_iff.mp hB.isSymm
    have hcs : B h x ^ 2 ≤ B h h * B x x := apply_sq_le_of_symm B hB.nonneg hsymm h x
    have hle : B h h * B x x ≤ innovation B h r * B x x :=
      mul_le_mul_of_nonneg_right (le_add_of_nonneg_left hr.le) (hB.nonneg x)
    have hdiv : (innovation B h r)⁻¹ * B h x ^ 2 ≤ B x x := by
      rw [inv_mul_le_iff₀ hpos]
      exact hcs.trans hle
    rw [downdate_apply, ← sq]
    linarith

end RankOneDowndate
