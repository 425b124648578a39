import Mathlib.LinearAlgebra.Matrix.BilinearForm
import Mathlib.Tactic.FinCases
import Mathlib.Tactic.NormNum
import RmcatNs3.Lib.MachineInt
import RmcatNs3.Lib.RankOneDowndate
import RmcatNs3.Lib.Runs
import RmcatNs3.Razor.EstimatorCommon

/-!
# The Kalman filter of the over-use detector

`razor/estimator/kalman_filter.{c,h}`, with the elements of an ordered field for
`double` and exact arithmetic on them. What `sqrt` and `pow` return is an input of
each call, of which nothing is assumed. `now_ms`, which is not read, is left out.
-/

namespace Razor

open MachineInt Runs

def historyFrameSize : Nat := 60
def deltaCounterMax : Nat := 1000

/-- `kalman_filter_t`. -/
structure KalmanFilter (𝕜 : Type*) where
  numOfDeltas : Nat
  slope : 𝕜
  offset : 𝕜
  prevOffset : 𝕜
  E : Matrix (Fin 2) (Fin 2) 𝕜
  processNoise : Fin 2 → 𝕜
  avgNoise : 𝕜
  varNoise : 𝕜
  index : Nat
  history : Vector 𝕜 historyFrameSize

/-- The arguments of `kalman_filter_update`, and what `math.h` computes in it. -/
structure KalmanInput (𝕜 : Type*) where
  arrivalTsDelta : Int
  tsDelta : 𝕜
  sizeDelta : Int
  state : BwState
  sqrt : 𝕜 → 𝕜
  pow : 𝕜 → 𝕜 → 𝕜

namespace KalmanFilter

variable {𝕜 : Type*} [Field 𝕜]

/-- `kalman_filter_create`. -/
def create : KalmanFilter 𝕜 where
  numOfDeltas := 0
  slope := 8.0 / 512.0
  offset := 0
  prevOffset := 0
  E := !![100.0, 0; 0, 1e-1]
  processNoise := ![1e-13, 1e-3]
  avgNoise := 0
  varNoise := 50.0
  index := 0
  history := .replicate _ 0

/-! ## Two-by-two matrices -/

theorem toBilin'_eq (E : Matrix (Fin 2) (Fin 2) 𝕜) (v w : Fin 2 → 𝕜) :
    Matrix.toBilin' E v w
      = v 0 * (E 0 0 * w 0 + E 0 1 * w 1) + v 1 * (E 1 0 * w 0 + E 1 1 * w 1) := by
  rw [Matrix.toBilin'_apply']
  simp only [dotProduct, Matrix.mulVec, Fin.sum_univ_two]

/-- A covariance after a measurement along `(fsDelta, 1)`, entry by entry. -/
def measured (E : Matrix (Fin 2) (Fin 2) 𝕜) (fsDelta denom : 𝕜) :
    Matrix (Fin 2) (Fin 2) 𝕜 :=
  let K0 := (E 0 0 * fsDelta + E 0 1 * 1) / denom
  let K1 := (E 1 0 * fsDelta + E 1 1 * 1) / denom
  !![E 0 0 * (1 - K0 * fsDelta) + E 1 0 * (-K0 * 1),
      E 0 1 * (1 - K0 * fsDelta) + E 1 1 * (-K0 * 1);
    E 0 0 * (-K1 * fsDelta) + E 1 0 * (1 - K1 * 1),
      E 0 1 * (-K1 * fsDelta) + E 1 1 * (1 - K1 * 1)]

/-- The denominator of the gain. -/
def gainDenom (E : Matrix (Fin 2) (Fin 2) 𝕜) (fsDelta varNoise : 𝕜) : 𝕜 :=
  varNoise + fsDelta * (E 0 0 * fsDelta + E 0 1 * 1) + 1 * (E 1 0 * fsDelta + E 1 1 * 1)

theorem gainDenom_eq (E : Matrix (Fin 2) (Fin 2) 𝕜) (fsDelta varNoise : 𝕜) :
    gainDenom E fsDelta varNoise
      = RankOneDowndate.innovation (Matrix.toBilin' E) ![fsDelta, 1] varNoise := by
  rw [RankOneDowndate.innovation, toBilin'_eq, gainDenom]
  simp only [Matrix.cons_val_zero, Matrix.cons_val_one, Matrix.cons_val_fin_one]
  ring

/-! ## The update -/

variable [LinearOrder 𝕜]

/-- `kalman_filter_update_min_period`; the result is the one it returns. -/
def updateMinPeriod (kalman : KalmanFilter 𝕜) (tsDelta : 𝕜) : 𝕜 × KalmanFilter 𝕜 :=
  let history := kalman.history.set (kalman.index % historyFrameSize) tsDelta
    (Nat.mod_lt _ (by decide))
  let index := toUnsigned 32 (kalman.index + 1)
  let size := min index historyFrameSize
  let minPeriod := (history.toList.take size).foldl (fun m x => if x < m then x else m) tsDelta
  (minPeriod, { kalman with history, index })

/-- `kalman_filter_update_noise`. -/
def updateNoise (pow : 𝕜 → 𝕜 → 𝕜) (kalman : KalmanFilter 𝕜) (residual tsDelta : 𝕜)
    (stableState : Int) : KalmanFilter 𝕜 :=
  if stableState ≠ 0 then kalman
  else
    let alpha : 𝕜 := if kalman.numOfDeltas > 10 * 30 then 0.002 else 0.01
    let beta := pow (1 - alpha) (tsDelta * 30.0 / 1000.0)
    let avgNoise := beta * kalman.avgNoise + (1 - beta) * residual
    let varNoise := beta * kalman.varNoise
      + (1 - beta) * (avgNoise - residual) * (avgNoise - residual)
    { kalman with avgNoise, varNoise := if varNoise < 1 then 1 else varNoise }

/-- The covariance after the process noise has been added. -/
def predicted (kalman : KalmanFilter 𝕜) (state : BwState) : Matrix (Fin 2) (Fin 2) 𝕜 :=
  let e00 := kalman.E 0 0 + kalman.processNoise 0
  let e11 := kalman.E 1 1 + kalman.processNoise 1
  let e11 :=
    if state = .kBwOverusing ∧ kalman.offset < kalman.prevOffset ∨
        state = .kBwUnderusing ∧ kalman.offset > kalman.prevOffset then
      e11 + 10.0 * kalman.processNoise 1
    else e11
  !![e00, kalman.E 0 1; kalman.E 1 0, e11]

/-- `positive_semi_definite`, of a covariance; `0` if it passes the test. -/
def positiveSemiDefinite (E : Matrix (Fin 2) (Fin 2) 𝕜) : Int :=
  if E 0 0 + E 1 1 ≥ 0 ∧ E 0 0 * E 1 1 - E 0 1 * E 1 0 ≥ 0 ∧ E 0 0 ≥ 0 then 0 else -1

/-- What `kalman_filter_update` leaves behind, and two of its variables. -/
structure Update (𝕜 : Type*) where
  filter : KalmanFilter 𝕜
  denom : 𝕜
  positiveSemiDefinite : Int

/-- `kalman_filter_update`. -/
def update (kalman : KalmanFilter 𝕜) (input : KalmanInput 𝕜) : Update 𝕜 :=
  let (minFramePeriod, kalman) := kalman.updateMinPeriod input.tsDelta
  let tTsDelta := (input.arrivalTsDelta : 𝕜) - input.tsDelta
  let fsDelta : 𝕜 := input.sizeDelta
  let numOfDeltas := toUnsigned 16 (kalman.numOfDeltas + 1)
  let numOfDeltas := if numOfDeltas > deltaCounterMax then deltaCounterMax else numOfDeltas
  let E := kalman.predicted input.state
  let kalman := { kalman with numOfDeltas, E }
  let h : Fin 2 → 𝕜 := ![fsDelta, 1]
  let Eh : Fin 2 → 𝕜 := ![E 0 0 * h 0 + E 0 1 * h 1, E 1 0 * h 0 + E 1 1 * h 1]
  let residual := tTsDelta - kalman.slope * h 0 - kalman.offset
  let inStableState : Int := if input.state = .kBwNormal then 0 else -1
  let maxResidual := 3.0 * input.sqrt kalman.varNoise
  let kalman :=
    if |residual| < maxResidual then
      kalman.updateNoise input.pow residual minFramePeriod inStableState
    else
      kalman.updateNoise input.pow (if residual < 0 then -maxResidual else maxResidual)
        minFramePeriod inStableState
  let denom := kalman.varNoise + h 0 * Eh 0 + h 1 * Eh 1
  let K : Fin 2 → 𝕜 := ![Eh 0 / denom, Eh 1 / denom]
  let IKh : Matrix (Fin 2) (Fin 2) 𝕜 :=
    !![1 - K 0 * h 0, -K 0 * h 1; -K 1 * h 0, 1 - K 1 * h 1]
  let e00 := E 0 0
  let e01 := E 0 1
  -- each line reads the entries that are not yet overwritten
  let E' : Matrix (Fin 2) (Fin 2) 𝕜 :=
    !![e00 * IKh 0 0 + E 1 0 * IKh 0 1, e01 * IKh 0 0 + E 1 1 * IKh 0 1;
      e00 * IKh 1 0 + E 1 0 * IKh 1 1, e01 * IKh 1 0 + E 1 1 * IKh 1 1]
  { filter := { kalman with
      E := E'
      slope := kalman.slope + K 0 * residual
      prevOffset := kalman.offset
      offset := kalman.offset + K 1 * residual }
    denom
    positiveSemiDefinite := positiveSemiDefinite E' }

/-! ## What an update does -/

variable {kalman : KalmanFilter 𝕜}

/-- The variance of the noise does not go below `1`. -/
theorem varNoise_updateNoise (pow : 𝕜 → 𝕜 → 𝕜) (residual tsDelta : 𝕜) (stableState : Int)
    (h : 1 ≤ kalman.varNoise) :
    1 ≤ (kalman.updateNoise pow residual tsDelta stableState).varNoise := by
  unfold updateNoise
  split
  · exact h
  · -- the last assignment is the guard
    exact iteInduction (motive := (1 ≤ ·)) (fun _ => le_refl 1) not_lt.mp

theorem processNoise_updateNoise (pow : 𝕜 → 𝕜 → 𝕜) (residual tsDelta : 𝕜)
    (stableState : Int) :
    (kalman.updateNoise pow residual tsDelta stableState).processNoise
      = kalman.processNoise := by
  unfold updateNoise
  split <;> rfl

/-- **An update in terms of its covariance.** -/
theorem update_spec (kalman : KalmanFilter 𝕜) (input : KalmanInput 𝕜)
    (h : 1 ≤ kalman.varNoise) :
    let u := kalman.update input
    1 ≤ u.filter.varNoise ∧ u.filter.processNoise = kalman.processNoise ∧
      u.denom = gainDenom (kalman.predicted input.state) input.sizeDelta u.filter.varNoise ∧
      u.filter.E = measured (kalman.predicted input.state) input.sizeDelta u.denom ∧
      u.positiveSemiDefinite = positiveSemiDefinite u.filter.E := by
  refine ⟨?_, ?_, rfl, rfl, rfl⟩
  · apply iteInduction (motive := fun k => 1 ≤ KalmanFilter.varNoise k) <;>
      exact fun _ => varNoise_updateNoise _ _ _ _ h
  · exact iteInduction (motive := fun k => KalmanFilter.processNoise k = kalman.processNoise)
      (fun _ => processNoise_updateNoise _ _ _ _) fun _ => processNoise_updateNoise _ _ _ _

/-! ## Covariances -/

/-- The value of a covariance along a vector. -/
def variance (E : Matrix (Fin 2) (Fin 2) 𝕜) (v : Fin 2 → 𝕜) : 𝕜 :=
  v 0 * (E 0 0 * v 0 + E 0 1 * v 1) + v 1 * (E 1 0 * v 0 + E 1 1 * v 1)

/-- A covariance is symmetric, and no variance is negative. -/
structure IsCovariance (E : Matrix (Fin 2) (Fin 2) 𝕜) : Prop where
  symm : E 0 1 = E 1 0
  nonneg : ∀ v, 0 ≤ variance E v

theorem isCovariance_iff {E : Matrix (Fin 2) (Fin 2) 𝕜} :
    IsCovariance E ↔ (Matrix.toBilin' E).IsPosSemidef := by
  constructor
  · intro h
    refine ⟨⟨fun v w => ?_⟩, ⟨fun v => ?_⟩⟩
    · rw [toBilin'_eq, toBilin'_eq, h.symm]
      ring
    · rw [toBilin'_eq]
      exact h.nonneg v
  · intro h
    refine ⟨?_, fun v => ?_⟩
    · have hsymm := h.eq ![1, 0] ![0, 1]
      rw [toBilin'_eq, toBilin'_eq] at hsymm
      simpa using hsymm
    · have hv := h.nonneg v
      rwa [toBilin'_eq] at hv

variable [IsStrictOrderedRing 𝕜]

/-- **The test for semi-definiteness passes** for a covariance. -/
theorem positiveSemiDefinite_of_isCovariance {E : Matrix (Fin 2) (Fin 2) 𝕜}
    (h : IsCovariance E) : positiveSemiDefinite E = 0 := by
  have h00 : 0 ≤ E 0 0 := by simpa [variance] using h.nonneg ![1, 0]
  have h11 : 0 ≤ E 1 1 := by simpa [variance] using h.nonneg ![0, 1]
  have hcs := LinearMap.BilinForm.apply_mul_apply_le_of_forall_zero_le (Matrix.toBilin' E)
    (isCovariance_iff.mp h).nonneg ![1, 0] ![0, 1]
  have hdet : E 0 1 * E 1 0 ≤ E 0 0 * E 1 1 := by simpa [toBilin'_eq] using hcs
  rw [positiveSemiDefinite, if_pos ⟨add_nonneg h00 h11, sub_nonneg.mpr hdet, h00⟩]

/-! ## Runs -/

/-- What holds of the filter between two updates. -/
structure WellDefined (kalman : KalmanFilter 𝕜) : Prop where
  varNoise : 1 ≤ kalman.varNoise
  processNoise : ∀ i, 0 ≤ kalman.processNoise i
  covariance : IsCovariance kalman.E

theorem create_wellDefined : WellDefined (create : KalmanFilter 𝕜) where
  varNoise := by norm_num [create]
  processNoise := by
    intro i
    fin_cases i <;> norm_num [create]
  covariance := by
    refine ⟨rfl, fun v => ?_⟩
    have hvariance : ∀ a b : 𝕜, 0 ≤ a → 0 ≤ b → 0 ≤ variance !![a, 0; 0, b] v := by
      intro a b ha hb
      have heq : variance !![a, 0; 0, b] v = a * (v 0 * v 0) + b * (v 1 * v 1) := by
        simp only [variance, Matrix.of_apply, Matrix.cons_val', Matrix.cons_val_zero,
          Matrix.cons_val_one, Matrix.cons_val_fin_one]
        ring
      rw [heq]
      exact add_nonneg (mul_nonneg ha (mul_self_nonneg _)) (mul_nonneg hb (mul_self_nonneg _))
    have hfirst : (0 : 𝕜) ≤ 100.0 := by norm_num
    have hsecond : (0 : 𝕜) ≤ 1e-1 := by norm_num
    exact hvariance _ _ hfirst hsecond

/-- Process noise is added on the diagonal. -/
theorem WellDefined.predicted (h : WellDefined kalman) (state : BwState) :
    IsCovariance (kalman.predicted state) := by
  refine ⟨h.covariance.symm, fun v => ?_⟩
  have h0 := mul_nonneg (h.processNoise 0) (mul_self_nonneg (v 0))
  have h1 := mul_nonneg (h.processNoise 1) (mul_self_nonneg (v 1))
  have hv := h.covariance.nonneg v
  unfold variance at hv
  simp only [variance, KalmanFilter.predicted, Matrix.of_apply, Matrix.cons_val',
    Matrix.cons_val_zero, Matrix.cons_val_one, Matrix.cons_val_fin_one]
  split_ifs <;> linarith

/-- The four assignments are the measurement of the form. -/
theorem toBilin'_measured {E : Matrix (Fin 2) (Fin 2) 𝕜} (hE : IsCovariance E)
    (fsDelta varNoise : 𝕜) :
    Matrix.toBilin' (measured E fsDelta (gainDenom E fsDelta varNoise))
      = RankOneDowndate.downdate (Matrix.toBilin' E) ![fsDelta, 1] varNoise := by
  refine LinearMap.BilinForm.ext fun v w => ?_
  rw [RankOneDowndate.downdate_apply, ← gainDenom_eq, toBilin'_eq, toBilin'_eq, toBilin'_eq,
    toBilin'_eq]
  simp only [measured, div_eq_mul_inv, Matrix.of_apply, Matrix.cons_val', Matrix.cons_val_zero,
    Matrix.cons_val_one, Matrix.cons_val_fin_one, ← hE.symm]
  ring

/-- **A step keeps the filter well defined.** -/
theorem WellDefined.update (h : WellDefined kalman) (input : KalmanInput 𝕜) :
    WellDefined (kalman.update input).filter ∧ 0 < (kalman.update input).denom := by
  obtain ⟨hnoise, hprocess, hdenom, hE, _⟩ := update_spec kalman input h.varNoise
  have hpredicted := h.predicted input.state
  have hform := isCovariance_iff.mp hpredicted
  have hpos : 0 < (kalman.update input).filter.varNoise := lt_of_lt_of_le one_pos hnoise
  refine ⟨⟨hnoise, fun i => ?_, ?_⟩, ?_⟩
  · rw [hprocess]
    exact h.processNoise i
  · rw [hE, hdenom, isCovariance_iff, toBilin'_measured hpredicted]
    exact RankOneDowndate.isPosSemidef_downdate _ hform hpos
  · rw [hdenom, gainDenom_eq]
    exact RankOneDowndate.innovation_pos _ hform hpos

/-- The updates of a filter, one after the other. -/
def Steps (kalman : KalmanFilter 𝕜) (input : KalmanInput 𝕜) (kalman' : KalmanFilter 𝕜) :
    Prop :=
  kalman' = (kalman.update input).filter

/-- **The filter stays well defined** in every run: the variance of the noise is at
least `1`, no update divides by zero, and the covariance stays symmetric and positive
semi-definite, as its test finds. -/
theorem update_wellDefined (𝕜 : Type*) [Field 𝕜] [LinearOrder 𝕜] [IsStrictOrderedRing 𝕜] :
    Always Steps (fun (kalman : KalmanFilter 𝕜) input kalman' =>
      1 ≤ kalman'.varNoise ∧ 0 < (kalman.update input).denom ∧ kalman'.E.IsSymm ∧
        (∀ v : Fin 2 → 𝕜, 0 ≤ v ⬝ᵥ kalman'.E.mulVec v) ∧
        (kalman.update input).positiveSemiDefinite = 0) create := by
  refine Always.of_invariant create_wellDefined fun kalman input kalman' h hstep => ?_
  obtain rfl := hstep
  obtain ⟨hkeep, hdenom⟩ := h.update input
  obtain ⟨_, _, _, _, htest⟩ := update_spec kalman input h.varNoise
  have hform := isCovariance_iff.mp hkeep.covariance
  refine ⟨hkeep, hkeep.varNoise, hdenom, ?_, fun v => ?_, ?_⟩
  · ext i j
    have hsymm := hkeep.covariance.symm
    fin_cases i <;> fin_cases j <;> simp [Matrix.transpose_apply, hsymm]
  · rw [← Matrix.toBilin'_apply']
    exact hform.nonneg v
  · rw [htest]
    exact positiveSemiDefinite_of_isCovariance hkeep.covariance

theorem update_wellDefined_rat :
    Always Steps (fun (kalman : KalmanFilter ℚ) input kalman' =>
      1 ≤ kalman'.varNoise ∧ 0 < (kalman.update input).denom ∧ kalman'.E.IsSymm ∧
        (∀ v : Fin 2 → ℚ, 0 ≤ v ⬝ᵥ kalman'.E.mulVec v) ∧
        (kalman.update input).positiveSemiDefinite = 0) create :=
  update_wellDefined ℚ

end KalmanFilter

end Razor
