import Mathlib.Algebra.Order.Field.Basic
import Mathlib.Tactic.NormNum
import RmcatNs3.Lib.MachineInt
import RmcatNs3.Lib.Runs
import RmcatNs3.Razor.EstimatorCommon

/-!
# The over-use detector

`razor/estimator/overuse_detector.{c,h}`, with the elements of an ordered field for
`double` and exact arithmetic on them.
-/

namespace Razor

open MachineInt Runs

def kMaxAdaptOffsetMs : Nat := 15
def kMinNumDeltas : Int := 60
def kMaxTimeDeltaMs : Int := 100

/-- `overuse_detector_t`. -/
structure OveruseDetector (𝕜 : Type*) where
  kUp : 𝕜
  kDown : 𝕜
  ouveusingTimeThreshold : 𝕜
  threshold : 𝕜
  timeOverUsing : 𝕜
  prevOffset : 𝕜
  updateTs : Int
  overuseCounter : Int
  state : BwState

/-- The arguments of `overuse_detect`. -/
structure DetectInput (𝕜 : Type*) where
  offset : 𝕜
  tsDelta : 𝕜
  numOfDeltas : Int
  curTs : Int

namespace OveruseDetector

variable {𝕜 : Type*} [Field 𝕜]

/-- `overuse_create`. -/
def create : OveruseDetector 𝕜 where
  kUp := 0.0187
  kDown := 0.039
  ouveusingTimeThreshold := 20.0
  threshold := 12.5
  timeOverUsing := -1
  prevOffset := 0
  updateTs := -1
  overuseCounter := 0
  state := .kBwNormal

variable [LinearOrder 𝕜]

/-- `overuse_update_threshold`. -/
def updateThreshold (detector : OveruseDetector 𝕜) (modifiedOffset : 𝕜) (curTs : Int) :
    OveruseDetector 𝕜 :=
  let updateTs := if detector.updateTs = -1 then curTs else detector.updateTs
  if |modifiedOffset| > detector.threshold + kMaxAdaptOffsetMs then
    { detector with updateTs := curTs }
  else
    let k := if |modifiedOffset| < detector.threshold then detector.kDown else detector.kUp
    let timeDelta := min (curTs - updateTs) kMaxTimeDeltaMs
    let threshold := detector.threshold + k * (|modifiedOffset| - detector.threshold) * timeDelta
    { detector with threshold := max 6.0 (min 600.0 threshold), updateTs := curTs }

/-- The part of `overuse_detect` that counts a value above the threshold. -/
def countOveruse (detector : OveruseDetector 𝕜) (offset tsDelta : 𝕜) : OveruseDetector 𝕜 :=
  let timeOverUsing :=
    if detector.timeOverUsing = -1 then tsDelta / 2.0 else detector.timeOverUsing + tsDelta
  let overuseCounter := toSigned 32 (detector.overuseCounter + 1)
  if timeOverUsing > detector.ouveusingTimeThreshold ∧ overuseCounter > 1 ∧
      offset ≥ detector.prevOffset then
    { detector with timeOverUsing := 0, overuseCounter := 0, state := .kBwOverusing }
  else { detector with timeOverUsing, overuseCounter }

/-- `overuse_detect`. -/
def detect (detector : OveruseDetector 𝕜) (input : DetectInput 𝕜) : OveruseDetector 𝕜 :=
  if input.numOfDeltas < 2 then detector
  else
    let T : 𝕜 := (min input.numOfDeltas kMinNumDeltas : Int) * input.offset
    let detector :=
      if T > detector.threshold then detector.countOveruse input.offset input.tsDelta
      else
        { detector with
          timeOverUsing := -1
          overuseCounter := 0
          state := if T < -detector.threshold then .kBwUnderusing else .kBwNormal }
    { detector with prevOffset := input.offset }.updateThreshold T input.curTs

/-! ## The threshold -/

variable {detector : OveruseDetector 𝕜}

/-- The threshold is between its limits. -/
def Adapted (detector : OveruseDetector 𝕜) : Prop :=
  6.0 ≤ detector.threshold ∧ detector.threshold ≤ 600.0

@[simp] theorem threshold_countOveruse (offset tsDelta : 𝕜) :
    (detector.countOveruse offset tsDelta).threshold = detector.threshold := by
  unfold countOveruse
  extract_lets timeOverUsing overuseCounter
  split <;> rfl

variable [IsStrictOrderedRing 𝕜]

theorem create_adapted : Adapted (create : OveruseDetector 𝕜) := by
  constructor
  · show (6.0 : 𝕜) ≤ 12.5
    norm_num
  · show (12.5 : 𝕜) ≤ 600.0
    norm_num

theorem Adapted.updateThreshold (h : Adapted detector) (modifiedOffset : 𝕜) (curTs : Int) :
    Adapted (detector.updateThreshold modifiedOffset curTs) := by
  have hlimits : (6.0 : 𝕜) ≤ 600.0 := by norm_num
  unfold OveruseDetector.updateThreshold
  simp only
  split
  · exact h
  · exact ⟨le_max_left _ _, max_le hlimits (min_le_left _ _)⟩

theorem Adapted.detect (h : Adapted detector) (input : DetectInput 𝕜) :
    Adapted (detector.detect input) := by
  unfold OveruseDetector.detect
  split
  · exact h
  · apply Adapted.updateThreshold
    unfold Adapted
    simp only
    split
    · rw [threshold_countOveruse]
      exact h
    · exact h

omit [IsStrictOrderedRing 𝕜] in
@[simp] theorem state_updateThreshold (modifiedOffset : 𝕜) (curTs : Int) :
    (detector.updateThreshold modifiedOffset curTs).state = detector.state := by
  unfold OveruseDetector.updateThreshold
  simp only
  split <;> rfl

/-- An offset that is not positive is no over-use. -/
theorem Adapted.state_detect (h : Adapted detector) (hstate : detector.state ≠ .kBwOverusing)
    {input : DetectInput 𝕜} (hoffset : input.offset ≤ 0) :
    (detector.detect input).state ≠ .kBwOverusing := by
  unfold OveruseDetector.detect
  split
  · exact hstate
  · rename_i hmany
    have hcount : (0 : 𝕜) ≤ ((min input.numOfDeltas kMinNumDeltas : Int) : 𝕜) := by
      have hmin : 0 ≤ min input.numOfDeltas kMinNumDeltas := by
        unfold kMinNumDeltas
        omega
      exact_mod_cast hmin
    have hbelow : ¬((min input.numOfDeltas kMinNumDeltas : Int) : 𝕜) * input.offset
        > detector.threshold := by
      have hprod := mul_nonpos_of_nonneg_of_nonpos hcount hoffset
      have hlow : (0 : 𝕜) < 6.0 := by norm_num
      exact not_lt.mpr ((hprod.trans hlow.le).trans h.1)
    rw [state_updateThreshold]
    simp only [if_neg hbelow]
    split <;> exact BwState.noConfusion

/-- **The threshold stays between its limits** in every run of the detector. -/
theorem adapted_of_run {inputs : List (DetectInput 𝕜)}
    (hrun : Run (fun d input d' => d' = d.detect input) (create : OveruseDetector 𝕜) inputs
      detector) : Adapted detector := by
  apply hrun.stateInvariant create_adapted
  intro d input d' hd hstep
  exact hstep ▸ hd.detect input

end OveruseDetector

end Razor
