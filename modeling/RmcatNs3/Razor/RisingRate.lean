import RmcatNs3.Razor.AimdSteps

/-!
# The rate without over-use

As long as the rate controller hears of no over-use, an update does not lower the rate, but for
the maximum. The step of an increase does not wrap around.
-/

namespace Razor

open MachineInt

/-- What is documented of `math.h` and of a conversion to an integer. -/
structure AimdMath.Documented {𝕜 : Type*} [Field 𝕜] [LinearOrder 𝕜] (math : AimdMath 𝕜) :
    Prop where
  trunc_nonneg : ∀ x, 0 ≤ x → 0 ≤ math.trunc x
  trunc_le : ∀ x, 0 ≤ x → (math.trunc x : 𝕜) ≤ x
  pow_le : ∀ a t, 1 ≤ a → 0 ≤ t → t ≤ 1 → math.pow a t ≤ a

namespace AimdRateController

variable {𝕜 : Type*} {aimd : AimdRateController 𝕜} {input : RateControlInput} {curTs : Int}

/-- A rate that the updates have not lowered. -/
structure Rising (aimd : AimdRateController 𝕜) : Prop where
  state : aimd.state ≠ .kRcDecrease
  region : aimd.region = .kRcMaxUnknown

/-- A bitrate that is not below the current one is only lowered to the maximum. -/
theorem le_clampBitrate {newBitrate : Nat} (h : aimd.currRate ≤ newBitrate) (comingRate : Nat) :
    min aimd.currRate aimd.maxRate ≤ aimd.clampBitrate newBitrate comingRate := by
  unfold clampBitrate
  extract_lets bound rate
  have hle : aimd.currRate ≤ rate := by
    by_cases hclamp : newBitrate > aimd.currRate ∧ newBitrate > bound
    · have hrate : rate = max aimd.currRate bound := if_pos hclamp
      omega
    · have hrate : rate = newBitrate := if_neg hclamp
      omega
  omega

theorem clampBitrate_le_maxRate (newBitrate comingRate : Nat) :
    aimd.clampBitrate newBitrate comingRate ≤ aimd.maxRate := by
  unfold clampBitrate
  exact min_le_right _ _

theorem Rising.changeState (h : Rising aimd) {state : BwState} (hstate : state ≠ .kBwOverusing) :
    Rising (aimd.changeState state curTs) := by
  unfold AimdRateController.changeState
  cases state with
  | kBwNormal =>
      simp only
      split
      · exact ⟨RcState.noConfusion, h.region⟩
      · exact h
  | kBwUnderusing => exact ⟨RcState.noConfusion, h.region⟩
  | kBwOverusing => exact absurd rfl hstate

theorem Rising.takeFirstEstimate (h : Rising aimd) (input : RateControlInput) (curTs : Int) :
    Rising (aimd.takeFirstEstimate input curTs) := by
  unfold AimdRateController.takeFirstEstimate
  split_ifs <;> exact ⟨h.state, h.region⟩

/-! ## Limits -/

/-- The rates are below half of the range, and have not been lowered by an over-use. -/
structure Modest (aimd : AimdRateController 𝕜) : Prop where
  rising : aimd.Rising
  currRate : aimd.currRate ≤ 2 ^ 31
  minRate : aimd.minRate ≤ 2 ^ 31
  maxRate : aimd.maxRate ≤ 2 ^ 31

theorem Modest.setStartBitrate (h : Modest aimd) {bitrate : Nat} (hsmall : bitrate ≤ 2 ^ 31) :
    Modest (aimd.setStartBitrate bitrate) :=
  ⟨⟨h.rising.state, h.rising.region⟩, hsmall, h.minRate, h.maxRate⟩

theorem Modest.setMinBitrate (h : Modest aimd) {bitrate : Nat} (hsmall : bitrate ≤ 2 ^ 31) :
    Modest (aimd.setMinBitrate bitrate) :=
  ⟨⟨h.rising.state, h.rising.region⟩, max_le hsmall h.currRate, hsmall, h.maxRate⟩

theorem Modest.setMaxBitrate (h : Modest aimd) {bitrate : Nat} (hsmall : bitrate ≤ 2 ^ 31) :
    Modest (aimd.setMaxBitrate bitrate) :=
  ⟨⟨h.rising.state, h.rising.region⟩, (min_le_left _ _).trans hsmall, h.minRate, hsmall⟩

/-- Half of the rate, but for the limits. -/
theorem Modest.setEstimate (h : Modest aimd) (curTs : Int) :
    let aimd' := aimd.setEstimate (toUnsigned 32 (aimd.currRate * 1) / 2 : Nat) curTs
    Modest aimd' ∧ aimd'.currRate = min (max (aimd.currRate / 2) aimd.minRate) aimd.maxRate := by
  intro aimd'
  have hrate := h.currRate
  have hmax := h.maxRate
  have hhalf : toUnsigned 32 (aimd.currRate * 1) / 2 = aimd.currRate / 2 := by
    rw [Int.mul_one, toUnsigned_of_lt (by omega)]
  have hcurr : aimd'.currRate = min (max (aimd.currRate / 2) aimd.minRate) aimd.maxRate := by
    show aimd.clampBitrate (toUnsigned 32 (toUnsigned 32 (aimd.currRate * 1) / 2 : Nat)) _ = _
    rw [hhalf, toUnsigned_of_lt (by omega), clampBitrate]
    have hkeep : ¬(aimd.currRate / 2 > aimd.currRate ∧
        aimd.currRate / 2 > clampBound (aimd.currRate / 2)) := by omega
    simp only [if_neg hkeep]
  refine ⟨⟨⟨h.rising.state, h.rising.region⟩, ?_, h.minRate, h.maxRate⟩, hcurr⟩
  rw [hcurr]
  exact (min_le_right _ _).trans hmax

/-! ## Updates -/

variable [Field 𝕜] [LinearOrder 𝕜] {math : AimdMath 𝕜}

theorem Rising.increase (h : Rising aimd) (math : AimdMath 𝕜) (newBitrate : Nat)
    (incomingKbitrate maxKbitrate : 𝕜) :
    Rising (aimd.increase math newBitrate incomingKbitrate maxKbitrate curTs).2 := by
  unfold AimdRateController.increase
  simp only
  split
  · exact ⟨h.state, rfl⟩
  · exact ⟨h.state, h.region⟩

/-- The bitrate that an increase asks for. -/
theorem Rising.increase_fst (h : Rising aimd) (newBitrate : Nat)
    (incomingKbitrate maxKbitrate : 𝕜) :
    (aimd.increase math newBitrate incomingKbitrate maxKbitrate curTs).1 = toUnsigned 32
      (newBitrate +
        multiplicativeRateIncrease math curTs aimd.timeLastBitrateChange newBitrate) := by
  have hregion : aimd.region ≠ .kRcNearMax := by
    rw [h.region]
    exact RcRegion.noConfusion
  rw [AimdRateController.increase_fst, increaseStep, if_pos (.inr hregion)]

variable [IsStrictOrderedRing 𝕜]

/-- **The step of an increase** is at most 8 percent, or 1000. -/
theorem multiplicativeRateIncrease_le (hmath : math.Documented) {lastTs : Int} {currBitrate : Nat}
    (hrate : currBitrate ≤ 2 ^ 31) :
    multiplicativeRateIncrease math curTs lastTs currBitrate < 2 ^ 31 := by
  unfold multiplicativeRateIncrease
  extract_lets alpha tsSince raised
  have hraised : raised ≤ 108 / 100 := by
    by_cases hset : lastTs > -1
    · have hsecond : tsSince ≤ 1000 := Nat.min_le_right _ _
      have hcast : (tsSince : 𝕜) ≤ 1000 := by exact_mod_cast hsecond
      rw [show raised = _ from if_pos hset]
      refine hmath.pow_le _ _ ?_ (by positivity) (by linarith)
      show (1 : 𝕜) ≤ 108 / 100
      norm_num
    · exact le_of_eq (if_neg hset)
  have hcast : (currBitrate : 𝕜) ≤ 2 ^ 31 := by exact_mod_cast hrate
  have hstep : max ((currBitrate : 𝕜) * (raised - 1)) 1000 < 2 ^ 31 := by
    apply max_lt
    · have hle : (currBitrate : 𝕜) * (raised - 1) ≤ currBitrate * (8 / 100) := by
        apply mul_le_mul_of_nonneg_left _ (Nat.cast_nonneg _)
        linarith
      linarith
    · norm_num
  generalize hvalue : max ((currBitrate : 𝕜) * (raised - 1)) 1000 = value at hstep ⊢
  have hpos : 0 ≤ value := by
    rw [← hvalue]
    exact le_max_of_le_right (by norm_num)
  have hint : math.trunc value < 2 ^ 31 := by
    exact_mod_cast (hmath.trunc_le value hpos).trans_lt hstep
  have htrunc := hmath.trunc_nonneg value hpos
  have hmod := toUnsigned_cast 32 (math.trunc value)
  omega

/-- What `aimd_change_bitrate` returns without over-use. -/
structure Raises (math : AimdMath 𝕜) (aimd : AimdRateController 𝕜)
    (r : Nat × AimdRateController 𝕜) : Prop where
  sameRates : SameRates aimd r.2
  inited : r.2.inited = aimd.inited
  rising : Rising r.2
  upper : r.1 ≤ aimd.maxRate
  lower : math.Documented → aimd.currRate ≤ 2 ^ 31 → min aimd.currRate aimd.maxRate ≤ r.1

theorem Rising.changeBitrate (h : Rising aimd) (hinput : input.state ≠ .kBwOverusing) :
    Raises math aimd (aimd.changeBitrate math aimd.currRate input curTs) := by
  have hguard : ¬(aimd.inited = -1 ∧ input.state = .kBwOverusing) := fun hno => hinput hno.2
  have hsame := changeState_sameRates aimd input.state curTs
  have hrising : Rising (aimd.changeState input.state curTs) := h.changeState hinput
  unfold AimdRateController.changeBitrate
  simp only [if_neg hguard]
  cases hstate : (aimd.changeState input.state curTs).state with
  | kRcHold =>
      refine ⟨hsame, inited_changeState _ _ _, hrising, ?_, fun _ _ => ?_⟩
      · rw [clampBitrate_congr hsame]
        exact clampBitrate_le_maxRate _ _
      · rw [clampBitrate_congr hsame]
        exact le_clampBitrate (le_refl _) _
  | kRcIncrease =>
      have hkeep := fun incoming maxRate =>
        hsame.trans (increase_sameRates math aimd.currRate incoming maxRate curTs)
      refine ⟨hkeep _ _, ?_, hrising.increase math aimd.currRate _ _, ?_, fun hmath hrate => ?_⟩
      · rw [inited_increase, inited_changeState]
      · rw [clampBitrate_congr (hkeep _ _)]
        exact clampBitrate_le_maxRate _ _
      · rw [clampBitrate_congr (hkeep _ _), hrising.increase_fst]
        apply le_clampBitrate
        have hstep := @multiplicativeRateIncrease_le _ curTs _ _ math _ hmath
          (aimd.changeState input.state curTs).timeLastBitrateChange _ hrate
        rw [← Nat.cast_add, toUnsigned_of_lt (by omega)]
        exact Nat.le_add_right _ _
  | kRcDecrease => exact absurd hstate hrising.state

/-- What an update without over-use does. -/
structure Raised (math : AimdMath 𝕜) (aimd aimd' : AimdRateController 𝕜) : Prop where
  rising : Rising aimd'
  minRate : aimd'.minRate = aimd.minRate
  maxRate : aimd'.maxRate = aimd.maxRate
  upper : aimd'.currRate ≤ aimd.maxRate
  lower : math.Documented → aimd.inited ≠ -1 → aimd.currRate ≤ 2 ^ 31 →
    min aimd.currRate aimd.maxRate ≤ aimd'.currRate

/-- **An update without over-use** keeps the rate, but for the maximum. -/
theorem Rising.update (h : Rising aimd) (hinput : input.state ≠ .kBwOverusing) :
    Raised math aimd (aimd.update math input curTs) := by
  have hlimits : (aimd.takeFirstEstimate input curTs).minRate = aimd.minRate ∧
      (aimd.takeFirstEstimate input curTs).maxRate = aimd.maxRate := by
    unfold AimdRateController.takeFirstEstimate
    split_ifs <;> exact ⟨rfl, rfl⟩
  have hfirst := h.takeFirstEstimate input curTs
  have hraises := @Rising.changeBitrate _ _ input curTs _ _ math _ hfirst hinput
  unfold AimdRateController.update
  refine ⟨⟨hraises.rising.state, hraises.rising.region⟩, ?_, ?_, ?_, ?_⟩
  · exact hraises.sameRates.minRate.trans hlimits.1
  · exact hraises.sameRates.maxRate.trans hlimits.2
  · exact hraises.upper.trans_eq hlimits.2
  · intro hmath hset hrate
    rw [takeFirstEstimate_eq hset] at hraises ⊢
    exact hraises.lower hmath hrate

end AimdRateController

end Razor
