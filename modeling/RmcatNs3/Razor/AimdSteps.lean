import RmcatNs3.Razor.AimdRateControl

/-!
# What an update of the rate controller adds

The clamp of `aimd_change_bitrate` lowers what the controller asks for, or raises it to
the limits; without a measured rate an update adds at most the step of `kRcIncrease`.
-/

namespace Razor

open MachineInt

namespace AimdRateController

variable {𝕜 : Type*} {aimd : AimdRateController 𝕜} {input : RateControlInput} {curTs : Int}

/-! ## The clamp -/

/-- **The bound of the clamp** does not wrap for rates below a third of the range. -/
theorem clampBound_eq {comingRate : Nat} (h : 3 * comingRate < 2 ^ 32) :
    clampBound comingRate = 3 * comingRate / 2 + 10000 := by
  have hproduct : toUnsigned 32 (3 * comingRate) = 3 * comingRate := toUnsigned_of_lt h
  have hlt : 3 * comingRate / 2 + 10000 < 2 ^ 32 := by omega
  rw [clampBound, hproduct]
  exact toUnsigned_of_lt hlt

/-- The clamp only raises a bitrate to the limits. -/
theorem clampBitrate_limits (aimd : AimdRateController 𝕜) (newBitrate comingRate : Nat) :
    min aimd.minRate aimd.maxRate ≤ aimd.clampBitrate newBitrate comingRate ∧
      aimd.clampBitrate newBitrate comingRate
        ≤ max newBitrate (min aimd.minRate aimd.maxRate) := by
  unfold clampBitrate
  extract_lets bound rate
  have hle : rate ≤ newBitrate := by
    by_cases hclamp : newBitrate > aimd.currRate ∧ newBitrate > bound
    · have hrate : rate = max aimd.currRate bound := if_pos hclamp
      omega
    · have hrate : rate = newBitrate := if_neg hclamp
      exact Nat.le_of_eq hrate
  omega

theorem overusing_of_decrease {state : BwState} (h : aimd.state ≠ .kRcDecrease)
    (hdecrease : (aimd.changeState state curTs).state = .kRcDecrease) :
    state = .kBwOverusing := by
  unfold changeState at hdecrease
  cases state with
  | kBwNormal =>
      simp only at hdecrease
      split at hdecrease
      · cases hdecrease
      · exact absurd hdecrease h
  | kBwUnderusing => cases hdecrease
  | kBwOverusing => rfl

theorem state_takeFirstEstimate :
    (aimd.takeFirstEstimate input curTs).state = aimd.state := by
  unfold takeFirstEstimate
  split_ifs <;> rfl

/-- The first estimate waits for a rate. -/
theorem takeFirstEstimate_zero (h : input.incomingBitrate = 0) :
    aimd.takeFirstEstimate input curTs = aimd := by
  unfold takeFirstEstimate
  rw [h]
  split_ifs with _ _ hpos hpos <;> first | rfl | omega

/-! ## The step -/

variable [Field 𝕜] [LinearOrder 𝕜] {math : AimdMath 𝕜}

theorem increase_fst (newBitrate : Nat) (incomingKbitrate maxKbitrate : 𝕜) :
    (aimd.increase math newBitrate incomingKbitrate maxKbitrate curTs).1 = toUnsigned 32
      (newBitrate + aimd.increaseStep math newBitrate incomingKbitrate maxKbitrate curTs) := by
  unfold increase increaseStep
  by_cases hunknown : aimd.avgMaxBitrateKbps ≥ 0 ∧
      incomingKbitrate > aimd.avgMaxBitrateKbps + 3 * maxKbitrate
  · have hregion : ¬RcRegion.kRcMaxUnknown = .kRcNearMax := RcRegion.noConfusion
    simp only [if_pos hunknown, if_neg hregion]
    rw [if_pos (Or.inl hunknown)]
  · simp only [if_neg hunknown]
    by_cases hnear : aimd.region = .kRcNearMax
    · have hadditive : ¬((aimd.avgMaxBitrateKbps ≥ 0 ∧
          incomingKbitrate > aimd.avgMaxBitrateKbps + 3 * maxKbitrate) ∨
            aimd.region ≠ .kRcNearMax) := not_or.mpr ⟨hunknown, not_not.mpr hnear⟩
      rw [if_pos hnear, if_neg hadditive]
    · rw [if_neg hnear, if_pos (.inr hnear)]

/-- What `aimd_change_bitrate` does between two updates: it adds at most its own step, and a
start bitrate is not set. -/
structure Steps (math : AimdMath 𝕜) (aimd : AimdRateController 𝕜) (input : RateControlInput)
    (curTs : Int) (r : Nat × AimdRateController 𝕜) : Prop where
  sameRates : SameRates aimd r.2
  state : r.2.state ≠ .kRcDecrease
  unset : aimd.inited = -1 → r.2.inited = -1
  clamped : aimd.inited ≠ -1 ∨ r.2.inited ≠ -1 →
    ∃ newBitrate comingRate, r.1 = aimd.clampBitrate newBitrate comingRate ∧
      newBitrate ≤ aimd.currRate + aimd.ownStep math input curTs

theorem changeBitrate_steps (h : aimd.state ≠ .kRcDecrease) :
    Steps math aimd input curTs (aimd.changeBitrate math aimd.currRate input curTs) := by
  have hsame := changeState_sameRates aimd input.state curTs
  unfold changeBitrate
  by_cases hguard : aimd.inited = -1 ∧ input.state = .kBwOverusing
  · simp only [if_pos hguard]
    refine ⟨⟨rfl, rfl, rfl⟩, h, fun _ => hguard.1, ?_⟩
    rintro (hset | hset) <;> exact absurd hguard.1 hset
  simp only [if_neg hguard]
  cases hstate : (aimd.changeState input.state curTs).state with
  | kRcHold =>
      refine ⟨hsame, ?_, ?_, fun _ => ⟨_, _, clampBitrate_congr hsame _ _, Nat.le_add_right _ _⟩⟩
      · rw [hstate]
        exact RcState.noConfusion
      · rw [inited_changeState]
        exact id
  | kRcIncrease =>
      have hkeep := fun incoming maxRate =>
        hsame.trans (increase_sameRates math aimd.currRate incoming maxRate curTs)
      refine ⟨hkeep _ _, ?_, ?_, fun _ => ⟨_, _, clampBitrate_congr (hkeep _ _) _ _, ?_⟩⟩
      · rw [state_increase, hstate]
        exact RcState.noConfusion
      · rw [inited_increase, inited_changeState]
        exact id
      · rw [increase_fst, ownStep]
        simp only [if_pos hstate]
        exact Nat.mod_le _ _
  | kRcDecrease =>
      -- between two updates the state is no decrease, so this one comes from an over-use
      have hover := overusing_of_decrease h hstate
      have hset : aimd.inited ≠ -1 := fun hunset => hguard ⟨hunset, hover⟩
      have hle := decreasedBitrate_le math (aimd.changeState input.state curTs)
        (if input.incomingBitrate = 0 then aimd.currRate else input.incomingBitrate)
      rw [hsame.currRate] at hle
      have hkeep := fun bitrate incoming maxRate =>
        hsame.trans (decrease_sameRates math bitrate incoming maxRate curTs)
      exact ⟨hkeep _ _ _, RcState.noConfusion, fun hunset => absurd hunset hset, fun _ =>
        ⟨_, _, clampBitrate_congr (hkeep _ _ _) _ _, Nat.le_add_right_of_le hle⟩⟩

/-- What holds between two updates. -/
structure Sound (aimd : AimdRateController 𝕜) : Prop where
  state : aimd.state ≠ .kRcDecrease
  settled : aimd.inited ≠ -1 → min aimd.minRate aimd.maxRate ≤ aimd.currRate

theorem Sound.update (h : Sound aimd) : Sound (aimd.update math input curTs) := by
  have hfirst : (aimd.takeFirstEstimate input curTs).state ≠ .kRcDecrease := by
    rw [state_takeFirstEstimate]
    exact h.state
  have hsteps := @changeBitrate_steps _ _ input curTs _ _ math hfirst
  unfold AimdRateController.update
  generalize aimd.takeFirstEstimate input curTs = first at hsteps
  refine ⟨hsteps.state, fun hset => ?_⟩
  obtain ⟨newBitrate, comingRate, hrate, -⟩ := hsteps.clamped (.inr hset)
  have hclamp := (first.clampBitrate_limits newBitrate comingRate).1
  show min (first.changeBitrate math first.currRate input curTs).2.minRate
    (first.changeBitrate math first.currRate input curTs).2.maxRate
      ≤ (first.changeBitrate math first.currRate input curTs).1
  rw [hrate, hsteps.sameRates.minRate, hsteps.sameRates.maxRate]
  exact hclamp

/-- **Without a measured rate** an estimate is not made, and only raised by a step. -/
theorem Sound.update_unmeasured (h : Sound aimd) (hzero : input.incomingBitrate = 0)
    (hset : (aimd.update math input curTs).inited ≠ -1) :
    aimd.inited ≠ -1 ∧
      (aimd.update math input curTs).currRate
        ≤ aimd.currRate + aimd.ownStep math input curTs := by
  have hsteps := @changeBitrate_steps _ _ input curTs _ _ math h.state
  unfold AimdRateController.update at hset ⊢
  rw [takeFirstEstimate_zero hzero] at hset ⊢
  have hset' : aimd.inited ≠ -1 := fun hunset => hset (hsteps.unset hunset)
  refine ⟨hset', ?_⟩
  obtain ⟨newBitrate, comingRate, hrate, hle⟩ := hsteps.clamped (.inl hset')
  have hclamp := (aimd.clampBitrate_limits newBitrate comingRate).2
  have hmin := h.settled hset'
  show (aimd.changeBitrate math aimd.currRate input curTs).1 ≤ _
  omega

end AimdRateController

end Razor
