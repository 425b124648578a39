import Mathlib.Algebra.Order.Field.Basic
import Mathlib.Tactic.Linarith
import Mathlib.Tactic.NormNum
import Mathlib.Tactic.Positivity
import RmcatNs3.Lib.MachineInt
import RmcatNs3.Lib.Runs
import RmcatNs3.Razor.EstimatorCommon

/-!
# The rate controller of the estimators

`razor/estimator/aimd_rate_control.{c,h}`, with the elements of an ordered field for
`float` and `double`. What `math.h` returns, and the integer that a value is
converted to, are parameters of each call, of which nothing is assumed.
`in_experiment`, which nothing reads, the expected period of the bandwidth, which
only the probes ask for, and the log lines are left out.
-/

namespace Razor

open MachineInt Runs

/-- What a call computes outside of the field's operations. -/
structure AimdMath (𝕜 : Type*) where
  sqrt : 𝕜 → 𝕜
  pow : 𝕜 → 𝕜 → 𝕜
  ceil : 𝕜 → 𝕜
  /-- The integer part, from which a conversion takes its low bits. -/
  trunc : 𝕜 → Int

/-- A value to which 0.5 is added before it is converted. -/
def AimdMath.half {𝕜 : Type*} [Field 𝕜] (math : AimdMath 𝕜) (x : 𝕜) : Int :=
  math.trunc (x + 5 / 10)

/-- `aimd_rate_controller_t`. -/
structure AimdRateController (𝕜 : Type*) where
  minRate : Nat
  maxRate : Nat
  currRate : Nat
  avgMaxBitrateKbps : 𝕜
  varMaxBitrateKbps : 𝕜
  state : RcState
  region : RcRegion
  timeLastBitrateChange : Int
  timeFirstIncomingEstimate : Int
  rtt : Nat
  inited : Int
  beta : 𝕜
  lastDecrease : Int

namespace AimdRateController

def maxFeelbackInterval : Int := 1000
def minFellbackInterval : Int := 200
def kInitializationTs : Int := 5000

variable {𝕜 : Type*}

/-! ## Limits and states -/

/-- `aimd_time_reduce_further`; `0` if the rate may be reduced again. -/
def timeReduceFurther (aimd : AimdRateController 𝕜) (curTs : Int) (incomingRate : Nat) : Int :=
  let reduceInterval : Int := max (min 200 aimd.rtt) 10
  if curTs - aimd.timeLastBitrateChange ≥ reduceInterval then 0
  else if aimd.inited = 0 ∧ aimd.currRate / 2 > incomingRate then 0
  else -1

/-- `aimd_set_min_bitrate`. -/
def setMinBitrate (aimd : AimdRateController 𝕜) (bitrate : Nat) : AimdRateController 𝕜 :=
  { aimd with minRate := bitrate, currRate := max bitrate aimd.currRate }

/-- `aimd_set_max_bitrate`. -/
def setMaxBitrate (aimd : AimdRateController 𝕜) (bitrate : Nat) : AimdRateController 𝕜 :=
  { aimd with maxRate := bitrate, currRate := min bitrate aimd.currRate }

/-- `max_bitrate_bps` of `clamp_bitrate`. -/
def clampBound (comingRate : Nat) : Nat :=
  toUnsigned 32 (toUnsigned 32 (3 * comingRate) / 2 + 10000)

/-- `clamp_bitrate`. -/
def clampBitrate (aimd : AimdRateController 𝕜) (newBitrate comingRate : Nat) : Nat :=
  let maxBitrateBps := clampBound comingRate
  let newBitrate :=
    if newBitrate > aimd.currRate ∧ newBitrate > maxBitrateBps then
      max aimd.currRate maxBitrateBps
    else newBitrate
  min (max newBitrate aimd.minRate) aimd.maxRate

/-- `aimd_change_state`. -/
def changeState (aimd : AimdRateController 𝕜) (input : BwState) (curTs : Int) :
    AimdRateController 𝕜 :=
  match input with
  | .kBwNormal =>
      if aimd.state = .kRcHold then
        { aimd with timeLastBitrateChange := curTs, state := .kRcIncrease }
      else aimd
  | .kBwOverusing => { aimd with state := .kRcDecrease }
  | .kBwUnderusing => { aimd with state := .kRcHold }

@[simp] theorem inited_changeState (aimd : AimdRateController 𝕜) (input : BwState)
    (curTs : Int) : (aimd.changeState input curTs).inited = aimd.inited := by
  unfold changeState
  cases input with
  | kBwNormal =>
      simp only
      split <;> rfl
  | kBwUnderusing => rfl
  | kBwOverusing => rfl

/-- A call that keeps the limits and the rate that they are compared with. -/
structure SameRates (aimd aimd' : AimdRateController 𝕜) : Prop where
  minRate : aimd'.minRate = aimd.minRate
  maxRate : aimd'.maxRate = aimd.maxRate
  currRate : aimd'.currRate = aimd.currRate

variable {aimd : AimdRateController 𝕜}

theorem SameRates.trans {aimd' aimd'' : AimdRateController 𝕜} (h : SameRates aimd aimd')
    (h' : SameRates aimd' aimd'') : SameRates aimd aimd'' :=
  ⟨h'.minRate.trans h.minRate, h'.maxRate.trans h.maxRate, h'.currRate.trans h.currRate⟩

theorem clampBitrate_bounds (h : aimd.minRate ≤ aimd.maxRate) (newBitrate comingRate : Nat) :
    aimd.minRate ≤ aimd.clampBitrate newBitrate comingRate ∧
      aimd.clampBitrate newBitrate comingRate ≤ aimd.maxRate := by
  unfold clampBitrate
  extract_lets bound rate
  exact ⟨le_min (le_max_right _ _) h, min_le_right _ _⟩

/-- A bitrate that is not above the current one is only raised to the minimum. -/
theorem clampBitrate_le {newBitrate : Nat} (hmin : aimd.minRate ≤ aimd.currRate)
    (h : newBitrate ≤ aimd.currRate) (comingRate : Nat) :
    aimd.clampBitrate newBitrate comingRate ≤ aimd.currRate := by
  have hkeep : ¬ (newBitrate > aimd.currRate ∧ newBitrate > clampBound comingRate) :=
    fun hgt => Nat.not_lt.mpr h hgt.1
  unfold clampBitrate
  simp only [if_neg hkeep]
  exact (min_le_left _ _).trans (max_le h hmin)

theorem clampBitrate_congr {aimd' : AimdRateController 𝕜} (h : SameRates aimd aimd')
    (newBitrate comingRate : Nat) :
    aimd'.clampBitrate newBitrate comingRate = aimd.clampBitrate newBitrate comingRate := by
  simp only [clampBitrate, h.minRate, h.maxRate, h.currRate]

theorem changeState_sameRates (aimd : AimdRateController 𝕜) (input : BwState) (curTs : Int) :
    SameRates aimd (aimd.changeState input curTs) := by
  unfold changeState
  cases input with
  | kBwNormal =>
      simp only
      split <;> exact ⟨rfl, rfl, rfl⟩
  | kBwUnderusing => exact ⟨rfl, rfl, rfl⟩
  | kBwOverusing => exact ⟨rfl, rfl, rfl⟩

/-- The start of `aimd_update`, while no bitrate has been set. -/
def takeFirstEstimate (aimd : AimdRateController 𝕜) (input : RateControlInput) (curTs : Int) :
    AimdRateController 𝕜 :=
  if aimd.inited = -1 then
    if aimd.timeFirstIncomingEstimate < 0 then
      if input.incomingBitrate > 0 then { aimd with timeFirstIncomingEstimate := curTs }
      else aimd
    else if curTs - aimd.timeFirstIncomingEstimate > kInitializationTs ∧
        input.incomingBitrate > 0 then
      { aimd with currRate := input.incomingBitrate, inited := 0 }
    else aimd
  else aimd

/-- Once a start bitrate is set, the first estimate is not taken over. -/
theorem takeFirstEstimate_eq (hinit : aimd.inited ≠ -1) (input : RateControlInput)
    (curTs : Int) : aimd.takeFirstEstimate input curTs = aimd :=
  if_neg hinit

/-! ## Rates -/

variable [Field 𝕜] {math : AimdMath 𝕜}

/-- `aimd_create`. -/
def create (maxRate minRate : Nat) : AimdRateController 𝕜 where
  minRate
  maxRate
  currRate := 0
  avgMaxBitrateKbps := -1
  varMaxBitrateKbps := 4 / 10
  state := .kRcHold
  region := .kRcMaxUnknown
  timeLastBitrateChange := -1
  timeFirstIncomingEstimate := -1
  rtt := kDefaultRtt
  inited := -1
  beta := 85 / 100
  lastDecrease := 0

/-- `aimd_set_start_bitrate`. -/
def setStartBitrate (aimd : AimdRateController 𝕜) (bitrate : Nat) : AimdRateController 𝕜 :=
  { aimd with currRate := bitrate, inited := 0 }

/-- `aimd_get_feelback_interval`. -/
def getFeelbackInterval (math : AimdMath 𝕜) (aimd : AimdRateController 𝕜) : Int :=
  let interval := math.trunc (64 * 8 * 1000 / (5 / 100 * aimd.currRate + 5 / 10))
  max (min maxFeelbackInterval interval) minFellbackInterval

/-- The bitrate that the case `kRcDecrease` of `aimd_change_bitrate` asks for. -/
def decreasedBitrate (math : AimdMath 𝕜) (aimd : AimdRateController 𝕜)
    (incomingBitrate : Nat) : Nat :=
  let newBitrate := toUnsigned 32 (math.trunc (aimd.beta * incomingBitrate + 5 / 10))
  if newBitrate > aimd.currRate then
    let newBitrate :=
      if aimd.region ≠ .kRcMaxUnknown then
        toUnsigned 32 (math.trunc (aimd.avgMaxBitrateKbps * 1000 * aimd.beta + 5 / 10))
      else newBitrate
    min newBitrate aimd.currRate
  else newBitrate

theorem decreasedBitrate_le (math : AimdMath 𝕜) (aimd : AimdRateController 𝕜)
    (incomingBitrate : Nat) :
    aimd.decreasedBitrate math incomingBitrate ≤ aimd.currRate := by
  unfold decreasedBitrate
  extract_lets newBitrate fallback
  split
  · exact min_le_right _ _
  · rename_i hle
    exact Nat.not_lt.mp hle

variable [LinearOrder 𝕜]

/-- `multiplicative_rate_increase`. -/
def multiplicativeRateIncrease (math : AimdMath 𝕜) (curTs lastTs : Int) (currBitrate : Nat) :
    Nat :=
  let alpha : 𝕜 := 108 / 100
  let alpha :=
    if lastTs > -1 then
      let tsSince := min (toUnsigned 32 (curTs - lastTs)) 1000
      math.pow alpha (tsSince / 1000)
    else alpha
  toUnsigned 32 (math.trunc (max (currBitrate * (alpha - 1)) 1000))

/-- `aimd_get_near_max_inc_rate`. -/
def getNearMaxIncRate (math : AimdMath 𝕜) (aimd : AimdRateController 𝕜) : Int :=
  let bitsPerFrame : 𝕜 := aimd.currRate / 30
  let packetsPerFrame := math.ceil (bitsPerFrame / (8 * 1000))
  let avgPacketSizeBits := bitsPerFrame / packetsPerFrame
  let responseTime := toUnsigned 32 ((aimd.rtt + 100) * 2)
  toSigned 32 (math.trunc (max 4000 (avgPacketSizeBits * 1000 / responseTime)))

/-- `additive_rate_increase`. -/
def additiveRateIncrease (math : AimdMath 𝕜) (aimd : AimdRateController 𝕜)
    (curTs lastTs : Int) : Nat :=
  toUnsigned 32 (math.trunc (((curTs - lastTs) * aimd.getNearMaxIncRate math : Int) / 1000))

/-- `update_max_bitrate_estimate`. -/
def updateMaxBitrateEstimate (aimd : AimdRateController 𝕜) (incomingBitrateKps : 𝕜) :
    AimdRateController 𝕜 :=
  let alpha : 𝕜 := 5 / 100
  let avg :=
    if aimd.avgMaxBitrateKbps = -1 then incomingBitrateKps
    else (1 - alpha) * aimd.avgMaxBitrateKbps + alpha * incomingBitrateKps
  let norm := max avg 1
  let var := (1 - alpha) * aimd.varMaxBitrateKbps
    + alpha * (avg - incomingBitrateKps) * (avg - incomingBitrateKps) / norm
  let var := if var < 4 / 10 then 4 / 10 else var
  let var := if var > 25 / 10 then 25 / 10 else var
  { aimd with avgMaxBitrateKbps := avg, varMaxBitrateKbps := var }

/-- The case `kRcIncrease` of `aimd_change_bitrate`. -/
def increase (math : AimdMath 𝕜) (aimd : AimdRateController 𝕜) (newBitrate : Nat)
    (incomingKbitrate maxKbitrate : 𝕜) (curTs : Int) : Nat × AimdRateController 𝕜 :=
  let aimd :=
    if aimd.avgMaxBitrateKbps ≥ 0 ∧
        incomingKbitrate > aimd.avgMaxBitrateKbps + 3 * maxKbitrate then
      { aimd with region := .kRcMaxUnknown, avgMaxBitrateKbps := -1 }
    else aimd
  let added :=
    if aimd.region = .kRcNearMax then
      aimd.additiveRateIncrease math curTs aimd.timeLastBitrateChange
    else multiplicativeRateIncrease math curTs aimd.timeLastBitrateChange newBitrate
  (toUnsigned 32 (newBitrate + added), { aimd with timeLastBitrateChange := curTs })

/-- What the case `kRcIncrease` of `aimd_change_bitrate` adds. -/
def increaseStep (math : AimdMath 𝕜) (aimd : AimdRateController 𝕜) (newBitrate : Nat)
    (incomingKbitrate maxKbitrate : 𝕜) (curTs : Int) : Nat :=
  if (aimd.avgMaxBitrateKbps ≥ 0 ∧
      incomingKbitrate > aimd.avgMaxBitrateKbps + 3 * maxKbitrate) ∨
        aimd.region ≠ .kRcNearMax then
    multiplicativeRateIncrease math curTs aimd.timeLastBitrateChange newBitrate
  else aimd.additiveRateIncrease math curTs aimd.timeLastBitrateChange

/-- The case `kRcDecrease` of `aimd_change_bitrate`. -/
def decrease (math : AimdMath 𝕜) (aimd : AimdRateController 𝕜) (incomingBitrate : Nat)
    (incomingKbitrate maxKbitrate : 𝕜) (curTs : Int) : Nat × AimdRateController 𝕜 :=
  let newBitrate := aimd.decreasedBitrate math incomingBitrate
  let lastDecrease :=
    if aimd.inited = 0 ∧ incomingBitrate < aimd.currRate then
      toSigned 32 (aimd.currRate - newBitrate)
    else aimd.lastDecrease
  let avgMaxBitrateKbps :=
    if incomingKbitrate < aimd.avgMaxBitrateKbps - 3 * maxKbitrate then -1
    else aimd.avgMaxBitrateKbps
  let aimd := { aimd with
    region := .kRcNearMax
    lastDecrease
    avgMaxBitrateKbps
    inited := 0 }.updateMaxBitrateEstimate incomingKbitrate
  (newBitrate, { aimd with state := .kRcHold, timeLastBitrateChange := curTs })

/-- `aimd_change_bitrate`; the result is the bitrate it returns. -/
def changeBitrate (math : AimdMath 𝕜) (aimd : AimdRateController 𝕜) (newBitrate : Nat)
    (input : RateControlInput) (curTs : Int) : Nat × AimdRateController 𝕜 :=
  let incomingBitrate :=
    if input.incomingBitrate = 0 then aimd.currRate else input.incomingBitrate
  if aimd.inited = -1 ∧ input.state = .kBwOverusing then (aimd.currRate, aimd)
  else
    let aimd := aimd.changeState input.state curTs
    let incomingKbitrate : 𝕜 := incomingBitrate / 1000
    let maxKbitrate := math.sqrt (aimd.avgMaxBitrateKbps * aimd.varMaxBitrateKbps)
    let (newBitrate, aimd) :=
      match aimd.state with
      | .kRcHold => (newBitrate, aimd)
      | .kRcIncrease => aimd.increase math newBitrate incomingKbitrate maxKbitrate curTs
      | .kRcDecrease => aimd.decrease math incomingBitrate incomingKbitrate maxKbitrate curTs
    (aimd.clampBitrate newBitrate incomingBitrate, aimd)

/-- What `aimd_update` may add to the current bitrate. -/
def ownStep (math : AimdMath 𝕜) (aimd : AimdRateController 𝕜) (input : RateControlInput)
    (curTs : Int) : Nat :=
  let incomingBitrate :=
    if input.incomingBitrate = 0 then aimd.currRate else input.incomingBitrate
  let changed := aimd.changeState input.state curTs
  if changed.state = .kRcIncrease then
    changed.increaseStep math aimd.currRate (incomingBitrate / 1000)
      (math.sqrt (changed.avgMaxBitrateKbps * changed.varMaxBitrateKbps)) curTs
  else 0

/-- `aimd_update`; the bitrate it returns is `currRate`. -/
def update (math : AimdMath 𝕜) (aimd : AimdRateController 𝕜) (input : RateControlInput)
    (curTs : Int) : AimdRateController 𝕜 :=
  let aimd := aimd.takeFirstEstimate input curTs
  let (currRate, aimd) := aimd.changeBitrate math aimd.currRate input curTs
  { aimd with currRate }

/-- `aimd_set_estimate`. -/
def setEstimate (aimd : AimdRateController 𝕜) (bitrate curTs : Int) : AimdRateController 𝕜 :=
  { aimd with
    inited := 0
    currRate := aimd.clampBitrate (toUnsigned 32 bitrate) (toUnsigned 32 bitrate)
    timeLastBitrateChange := curTs }

/-! ## What a call changes -/

theorem increase_sameRates (math : AimdMath 𝕜) (newBitrate : Nat)
    (incomingKbitrate maxKbitrate : 𝕜) (curTs : Int) :
    SameRates aimd (aimd.increase math newBitrate incomingKbitrate maxKbitrate curTs).2 := by
  unfold increase
  dsimp only
  split <;> exact ⟨rfl, rfl, rfl⟩

@[simp] theorem state_increase (newBitrate : Nat) (incomingKbitrate maxKbitrate : 𝕜)
    (curTs : Int) :
    (aimd.increase math newBitrate incomingKbitrate maxKbitrate curTs).2.state = aimd.state := by
  unfold increase
  dsimp only
  split <;> rfl

@[simp] theorem inited_increase (newBitrate : Nat) (incomingKbitrate maxKbitrate : 𝕜)
    (curTs : Int) :
    (aimd.increase math newBitrate incomingKbitrate maxKbitrate curTs).2.inited
      = aimd.inited := by
  unfold increase
  dsimp only
  split <;> rfl

theorem decrease_sameRates (math : AimdMath 𝕜) (incomingBitrate : Nat)
    (incomingKbitrate maxKbitrate : 𝕜) (curTs : Int) :
    SameRates aimd
      (aimd.decrease math incomingBitrate incomingKbitrate maxKbitrate curTs).2 :=
  ⟨rfl, rfl, rfl⟩

/-- The average of the maximum is set if the region is near to it. -/
structure RegionInv (aimd : AimdRateController 𝕜) : Prop where
  notAbove : aimd.region ≠ .kRcAboveMax
  averageSet : aimd.region = .kRcNearMax → 0 ≤ aimd.avgMaxBitrateKbps
  setOrNot : 0 ≤ aimd.avgMaxBitrateKbps ∨ aimd.avgMaxBitrateKbps = -1

theorem RegionInv.congr {aimd' : AimdRateController 𝕜} (h : RegionInv aimd)
    (hregion : aimd'.region = aimd.region)
    (havg : aimd'.avgMaxBitrateKbps = aimd.avgMaxBitrateKbps) : RegionInv aimd' where
  notAbove := hregion ▸ h.notAbove
  averageSet := by
    rw [hregion, havg]
    exact h.averageSet
  setOrNot := by
    rw [havg]
    exact h.setOrNot

theorem RegionInv.changeState (h : RegionInv aimd) (input : BwState) (curTs : Int) :
    RegionInv (aimd.changeState input curTs) := by
  unfold AimdRateController.changeState
  cases input with
  | kBwNormal =>
      simp only
      split <;> exact h.congr rfl rfl
  | kBwUnderusing => exact h.congr rfl rfl
  | kBwOverusing => exact h.congr rfl rfl

/-- The region and the average are forgotten together. -/
theorem RegionInv.increase (h : RegionInv aimd) (math : AimdMath 𝕜) (newBitrate : Nat)
    (incomingKbitrate maxKbitrate : 𝕜) (curTs : Int) :
    RegionInv (aimd.increase math newBitrate incomingKbitrate maxKbitrate curTs).2 := by
  unfold AimdRateController.increase
  dsimp only
  split
  · exact ⟨RcRegion.noConfusion, RcRegion.noConfusion, .inr rfl⟩
  · exact h.congr rfl rfl

/-- What holds between two calls of a controller that has these limits. -/
structure Inv (lo hi : Nat) (aimd : AimdRateController 𝕜) : Prop where
  minRate : aimd.minRate = lo
  maxRate : aimd.maxRate = hi
  lower : lo ≤ aimd.currRate
  upper : aimd.currRate ≤ hi
  inited : aimd.inited ≠ -1
  region : RegionInv aimd

variable {minRate maxRate : Nat}

theorem Inv.averageSet (h : Inv minRate maxRate aimd) (hregion : aimd.region ≠ .kRcMaxUnknown) :
    0 ≤ aimd.avgMaxBitrateKbps := by
  cases hcase : aimd.region with
  | kRcNearMax => exact h.region.averageSet hcase
  | kRcAboveMax => exact absurd hcase h.region.notAbove
  | kRcMaxUnknown => exact absurd hcase hregion

theorem Inv.setEstimate (h : Inv minRate maxRate aimd) (bitrate curTs : Int) :
    Inv minRate maxRate (aimd.setEstimate bitrate curTs) := by
  have hle : aimd.minRate ≤ aimd.maxRate := by
    rw [h.minRate, h.maxRate]
    exact h.lower.trans h.upper
  have hbounds := clampBitrate_bounds hle (toUnsigned 32 bitrate) (toUnsigned 32 bitrate)
  rw [h.minRate, h.maxRate] at hbounds
  exact ⟨h.minRate, h.maxRate, hbounds.1, hbounds.2, (show (0 : Int) ≠ -1 by decide),
    h.region.congr rfl rfl⟩

/-- A controller that is created with a start bitrate between its limits. -/
theorem Inv.start {start : Nat} (hmin : minRate ≤ start) (hmax : start ≤ maxRate) :
    Inv minRate maxRate ((create maxRate minRate : AimdRateController 𝕜).setStartBitrate start) :=
  ⟨rfl, rfl, hmin, hmax, (show (0 : Int) ≠ -1 by decide),
    ⟨RcRegion.noConfusion, RcRegion.noConfusion, .inr rfl⟩⟩

variable [IsStrictOrderedRing 𝕜]

/-- The average is set by its update. -/
theorem updateMaxBitrateEstimate_nonneg
    (h : 0 ≤ aimd.avgMaxBitrateKbps ∨ aimd.avgMaxBitrateKbps = -1) {incoming : 𝕜}
    (h0 : 0 ≤ incoming) :
    0 ≤ (aimd.updateMaxBitrateEstimate incoming).avgMaxBitrateKbps := by
  unfold updateMaxBitrateEstimate
  by_cases hunset : aimd.avgMaxBitrateKbps = -1
  · simp only [if_pos hunset]
    exact h0
  · have havg := h.resolve_right hunset
    simp only [if_neg hunset]
    have hkeep : (0 : 𝕜) ≤ 1 - 5 / 100 := by norm_num
    have hshare : (0 : 𝕜) ≤ 5 / 100 := by norm_num
    exact add_nonneg (mul_nonneg hkeep havg) (mul_nonneg hshare h0)

theorem RegionInv.decrease (h : RegionInv aimd) (incomingBitrate : Nat) {incomingKbitrate : 𝕜}
    (h0 : 0 ≤ incomingKbitrate) (maxKbitrate : 𝕜) (curTs : Int) :
    RegionInv (aimd.decrease math incomingBitrate incomingKbitrate maxKbitrate curTs).2 := by
  have hset : 0 ≤ (aimd.decrease math incomingBitrate incomingKbitrate maxKbitrate
      curTs).2.avgMaxBitrateKbps := by
    unfold AimdRateController.decrease
    -- the average may be given up, but it is set again at once
    refine updateMaxBitrateEstimate_nonneg ?_ h0
    exact iteInduction (motive := fun x : 𝕜 => 0 ≤ x ∨ x = -1) (fun _ => .inr rfl)
      fun _ => h.setOrNot
  exact ⟨RcRegion.noConfusion, fun _ => hset, .inl hset⟩

/-! ## Updates -/

/-- What `aimd_change_bitrate` returns, once a start bitrate is set. -/
structure Changes (aimd : AimdRateController 𝕜) (input : BwState)
    (r : Nat × AimdRateController 𝕜) : Prop where
  sameRates : SameRates aimd r.2
  clamped : ∃ newBitrate comingRate, r.1 = aimd.clampBitrate newBitrate comingRate ∧
    (input = .kBwOverusing → newBitrate ≤ aimd.currRate)
  state : r.2.state ≠ .kRcDecrease
  inited : r.2.inited ≠ -1
  region : RegionInv aimd → RegionInv r.2

theorem changeBitrate_changes (hinit : aimd.inited ≠ -1) (math : AimdMath 𝕜)
    (input : RateControlInput) (curTs : Int) :
    Changes aimd input.state (aimd.changeBitrate math aimd.currRate input curTs) := by
  have hguard : ¬ (aimd.inited = -1 ∧ input.state = .kBwOverusing) := fun h => hinit h.1
  have hsame := changeState_sameRates aimd input.state curTs
  have hinit' : (aimd.changeState input.state curTs).inited ≠ -1 := by
    rwa [inited_changeState]
  -- an over-use turns to a decrease, whatever the state was
  have hover : input.state = .kBwOverusing →
      (aimd.changeState input.state curTs).state = .kRcDecrease := by
    intro h
    rw [h]
    rfl
  unfold changeBitrate
  simp only [if_neg hguard]
  cases hstate : (aimd.changeState input.state curTs).state with
  | kRcHold =>
      refine ⟨hsame, ⟨_, _, clampBitrate_congr hsame _ _, fun _ => le_refl _⟩, ?_, hinit',
        fun h => h.changeState _ _⟩
      rw [hstate]
      exact RcState.noConfusion
  | kRcIncrease =>
      have hkeep := fun incoming maxRate =>
        hsame.trans (increase_sameRates math aimd.currRate incoming maxRate curTs)
      refine ⟨hkeep _ _, ⟨_, _, clampBitrate_congr (hkeep _ _) _ _, ?_⟩, ?_, ?_,
        fun h => (h.changeState _ _).increase math aimd.currRate _ _ curTs⟩
      · intro h
        rw [hover h] at hstate
        exact RcState.noConfusion hstate
      · rw [state_increase, hstate]
        exact RcState.noConfusion
      · rwa [inited_increase]
  | kRcDecrease =>
      have hle := decreasedBitrate_le math (aimd.changeState input.state curTs)
        (if input.incomingBitrate = 0 then aimd.currRate else input.incomingBitrate)
      rw [hsame.currRate] at hle
      have hkeep := fun bitrate incoming maxRate =>
        hsame.trans (decrease_sameRates math bitrate incoming maxRate curTs)
      refine ⟨hkeep _ _ _, ⟨_, _, clampBitrate_congr (hkeep _ _ _) _ _, fun _ => hle⟩,
        RcState.noConfusion, (show (0 : Int) ≠ -1 by decide),
        fun h => (h.changeState _ _).decrease _ ?_ _ _⟩
      positivity

theorem Inv.update (h : Inv minRate maxRate aimd) (math : AimdMath 𝕜)
    (input : RateControlInput) (curTs : Int) :
    Inv minRate maxRate (aimd.update math input curTs) ∧
      (input.state = .kBwOverusing → (aimd.update math input curTs).currRate ≤ aimd.currRate) ∧
      (aimd.update math input curTs).state ≠ .kRcDecrease := by
  have hchange := changeBitrate_changes h.inited math input curTs
  obtain ⟨newBitrate, comingRate, hclamp, hover⟩ := hchange.clamped
  have hle : aimd.minRate ≤ aimd.maxRate := by
    rw [h.minRate, h.maxRate]
    exact h.lower.trans h.upper
  have hbounds := clampBitrate_bounds hle newBitrate comingRate
  rw [← hclamp, h.minRate, h.maxRate] at hbounds
  unfold AimdRateController.update
  simp only [takeFirstEstimate_eq h.inited]
  refine ⟨⟨?_, ?_, hbounds.1, hbounds.2, hchange.inited, ?_⟩, ?_, hchange.state⟩
  · exact hchange.sameRates.minRate.trans h.minRate
  · exact hchange.sameRates.maxRate.trans h.maxRate
  · exact (hchange.region h.region).congr rfl rfl
  · intro hstate
    show (aimd.changeBitrate math aimd.currRate input curTs).1 ≤ aimd.currRate
    rw [hclamp]
    exact clampBitrate_le (h.minRate ▸ h.lower) (hover hstate) comingRate

/-! ## Runs -/

/-- The calls of a run. -/
inductive Call (𝕜 : Type*) where
  | update (math : AimdMath 𝕜) (input : RateControlInput) (curTs : Int)
  | setEstimate (bitrate curTs : Int)

def perform (aimd : AimdRateController 𝕜) : Call 𝕜 → AimdRateController 𝕜
  | .update math input curTs => aimd.update math input curTs
  | .setEstimate bitrate curTs => aimd.setEstimate bitrate curTs

/-- What a call promises. -/
structure Safe (minRate maxRate : Nat) (aimd : AimdRateController 𝕜) (call : Call 𝕜)
    (aimd' : AimdRateController 𝕜) : Prop where
  bounds : minRate ≤ aimd'.currRate ∧ aimd'.currRate ≤ maxRate
  overusing : ∀ math input curTs, call = .update math input curTs →
    input.state = .kBwOverusing → aimd'.currRate ≤ aimd.currRate
  state : ∀ math input curTs, call = .update math input curTs →
    aimd'.state = .kRcHold ∨ aimd'.state = .kRcIncrease
  averageSet : aimd'.region ≠ .kRcMaxUnknown → 0 ≤ aimd'.avgMaxBitrateKbps

theorem Inv.perform (h : Inv minRate maxRate aimd) (call : Call 𝕜) :
    Inv minRate maxRate (aimd.perform call) ∧
      Safe minRate maxRate aimd call (aimd.perform call) := by
  cases call with
  | update math input curTs =>
      obtain ⟨hkeep, hover, hstate⟩ := h.update math input curTs
      refine ⟨hkeep, ⟨hkeep.lower, hkeep.upper⟩, ?_, ?_, hkeep.averageSet⟩
      · intro math' input' curTs' heq
        cases heq
        exact hover
      · intro math' input' curTs' _
        cases hcase : (aimd.update math input curTs).state with
        | kRcHold => exact .inl hcase
        | kRcIncrease => exact .inr hcase
        | kRcDecrease => exact absurd hcase hstate
  | setEstimate bitrate curTs =>
      have hkeep := h.setEstimate bitrate curTs
      refine ⟨hkeep, ⟨hkeep.lower, hkeep.upper⟩, ?_, ?_, hkeep.averageSet⟩
      · intro math input curTs' heq
        cases heq
      · intro math input curTs' heq
        cases heq

/-- **The rate control is safe**: in every run of a controller with a start bitrate
between its limits, the rate stays between them, over-use never raises it, an update
ends in hold or increase, and the average of the maximum is set whenever a rate is
computed from it. -/
theorem always_safe (𝕜 : Type*) [Field 𝕜] [LinearOrder 𝕜] [IsStrictOrderedRing 𝕜]
    {minRate start maxRate : Nat} (hmin : minRate ≤ start) (hmax : start ≤ maxRate) :
    Always (fun (aimd : AimdRateController 𝕜) call aimd' => aimd' = aimd.perform call)
      (Safe minRate maxRate) ((create maxRate minRate).setStartBitrate start) := by
  refine Always.of_invariant (Inv.start hmin hmax) fun aimd call aimd' h hstep => ?_
  obtain rfl := hstep
  exact h.perform call

theorem always_safe_kbps :
    Always (fun (aimd : AimdRateController ℚ) call aimd' => aimd' = aimd.perform call)
      (Safe 64000 12800000) ((create 12800000 64000).setStartBitrate 300000) :=
  always_safe ℚ (by decide) (by decide)

end AimdRateController

end Razor
