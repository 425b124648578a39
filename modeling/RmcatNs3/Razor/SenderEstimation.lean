import Mathlib.Order.Lattice
import RmcatNs3.Lib.MachineInt

/-!
# The bandwidth estimator of the sender

`razor/estimator/sender_bandwidth_estimator.{c,h}`. The five places that compute
with `double` or `float` are functions of a `LossFloats`, of which nothing is
assumed; a conversion of their result to `uint32_t` is part of them. The two
fields that nothing reads, and the log lines, are left out.
-/

namespace Razor

open MachineInt

def kMaxBitrateBps : Nat := 1000000000
def kBweIncreaseIntervalMs : Int := 1000
def kLimitNumPackets : Int := 20
def kStartPhaseMs : Int := 2000
def kFeelbackIntervalMs : Int := 5000
def kFeelbackTimeoutIntervals : Int := 3
def kTimeoutIntervalMs : Int := 1000
def kBweDecreaseIntervalMs : Int := 300
def minHistoryArrSize : Nat := 128

/-- What `sender_estimation_update` computes in floating point. -/
structure LossFloats where
  /-- `time_since_packet_report_ms * 1.2 < k_feelback_interval_ms`. -/
  reportIsFresh : Int → Bool
  /-- `loss < low_loss_threshold`, of `last_fraction_loss`. -/
  lossIsLow : Nat → Bool
  /-- `loss < high_loss_threshold`, of `last_fraction_loss`. -/
  lossIsMedium : Nat → Bool
  /-- `min_bitrates[pos].bitrate * 1.08 + 0.5 + 1000`. -/
  increased : Nat → Nat
  /-- `curr_bitrate * (512 - last_fraction_loss) / 512.0f`. -/
  decreased : Nat → Nat → Nat

/-- What they compute in exact arithmetic. -/
def LossFloats.exact : LossFloats where
  reportIsFresh ms := ms * 12 < kFeelbackIntervalMs * 10
  lossIsLow loss := loss * 100 < 2 * 256
  lossIsMedium loss := loss * 10 < 256
  increased bitrate := (bitrate * 108 + 50) / 100 + 1000
  decreased bitrate loss := bitrate * (512 - loss) / 512

/-- `min_bitrate_t`. -/
structure MinBitrate where
  ts : Int
  bitrate : Nat
  deriving DecidableEq, Repr

/-- `sender_estimation_t`. -/
structure SenderEstimation where
  currBitrate : Nat
  minConfBitrate : Nat
  maxConfBitrate : Nat
  lastFeelbackTs : Int
  lastPacketReportTs : Int
  lastTimeoutTs : Int
  lastRtt : Nat
  lastFractionLoss : Nat
  hasDecreasedSinceLastFractionLoss : Int
  bweIncoming : Nat
  delayBaseBitrate : Nat
  lastDecreaseTs : Int
  firstReportTs : Int
  lostPacketsSinceLastLossUpdateQ8 : Int
  expectedPacketsSinceLastLossUpdate : Int
  bitrateThreshold : Nat
  beginIndex : Nat
  endIndex : Nat
  minBitrates : Vector MinBitrate minHistoryArrSize

namespace SenderEstimation

/-- `sender_estimation_create`. -/
def create (minBitrate maxBitrate : Nat) : SenderEstimation where
  currBitrate := 0
  minConfBitrate := minBitrate
  maxConfBitrate := maxBitrate
  lastFeelbackTs := -1
  lastPacketReportTs := -1
  lastTimeoutTs := -1
  lastRtt := 0
  lastFractionLoss := 0
  hasDecreasedSinceLastFractionLoss := -1
  bweIncoming := 0
  delayBaseBitrate := 0
  lastDecreaseTs := 0
  firstReportTs := -1
  lostPacketsSinceLastLossUpdateQ8 := 0
  expectedPacketsSinceLastLossUpdate := 0
  bitrateThreshold := 0
  beginIndex := 0
  endIndex := 0
  minBitrates := .replicate _ ⟨0, 0⟩

/-- `sender_estimation_set_minmax_bitrate`. -/
def setMinmaxBitrate (est : SenderEstimation) (minBitrate maxBitrate : Nat) :
    SenderEstimation :=
  let minConfBitrate := max est.minConfBitrate minBitrate
  { est with
    minConfBitrate
    maxConfBitrate := if maxBitrate > 0 then max minConfBitrate maxBitrate else kMaxBitrateBps }

/-- `cap_bitrate_to_threshold`. -/
def capBitrateToThreshold (est : SenderEstimation) (bitrate : Nat) : SenderEstimation :=
  let bitrate :=
    if est.bweIncoming > 0 ∧ bitrate > est.bweIncoming then est.bweIncoming else bitrate
  let bitrate :=
    if est.delayBaseBitrate > 0 ∧ bitrate > est.delayBaseBitrate then est.delayBaseBitrate
    else bitrate
  let bitrate := if bitrate > est.maxConfBitrate then est.maxConfBitrate else bitrate
  let bitrate := if bitrate < est.minConfBitrate then est.minConfBitrate else bitrate
  { est with currBitrate := bitrate }

/-- `sender_estimation_set_send_bitrate`. -/
def setSendBitrate (est : SenderEstimation) (sendBitrate : Nat) : SenderEstimation :=
  { est.capBitrateToThreshold sendBitrate with endIndex := 0, beginIndex := 0 }

/-- `sender_estimation_set_bitrates`. -/
def setBitrates (est : SenderEstimation) (sendBitrate minBitrate maxBitrate : Nat) :
    SenderEstimation :=
  (est.setMinmaxBitrate minBitrate maxBitrate).setSendBitrate sendBitrate

/-- `sender_estimation_update_remb`. -/
def updateRemb (est : SenderEstimation) (bitrate : Nat) : SenderEstimation :=
  { est with bweIncoming := bitrate }.capBitrateToThreshold est.currBitrate

/-- `sender_estimation_update_delay_base`. -/
def updateDelayBase (est : SenderEstimation) (bitrate : Nat) : SenderEstimation :=
  { est with delayBaseBitrate := bitrate }.capBitrateToThreshold est.currBitrate

/-- `sender_estimation_is_start_phare`; `0` if it is. -/
def isStartPhare (est : SenderEstimation) (curTs : Int) : Int :=
  if est.firstReportTs = -1 ∨ curTs < est.firstReportTs + kStartPhaseMs then 0 else -1

/-! ## The history of the last second -/

/-- The place of an index in `min_bitrates`. -/
def pos (i : Nat) : Fin minHistoryArrSize := ⟨i % minHistoryArrSize, Nat.mod_lt _ (by decide)⟩

/-- The record at an index. -/
def record (est : SenderEstimation) (i : Nat) : MinBitrate := est.minBitrates.get (pos i)

def setRecord (est : SenderEstimation) (i : Nat) (r : MinBitrate) : SenderEstimation :=
  { est with minBitrates := est.minBitrates.set (pos i) r (pos i).isLt }

/-- The first loop of `sender_estimation_update_history`, with `n` records left
from index `i` on. -/
def dropOld (curTs : Int) : Nat → Nat → SenderEstimation → SenderEstimation
  | 0, _, est => est
  | n + 1, i, est =>
      if (est.record i).ts + kBweIncreaseIntervalMs < curTs then
        dropOld curTs n (i + 1) ({ est with beginIndex := i + 1 }.setRecord i ⟨0, 0⟩)
      else est

/-- The second loop, with `n` records left before `end_index`. -/
def dropHigher : Nat → SenderEstimation → SenderEstimation
  | 0, est => est
  | n + 1, est =>
      if (est.record (est.endIndex - 1)).bitrate ≥ est.currBitrate then
        dropHigher n
          ({ est with endIndex := est.endIndex - 1 }.setRecord (est.endIndex - 1) ⟨0, 0⟩)
      else est

/-- `sender_estimation_update_history`. -/
def updateHistory (est : SenderEstimation) (curTs : Int) : SenderEstimation :=
  let est := dropOld curTs (est.endIndex - est.beginIndex) est.beginIndex est
  let est := dropHigher (est.endIndex - est.beginIndex) est
  let est :=
    if est.endIndex = est.beginIndex then { est with endIndex := 0, beginIndex := 0 } else est
  let p := est.endIndex
  let est :=
    if est.endIndex = toUnsigned 32 (est.beginIndex + minHistoryArrSize) then
      { est with beginIndex := toUnsigned 32 (est.beginIndex + 1) }
    else est
  { est with endIndex := toUnsigned 32 (est.endIndex + 1) }.setRecord p
    ⟨curTs, est.currBitrate⟩

/-! ## The update -/

/-- The bitrate that the loss asks for, while the last report is fresh. -/
def onFreshReport (fl : LossFloats) (est : SenderEstimation) (curTs : Int)
    (newBitrate : Nat) : SenderEstimation × Nat :=
  if est.currBitrate < est.bitrateThreshold ∨ fl.lossIsLow est.lastFractionLoss then
    (est, fl.increased (est.record est.beginIndex).bitrate)
  else if est.currBitrate > est.bitrateThreshold then
    if fl.lossIsMedium est.lastFractionLoss then (est, newBitrate)
    else if est.hasDecreasedSinceLastFractionLoss = -1 ∧
        curTs ≥ est.lastDecreaseTs + kBweDecreaseIntervalMs + est.lastRtt then
      ({ est with lastDecreaseTs := curTs, hasDecreasedSinceLastFractionLoss := 0 },
        fl.decreased est.currBitrate est.lastFractionLoss)
    else (est, newBitrate)
  else (est, newBitrate)

/-- The bitrate that the times of the last reports ask for. -/
def onReportTimes (fl : LossFloats) (est : SenderEstimation) (curTs : Int)
    (newBitrate : Nat) : SenderEstimation × Nat :=
  if fl.reportIsFresh (curTs - est.lastPacketReportTs) then
    est.onFreshReport fl curTs newBitrate
  else if curTs - est.lastFeelbackTs > kFeelbackTimeoutIntervals * kFeelbackIntervalMs ∧
      (est.lastTimeoutTs = -1 ∨ curTs > est.lastTimeoutTs + kTimeoutIntervalMs) then
    ({ est with
      lostPacketsSinceLastLossUpdateQ8 := 0
      expectedPacketsSinceLastLossUpdate := 0
      lastTimeoutTs := curTs }, toUnsigned 32 (newBitrate * 4) / 5)
  else (est, newBitrate)

/-- `sender_estimation_update`, after the start phase. -/
def updateSteady (fl : LossFloats) (est : SenderEstimation) (curTs : Int)
    (newBitrate : Nat) : SenderEstimation :=
  let est := est.updateHistory curTs
  if est.lastPacketReportTs = -1 then est.capBitrateToThreshold est.currBitrate
  else
    let (est, newBitrate) := est.onReportTimes fl curTs newBitrate
    est.capBitrateToThreshold newBitrate

/-- `sender_estimation_update`. -/
def update (fl : LossFloats) (est : SenderEstimation) (curTs : Int) : SenderEstimation :=
  if est.lastFractionLoss = 0 ∧ est.isStartPhare curTs = 0 then
    let newBitrate := max est.delayBaseBitrate (max est.bweIncoming est.currBitrate)
    if newBitrate ≠ est.currBitrate then
      ({ est with beginIndex := 0, endIndex := 1 }.setRecord 0
        ⟨curTs, est.currBitrate⟩).capBitrateToThreshold newBitrate
    else est.updateSteady fl curTs newBitrate
  else est.updateSteady fl curTs est.currBitrate

/-- `sender_estimation_update_block`. -/
def updateBlock (fl : LossFloats) (est : SenderEstimation) (fractionLoss rtt : Nat)
    (numberOfPackets curTs : Int) : SenderEstimation :=
  let est :=
    { est with
      lastFeelbackTs := curTs
      firstReportTs := if est.firstReportTs = -1 then curTs else est.firstReportTs
      lastRtt := if rtt > 0 then rtt else est.lastRtt }
  if numberOfPackets > 0 then
    let lostPacketsQ8 := toSigned 32 (fractionLoss * numberOfPackets)
    let lost := toSigned 32 (est.lostPacketsSinceLastLossUpdateQ8 + lostPacketsQ8)
    let expected := toSigned 32 (est.expectedPacketsSinceLastLossUpdate + numberOfPackets)
    let est :=
      { est with
        lostPacketsSinceLastLossUpdateQ8 := lost
        expectedPacketsSinceLastLossUpdate := expected }
    if expected < kLimitNumPackets then est
    else
      { est with
        hasDecreasedSinceLastFractionLoss := -1
        lastFractionLoss := toUnsigned 8 (lost.tdiv expected)
        lostPacketsSinceLastLossUpdateQ8 := 0
        expectedPacketsSinceLastLossUpdate := 0
        lastPacketReportTs := curTs }.update fl curTs
  else est

variable {est : SenderEstimation} {fl : LossFloats}

/-- What `sender_estimation_update_block` stores before an update, and whether there is
one. -/
def beginBlock (est : SenderEstimation) (fractionLoss rtt : Nat) (numberOfPackets curTs : Int) :
    SenderEstimation × Bool :=
  let est :=
    { est with
      lastFeelbackTs := curTs
      firstReportTs := if est.firstReportTs = -1 then curTs else est.firstReportTs
      lastRtt := if rtt > 0 then rtt else est.lastRtt }
  let lost := toSigned 32 (est.lostPacketsSinceLastLossUpdateQ8
    + toSigned 32 (fractionLoss * numberOfPackets))
  let expected := toSigned 32 (est.expectedPacketsSinceLastLossUpdate + numberOfPackets)
  if numberOfPackets ≤ 0 then (est, false)
  else if expected < kLimitNumPackets then
    ({ est with
      lostPacketsSinceLastLossUpdateQ8 := lost
      expectedPacketsSinceLastLossUpdate := expected }, false)
  else
    ({ est with
      hasDecreasedSinceLastFractionLoss := -1
      lastFractionLoss := toUnsigned 8 (lost.tdiv expected)
      lostPacketsSinceLastLossUpdateQ8 := 0
      expectedPacketsSinceLastLossUpdate := 0
      lastPacketReportTs := curTs }, true)

/-- A block is stored, and an update may follow. -/
theorem updateBlock_eq (fractionLoss rtt : Nat) (numberOfPackets curTs : Int) :
    est.updateBlock fl fractionLoss rtt numberOfPackets curTs =
      if (est.beginBlock fractionLoss rtt numberOfPackets curTs).2 then
        (est.beginBlock fractionLoss rtt numberOfPackets curTs).1.update fl curTs
      else (est.beginBlock fractionLoss rtt numberOfPackets curTs).1 := by
  by_cases hnone : numberOfPackets ≤ 0
  · have hsome : ¬numberOfPackets > 0 := Int.not_lt.mpr hnone
    simp only [updateBlock, beginBlock, if_pos hnone, if_neg hsome, Bool.false_eq_true, if_false]
  · have hsome : numberOfPackets > 0 := Int.not_le.mp hnone
    simp only [updateBlock, beginBlock, if_neg hnone, if_pos hsome]
    split <;> simp

/-- Without an update only the round trip time is new of what is notified. -/
theorem beginBlock_stored {fractionLoss rtt : Nat} {numberOfPackets curTs : Int}
    (h : ¬(est.beginBlock fractionLoss rtt numberOfPackets curTs).2) :
    (est.beginBlock fractionLoss rtt numberOfPackets curTs).1.currBitrate = est.currBitrate ∧
      (est.beginBlock fractionLoss rtt numberOfPackets curTs).1.lastFractionLoss
        = est.lastFractionLoss ∧
      (est.beginBlock fractionLoss rtt numberOfPackets curTs).1.lastRtt
        = if rtt > 0 then rtt else est.lastRtt := by
  unfold beginBlock at h ⊢
  simp only at h ⊢
  by_cases hnone : numberOfPackets ≤ 0
  · rw [if_pos hnone]
    exact ⟨rfl, rfl, rfl⟩
  · rw [if_neg hnone] at h ⊢
    split at h
    · rename_i hfew
      rw [if_pos hfew]
      exact ⟨rfl, rfl, rfl⟩
    · exact absurd rfl h

/-! ## The configured limits -/

/-- The smallest and the highest bitrate that are configured. -/
def limits (est : SenderEstimation) : Nat × Nat := (est.minConfBitrate, est.maxConfBitrate)

@[simp] theorem limits_capBitrateToThreshold (bitrate : Nat) :
    (est.capBitrateToThreshold bitrate).limits = est.limits := rfl

@[simp] theorem limits_setRecord (i : Nat) (r : MinBitrate) :
    (est.setRecord i r).limits = est.limits := rfl

@[simp] theorem limits_dropOld (curTs : Int) (n i : Nat) :
    (dropOld curTs n i est).limits = est.limits := by
  induction n generalizing i est with
  | zero => rfl
  | succ n ih =>
      unfold dropOld
      split
      · rw [ih, limits_setRecord]
        rfl
      · rfl

@[simp] theorem limits_dropHigher (n : Nat) : (dropHigher n est).limits = est.limits := by
  induction n generalizing est with
  | zero => rfl
  | succ n ih =>
      unfold dropHigher
      split
      · rw [ih, limits_setRecord]
        rfl
      · rfl

@[simp] theorem limits_updateHistory (curTs : Int) :
    (est.updateHistory curTs).limits = est.limits := by
  have hdropped : (dropHigher (endIndex (dropOld curTs (est.endIndex - est.beginIndex)
        est.beginIndex est) - beginIndex (dropOld curTs (est.endIndex - est.beginIndex)
        est.beginIndex est)) (dropOld curTs (est.endIndex - est.beginIndex)
        est.beginIndex est)).limits = est.limits := by
    rw [limits_dropHigher, limits_dropOld]
  unfold updateHistory
  simp only [limits_setRecord]
  split_ifs <;> exact hdropped

theorem limits_onFreshReport (curTs : Int) (newBitrate : Nat) :
    (est.onFreshReport fl curTs newBitrate).1.limits = est.limits := by
  unfold onFreshReport
  split_ifs <;> rfl

theorem limits_onReportTimes (curTs : Int) (newBitrate : Nat) :
    (est.onReportTimes fl curTs newBitrate).1.limits = est.limits := by
  unfold onReportTimes
  split_ifs
  · exact limits_onFreshReport curTs newBitrate
  · rfl
  · rfl

@[simp] theorem limits_updateSteady (curTs : Int) (newBitrate : Nat) :
    (est.updateSteady fl curTs newBitrate).limits = est.limits := by
  unfold updateSteady
  simp only
  split
  · rw [limits_capBitrateToThreshold, limits_updateHistory]
  · rw [limits_capBitrateToThreshold, limits_onReportTimes, limits_updateHistory]

/-- An update keeps the configured limits. -/
@[simp] theorem limits_update (curTs : Int) : (est.update fl curTs).limits = est.limits := by
  unfold update
  simp only
  split_ifs
  · rw [limits_capBitrateToThreshold, limits_setRecord]
    rfl
  · rw [limits_updateSteady]
  · rw [limits_updateSteady]

theorem limits_beginBlock (fractionLoss rtt : Nat) (numberOfPackets curTs : Int) :
    (est.beginBlock fractionLoss rtt numberOfPackets curTs).1.limits = est.limits := by
  unfold beginBlock
  simp only
  by_cases hnone : numberOfPackets ≤ 0
  · rw [if_pos hnone]
    rfl
  · rw [if_neg hnone]
    split <;> rfl

@[simp] theorem limits_updateBlock (fractionLoss rtt : Nat) (numberOfPackets curTs : Int) :
    (est.updateBlock fl fractionLoss rtt numberOfPackets curTs).limits = est.limits := by
  rw [updateBlock_eq]
  split
  · rw [limits_update, limits_beginBlock]
  · rw [limits_beginBlock]

/-- What is capped is between the limits. -/
theorem cap_bounds (est : SenderEstimation) (bitrate : Nat) :
    est.minConfBitrate ≤ (est.capBitrateToThreshold bitrate).currBitrate ∧
      (est.capBitrateToThreshold bitrate).currBitrate
        ≤ max est.minConfBitrate est.maxConfBitrate := by
  unfold capBitrateToThreshold
  simp only
  split_ifs <;> omega

/-- An update ends with a cap. -/
theorem update_bounds (curTs : Int) :
    est.minConfBitrate ≤ (est.update fl curTs).currBitrate ∧
      (est.update fl curTs).currBitrate ≤ max est.minConfBitrate est.maxConfBitrate := by
  have hsteady : ∀ newBitrate,
      est.minConfBitrate ≤ (est.updateSteady fl curTs newBitrate).currBitrate ∧
      (est.updateSteady fl curTs newBitrate).currBitrate
        ≤ max est.minConfBitrate est.maxConfBitrate := by
    intro newBitrate
    have hlimits := @limits_updateSteady est fl curTs newBitrate
    obtain ⟨hmin, hmax⟩ := Prod.mk.inj hlimits
    rw [← hmin, ← hmax]
    unfold updateSteady
    simp only
    split <;> exact cap_bounds _ _
  unfold update
  simp only
  split_ifs
  · exact cap_bounds _ _
  · exact hsteady _
  · exact hsteady _

end SenderEstimation

end Razor
