import RmcatNs3.Razor.AimdRateControl
import RmcatNs3.Razor.InterArrival
import RmcatNs3.Razor.OveruseDetector
import RmcatNs3.Razor.SenderController
import RmcatNs3.Razor.SenderHistory
import RmcatNs3.Razor.Trendline

/-!
# The estimator of the bandwidth from the delay

`razor/estimator/delay_base_bwe.{c,h}`: the packets of a feedback are grouped, the delays of the
groups give the trend, and what the detector says of the trend moves the rate. The fields that
hold the three constants of the trend and the expected period, which only the probes ask for, are
left out. A result is `none` where a pointer that is not set would be followed.
-/

namespace Razor

open MachineInt

def kTrendlineWindowSize : Nat := 20
def kGroupTime : BitVec 32 := 5
def kMaxFailedCount : Int := 5
def kBweMinBitrate : Nat := 64000
def kBweMaxBitrate : Nat := 12800000
def kTimestampMs : Int := 2000

/-- `delay_base_bwe_t`. -/
structure DelayBaseBwe (𝕜 : Type*) where
  interArrival : Option InterArrival
  rateControl : AimdRateController 𝕜
  trendlineEstimator : Option (TrendlineEstimator 𝕜 kTrendlineWindowSize)
  detector : OveruseDetector 𝕜
  lastSeenMs : Int
  firstTs : Int
  consecutiveDelayedFeedbacks : Int

/-- `init_bwe_result_null`. -/
def BweResult.null : BweResult := ⟨-1, -1, 0, -1⟩

namespace DelayBaseBwe

/-- What `malloc` returns for the queue of a trend. -/
abbrev Block (𝕜 : Type*) := Vector (DelayHist 𝕜) kTrendlineWindowSize

/-- The variables of the loop of `delay_bwe_incoming`. -/
structure Scan (𝕜 : Type*) where
  bwe : DelayBaseBwe 𝕜
  delayedFeedback : Int
  recoveredFromOveruse : Int
  prevState : BwState

variable {𝕜 : Type*} [Field 𝕜]

def kTrendlineSmoothingCoeff : 𝕜 := (9 : Nat) / (10 : Nat)
def kTrendlineThresholdGain : 𝕜 := (4 : Nat)

/-- `delay_bwe_create`. -/
def create (sysMs : Int) : DelayBaseBwe 𝕜 where
  interArrival := none
  rateControl := .create kBweMaxBitrate kBweMinBitrate
  trendlineEstimator := none
  detector := .create
  lastSeenMs := -1
  firstTs := sysMs
  consecutiveDelayedFeedbacks := 0

/-- `delay_bwe_reset`. -/
def reset (bwe : DelayBaseBwe 𝕜) (block : Block 𝕜) : DelayBaseBwe 𝕜 :=
  { bwe with
    interArrival := some (.create 0 kGroupTime)
    trendlineEstimator :=
      some (.create kTrendlineSmoothingCoeff kTrendlineThresholdGain block) }

/-- The packet that `delay_bwe_process` passes to the grouping. -/
def arrived (bwe : DelayBaseBwe 𝕜) (packet : PacketFeedback) (nowTs : Int) : ArrivedPacket where
  timestamp := BitVec.ofInt 32 (packet.sendTs - bwe.firstTs)
  arrivalTs := packet.arrivalTs
  systemTs := nowTs
  size := packet.payloadSize

/-- The input of the trend for two groups. -/
def trendInput (deltas : Deltas) (arrivalTs : Int) : TrendInput 𝕜 :=
  ⟨deltas.arrivalDelta, deltas.timestampDelta.toNat, arrivalTs⟩

/-- The input of the detector. -/
def detectInput (est : TrendlineEstimator 𝕜 kTrendlineWindowSize) (deltas : Deltas)
    (arrivalTs : Int) : DetectInput 𝕜 :=
  ⟨est.slope, deltas.timestampDelta.toNat, toSigned 32 est.numOfDeltas, arrivalTs⟩

variable [LinearOrder 𝕜]

/-- The end of `delay_bwe_process`, with the estimators that are there. -/
def measure (bwe : DelayBaseBwe 𝕜) (arr : InterArrival)
    (est : TrendlineEstimator 𝕜 kTrendlineWindowSize) (packet : PacketFeedback) (nowTs : Int) :
    DelayBaseBwe 𝕜 :=
  let outcome := arr.computeDeltas (bwe.arrived packet nowTs)
  let bwe := { bwe with interArrival := some outcome.arr }
  match outcome.deltas with
  | none => bwe
  | some deltas =>
      let est := est.update (trendInput deltas packet.arrivalTs)
      { bwe with
        trendlineEstimator := some est
        detector := bwe.detector.detect (detectInput est deltas packet.arrivalTs) }

/-- `delay_bwe_process`. -/
def process (bwe : DelayBaseBwe 𝕜) (block : Block 𝕜) (packet : PacketFeedback) (nowTs : Int) :
    Option (DelayBaseBwe 𝕜) :=
  let bwe :=
    if bwe.lastSeenMs = -1 ∨ nowTs > bwe.lastSeenMs + kTimestampMs then bwe.reset block else bwe
  let bwe := { bwe with lastSeenMs := nowTs }
  match bwe.interArrival, bwe.trendlineEstimator with
  | some arr, some est => some (bwe.measure arr est packet nowTs)
  | _, _ => none

/-- `delay_bwe_long_feedback_delay`. -/
def longFeedbackDelay (bwe : DelayBaseBwe 𝕜) (arrivalTs : Int) : BweResult × DelayBaseBwe 𝕜 :=
  let bwe := { bwe with
    rateControl := bwe.rateControl.setEstimate
      (toUnsigned 32 (bwe.rateControl.currRate * 1) / 2 : Nat) arrivalTs }
  (⟨0, -1, bwe.rateControl.currRate, -1⟩, bwe)

/-- `delay_bwe_upate`: what it returns, and the bitrate that it stores. -/
def upate (math : AimdMath 𝕜) (bwe : DelayBaseBwe 𝕜) (nowTs : Int) (ackedBitrate : Nat)
    (overusing : Int) : Int × Nat × DelayBaseBwe 𝕜 :=
  let state := if overusing = 0 then .kBwOverusing else bwe.detector.state
  let prevBitrate := bwe.rateControl.currRate
  let rateControl := bwe.rateControl.update math ⟨state, ackedBitrate⟩ nowTs
  (if rateControl.inited = 0 ∧ prevBitrate ≠ rateControl.currRate then 0 else -1,
    rateControl.currRate, { bwe with rateControl })

/-- Three quarters of the rate, in 32 bits. -/
def reduced (bwe : DelayBaseBwe 𝕜) : Nat := toUnsigned 32 (bwe.rateControl.currRate * 3) / 4

/-- `delay_bwe_maybe_update`. -/
def maybeUpdate (math : AimdMath 𝕜) (bwe : DelayBaseBwe 𝕜) (overusing : Int)
    (ackedBitrate : Nat) (recoveredFromOveruse nowTs : Int) : BweResult × DelayBaseBwe 𝕜 :=
  if overusing = 0 then
    if ackedBitrate > 0 ∧ bwe.rateControl.timeReduceFurther nowTs ackedBitrate = 0 then
      let (updated, bitrate, bwe) := bwe.upate math nowTs ackedBitrate overusing
      (⟨updated, -1, bitrate, -1⟩, bwe)
    else if ackedBitrate = 0 ∧ bwe.rateControl.inited = 0 ∧
        bwe.rateControl.timeReduceFurther nowTs (toUnsigned 32 (bwe.reduced - 1)) = 0 then
      let bwe := { bwe with rateControl := bwe.rateControl.setEstimate bwe.reduced nowTs }
      (⟨0, -1, bwe.rateControl.currRate, -1⟩, bwe)
    else (.null, bwe)
  else
    let (updated, bitrate, bwe) := bwe.upate math nowTs ackedBitrate overusing
    (⟨updated, -1, bitrate, recoveredFromOveruse⟩, bwe)

/-- One packet of the loop of `delay_bwe_incoming`. -/
def Scan.take (scan : Scan 𝕜) (block : Block 𝕜) (nowTs : Int) (packet : PacketFeedback) :
    Option (Scan 𝕜) :=
  if packet.sendTs < scan.bwe.firstTs then some scan
  else do
    let bwe ← scan.bwe.process block packet nowTs
    let recoveredFromOveruse :=
      if scan.prevState = .kBwUnderusing ∧ bwe.detector.state = .kBwNormal then 0
      else scan.recoveredFromOveruse
    some ⟨bwe, -1, recoveredFromOveruse, bwe.detector.state⟩

/-- The end of `delay_bwe_incoming`, with the arrival of the last packet. -/
def Scan.finish (math : AimdMath 𝕜) (scan : Scan 𝕜) (arrivalTs : Int) (ackedBitrate : Nat)
    (nowTs : Int) : BweResult × DelayBaseBwe 𝕜 :=
  let overusing : Int := if scan.bwe.detector.state = .kBwOverusing then 0 else -1
  if scan.delayedFeedback = 0 then
    let bwe := { scan.bwe with
      consecutiveDelayedFeedbacks := toSigned 32 (scan.bwe.consecutiveDelayedFeedbacks + 1) }
    if bwe.consecutiveDelayedFeedbacks > kMaxFailedCount then bwe.longFeedbackDelay arrivalTs
    else (.null, bwe)
  else
    { scan.bwe with consecutiveDelayedFeedbacks := 0 }.maybeUpdate math overusing ackedBitrate
      scan.recoveredFromOveruse nowTs

/-- `delay_bwe_incoming`. -/
def incoming (math : AimdMath 𝕜) (block : Block 𝕜) (bwe : DelayBaseBwe 𝕜)
    (packets : List PacketFeedback) (ackedBitrate : Nat) (nowTs : Int) :
    Option (BweResult × DelayBaseBwe 𝕜) :=
  match packets.getLast? with
  | none => some (.null, bwe)
  | some last => do
      let scan ← packets.foldlM (fun (scan : Scan 𝕜) packet => scan.take block nowTs packet)
        ⟨bwe, 0, -1, bwe.detector.state⟩
      some (scan.finish math last.arrivalTs ackedBitrate nowTs)

/-- `delay_bwe_rtt_update`. -/
def rttUpdate (bwe : DelayBaseBwe 𝕜) (rtt : Nat) : DelayBaseBwe 𝕜 :=
  { bwe with rateControl := { bwe.rateControl with rtt } }

/-- `delay_bwe_last_estimate`; there is none if it returns `-1`. -/
def lastEstimate (bwe : DelayBaseBwe 𝕜) : Option Nat :=
  if bwe.rateControl.inited = -1 then none else some bwe.rateControl.currRate

/-- `delay_bwe_set_start_bitrate`. -/
def setStartBitrate (bwe : DelayBaseBwe 𝕜) (bitrate : Nat) : DelayBaseBwe 𝕜 :=
  { bwe with rateControl := bwe.rateControl.setStartBitrate bitrate }

/-- `delay_bwe_set_min_bitrate`. -/
def setMinBitrate (bwe : DelayBaseBwe 𝕜) (bitrate : Nat) : DelayBaseBwe 𝕜 :=
  { bwe with rateControl := bwe.rateControl.setMinBitrate bitrate }

/-- `delay_bwe_set_max_bitrate`. -/
def setMaxBitrate (bwe : DelayBaseBwe 𝕜) (bitrate : Nat) : DelayBaseBwe 𝕜 :=
  { bwe with rateControl := bwe.rateControl.setMaxBitrate bitrate }

end DelayBaseBwe

end Razor
