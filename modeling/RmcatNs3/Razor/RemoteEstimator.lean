import RmcatNs3.Razor.AimdRateControl
import RmcatNs3.Razor.InterArrival
import RmcatNs3.Razor.KalmanFilter
import RmcatNs3.Razor.OveruseDetector
import RmcatNs3.Razor.RateStat

/-!
# The receiver's estimate of the bitrate

`razor/estimator/remote_bitrate_estimator.{c,h}`, with the elements of an ordered field
for `float` and `double`. A call results in what `rbe_update_estimate` passed to
`aimd_update`, if it was called, besides what the call returns. A bucket of the rate
statistics that does not exist is `none`.
-/

namespace Razor

open MachineInt

def kMinBitrate : Nat := 64000
def kMaxBitrate : Nat := 12800000
def kProcessIntervalMs : Int := 500
def kMaxUpdateTimeout : Int := 2000
def kRateWindowSize : Nat := 1000
def kRateScale : Nat := 8000

/-- `remote_bitrate_estimator_t`. -/
structure RemoteBitrateEstimator (𝕜 : Type) where
  lastUpdateTs : Int
  intervalTs : Int
  lastPacketTs : Int
  lastIncomingBitrate : Int
  incomingBitrate : RateStat kRateWindowSize
  aimd : AimdRateController 𝕜
  detector : OveruseDetector 𝕜
  interArrival : InterArrival
  kalman : KalmanFilter 𝕜

/-- What `rbe_heartbeat` returns, `*remb`, and what it passed to `aimd_update`. -/
structure RembReply where
  ret : Int
  remb : Nat
  passed : Option RateControlInput
  deriving DecidableEq, Repr

namespace RemoteBitrateEstimator

variable {𝕜 : Type}

/-- `rbe_update_rtt`. -/
def updateRtt (est : RemoteBitrateEstimator 𝕜) (rtt : Nat) : RemoteBitrateEstimator 𝕜 :=
  { est with aimd := { est.aimd with rtt } }

/-- `rbe_set_min_bitrate`. -/
def setMinBitrate (est : RemoteBitrateEstimator 𝕜) (minBitrate : Nat) :
    RemoteBitrateEstimator 𝕜 :=
  { est with aimd := est.aimd.setMinBitrate minBitrate }

/-- `rbe_set_max_bitrate`. -/
def setMaxBitrate (est : RemoteBitrateEstimator 𝕜) (maxBitrate : Nat) :
    RemoteBitrateEstimator 𝕜 :=
  { est with aimd := est.aimd.setMaxBitrate maxBitrate }

/-- `rbe_last_estimate`, if it returns `0`. -/
def lastEstimate (est : RemoteBitrateEstimator 𝕜) : Option Nat :=
  if est.aimd.inited = -1 then none else some est.aimd.currRate

/-- The end of `rbe_heartbeat`. -/
def remb (est : RemoteBitrateEstimator 𝕜) (passed : Option RateControlInput) : RembReply :=
  match est.lastEstimate with
  | some bitrate => ⟨0, bitrate, passed⟩
  | none => ⟨-1, 0, passed⟩

theorem passed_remb (est : RemoteBitrateEstimator 𝕜) (passed : Option RateControlInput) :
    (est.remb passed).passed = passed := by
  unfold remb
  split <;> rfl

variable [Field 𝕜]

/-- `rbe_create`, at the time `sysMs`; the two limits are passed the wrong way round. -/
def create (sysMs : Int) : RemoteBitrateEstimator 𝕜 where
  lastUpdateTs := sysMs
  intervalTs := kProcessIntervalMs
  lastPacketTs := -1
  lastIncomingBitrate := -1
  incomingBitrate := .init _
  aimd := .create kMinBitrate kMaxBitrate
  detector := .create
  interArrival := .create 0 5
  kalman := .create

/-- `rbe_reset`. -/
def reset (est : RemoteBitrateEstimator 𝕜) : RemoteBitrateEstimator 𝕜 :=
  { est with detector := .create, interArrival := .create 0 5, kalman := .create }

/-- The rate that `rate_stat_rate` computes from a count and the size of its window. -/
def measureRate (math : AimdMath 𝕜) (count wndSize : Int) : Int :=
  toSigned 32 (math.half (count * kRateScale / wndSize))

variable [LinearOrder 𝕜]

/-- `rbe_update_estimate`, and what it passes to `aimd_update`. -/
def updateEstimate (math : AimdMath 𝕜) (est : RemoteBitrateEstimator 𝕜) (nowTs : Int) :
    Option (RateControlInput × RemoteBitrateEstimator 𝕜) := do
  let (state, est) :=
    if nowTs > est.lastPacketTs + kMaxUpdateTimeout then (.kBwNormal, est.reset)
    else (est.detector.state, est)
  let (rate, incomingBitrate) ← est.incomingBitrate.rate (measureRate math) nowTs
  let input : RateControlInput := ⟨state, toUnsigned 32 rate⟩
  let aimd := est.aimd.update math input nowTs
  let intervalTs := if aimd.inited = 0 then aimd.getFeelbackInterval math else est.intervalTs
  some (input, { est with incomingBitrate, aimd, intervalTs })

/-- Whether `rbe_heartbeat` calls `rbe_update_estimate` when its interval is over. -/
def RecentPacket (est : RemoteBitrateEstimator 𝕜) (nowTs : Int) : Prop :=
  est.lastPacketTs > 0 ∧ est.lastPacketTs + kMaxUpdateTimeout > nowTs

instance (est : RemoteBitrateEstimator 𝕜) (nowTs : Int) : Decidable (est.RecentPacket nowTs) :=
  inferInstanceAs (Decidable (_ ∧ _))

/-- `rbe_heartbeat`. -/
def heartbeat (math : AimdMath 𝕜) (est : RemoteBitrateEstimator 𝕜) (nowTs : Int) :
    Option (RembReply × RemoteBitrateEstimator 𝕜) :=
  if nowTs ≥ est.lastUpdateTs + est.intervalTs then do
    let est := { est with lastUpdateTs := nowTs }
    if est.RecentPacket nowTs then
      let (input, est) ← est.updateEstimate math nowTs
      some (est.remb (some input), est)
    else some (est.remb none, est)
  else some (⟨-1, 0, none⟩, est)

/-- The start of `rbe_incoming_packet`: the packet is counted. -/
def countPacket (math : AimdMath 𝕜) (est : RemoteBitrateEstimator 𝕜) (payloadSize : Nat)
    (nowTs : Int) : Option (RemoteBitrateEstimator 𝕜) := do
  let (incomingRate, incomingBitrate) ← est.incomingBitrate.rate (measureRate math) nowTs
  let (incomingBitrate, lastIncomingBitrate) :=
    if incomingRate ≥ 0 then (incomingBitrate, incomingRate)
    else if est.lastIncomingBitrate > 0 then (incomingBitrate.reset, 0)
    else (incomingBitrate, est.lastIncomingBitrate)
  let incomingBitrate ← incomingBitrate.update payloadSize nowTs
  some { est with incomingBitrate, lastIncomingBitrate, lastPacketTs := nowTs }

/-- The filter and the detector are given the packet. -/
def detectPacket (math : AimdMath 𝕜) (est : RemoteBitrateEstimator 𝕜) (p : ArrivedPacket) :
    RemoteBitrateEstimator 𝕜 :=
  let outcome := est.interArrival.computeDeltas p
  match outcome.deltas with
  | none => { est with interArrival := outcome.arr }
  | some d =>
      let tsDelta : 𝕜 := d.timestampDelta.toNat
      let kalman := (est.kalman.update
        ⟨d.arrivalDelta, tsDelta, d.sizeDelta, est.detector.state, math.sqrt, math.pow⟩).filter
      let detector := est.detector.detect ⟨kalman.offset, tsDelta, kalman.numOfDeltas, p.systemTs⟩
      { est with interArrival := outcome.arr, kalman, detector }

/-- `rbe_incoming_packet`. -/
def incomingPacket (math : AimdMath 𝕜) (est : RemoteBitrateEstimator 𝕜)
    (timestamp : BitVec 32) (arrivalTs : Int) (payloadSize : Nat) (nowTs : Int) :
    Option (Option RateControlInput × RemoteBitrateEstimator 𝕜) := do
  let est ← est.countPacket math payloadSize nowTs
  let prevState := est.detector.state
  let est := est.detectPacket math ⟨timestamp, arrivalTs, nowTs, payloadSize⟩
  let (passed, est) ←
    if est.detector.state = .kBwOverusing then do
      let (incomingRate, incomingBitrate) ← est.incomingBitrate.rate (measureRate math) nowTs
      let est := { est with incomingBitrate }
      if incomingRate > 0 ∧ (prevState ≠ .kBwOverusing ∨
          est.aimd.timeReduceFurther nowTs incomingRate.toNat = (0 : Int)) then
        (est.updateEstimate math nowTs).map fun (input, est) => (some input, est)
      else some (none, est)
    else some (none, est)
  some (passed, { est with lastPacketTs := nowTs })

end RemoteBitrateEstimator

end Razor
