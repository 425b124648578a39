import RmcatNs3.Lib.FloatOrder
import RmcatNs3.Scream.WindowFloor

/-!
# The target bitrates of SCReAM

Every stream has a target bitrate, which the code writes when the stream is registered, for a
media frame, for a collision in the ring, when the window is reduced, and when priorities are
adjusted or set. The values are those of a floating-point format of which nothing but the order
is known; what the rates, queues and delays have come to is given with each call.
-/

namespace Scream

open FloatVal MachineInt

def kRateAdjustInterval_us : Nat := 200000
def kMinRtpQueueDiscardInterval_us : Nat := 1000000
def kTargetBitrateHistSize : Nat := 3

/-- The arithmetic of `float`. -/
class FloatArith (α : Type) where
  /-- A constant. -/
  lit : ℚ → FloatVal α
  ofInt : Int → FloatVal α
  add : FloatVal α → FloatVal α → FloatVal α
  sub : FloatVal α → FloatVal α → FloatVal α
  mul : FloatVal α → FloatVal α → FloatVal α
  div : FloatVal α → FloatVal α → FloatVal α
  /-- The product with a constant of type `double`, as a `float`. -/
  scale : FloatVal α → ℚ → FloatVal α
  sqrt : FloatVal α → FloatVal α

open FloatArith (lit ofInt)

variable {α : Type} [FloatArith α]

instance : Add (FloatVal α) := ⟨FloatArith.add⟩
instance : Sub (FloatVal α) := ⟨FloatArith.sub⟩
instance : Mul (FloatVal α) := ⟨FloatArith.mul⟩
instance : Div (FloatVal α) := ⟨FloatArith.div⟩

variable [Preorder α] [DecidableLT α]

/-- What `registerNewStream` is given. -/
structure StreamSettings (α : Type) where
  priority : FloatVal α
  minBitrate : FloatVal α
  startBitrate : FloatVal α
  maxBitrate : FloatVal α
  rampUpSpeed : FloatVal α
  maxRtpQueueDelay : FloatVal α
  txQueueSizeFactor : FloatVal α
  queueDelayGuard : FloatVal α
  lossEventRateScale : FloatVal α
  ecnCeEventRateScale : FloatVal α

/-- What a stream and its sender have come to when the target is updated. -/
structure MediaReadings (α : Type) where
  rateTransmitted : FloatVal α
  rateAcked : FloatVal α
  rateRtp : FloatVal α
  bytesInQueue : Int
  /-- `getSizeOfLastFrame` -/
  lastBytes : Int
  rtpQueueDelay : FloatVal α
  competingFlows : Bool
  inFastStart : Bool
  queueDelayTrend : FloatVal α
  l4sAlpha : FloatVal α

/-- `getMaxRate`; the limit of the media rate is the same. -/
def MediaReadings.maxRate (r : MediaReadings α) : FloatVal α :=
  stdMin r.rateTransmitted r.rateAcked

def MediaReadings.txSizeBits (r : MediaReadings α) : Int :=
  max 0 (r.bytesInQueue - r.lastBytes) * 8

/-- The part of a stream that its target bitrate depends on. -/
structure RateStream (α : Type) where
  settings : StreamSettings α
  minBitrate : FloatVal α
  maxBitrate : FloatVal α
  targetBitrate : FloatVal α
  targetPriority : FloatVal α
  targetBitrateI : FloatVal α
  targetBitrateHist : Vector (FloatVal α) kTargetBitrateHistSize
  targetBitrateHistPtr : Fin kTargetBitrateHistSize
  txSizeBitsAvg : FloatVal α
  wasFastStart : Bool
  isActive : Bool
  initTime_us : Nat
  lastRtpQueueDiscardT_us : Nat
  lastBitrateAdjustT_us : Nat
  lastTargetBitrateIUpdateT_us : Nat

namespace RateStream

/-- The constructor leaves `wasFastStart` as it is in the memory. -/
def new (settings : StreamSettings α) (wasFastStart : Bool) : RateStream α where
  settings := settings
  minBitrate := settings.minBitrate
  maxBitrate := settings.maxBitrate
  targetBitrate := stdMin settings.maxBitrate (stdMax settings.minBitrate settings.startBitrate)
  targetPriority := settings.priority
  targetBitrateI := lit 1
  targetBitrateHist := .replicate kTargetBitrateHistSize (lit 0)
  targetBitrateHistPtr := ⟨0, by decide⟩
  txSizeBitsAvg := lit 0
  wasFastStart := wasFastStart
  isActive := false
  initTime_us := 0
  lastRtpQueueDiscardT_us := 0
  lastBitrateAdjustT_us := 0
  lastTargetBitrateIUpdateT_us := 0

/-! ## `updateTargetBitrate` -/

/-- "the max value is picked" -/
def updateTargetBitrateI (s : RateStream α) (br : FloatVal α) : RateStream α :=
  let recent := stdMin br s.targetBitrate
  let targetBitrateHist := s.targetBitrateHist.set s.targetBitrateHistPtr recent
  { s with
    targetBitrateHist
    targetBitrateHistPtr :=
      ⟨(s.targetBitrateHistPtr + 1) % kTargetBitrateHistSize, Nat.mod_lt _ (by decide)⟩
    targetBitrateI := targetBitrateHist.foldl stdMax recent }

/-- Not more often than every two seconds. -/
def noteInflection (s : RateStream α) (time_us : Nat) (br : FloatVal α) : RateStream α :=
  if timeSince time_us s.lastTargetBitrateIUpdateT_us > 2000000 then
    { s.updateTargetBitrateI br with lastTargetBitrateIUpdateT_us := time_us }
  else s

/-- What is done for every frame. -/
def begin (s : RateStream α) (time_us : Nat) : RateStream α :=
  { s with
    initTime_us := if s.initTime_us = 0 then time_us else s.initTime_us
    lastRtpQueueDiscardT_us :=
      if s.initTime_us = 0 then time_us else s.lastRtpQueueDiscardT_us
    lastBitrateAdjustT_us :=
      if s.lastBitrateAdjustT_us = 0 then time_us else s.lastBitrateAdjustT_us
    isActive := true }

/-- "Loss event handling", and that of marks. -/
def handleEvent (s : RateStream α) (lossEventFlag isL4s : Bool) (time_us : Nat)
    (r : MediaReadings α) : RateStream α :=
  let s := s.noteInflection time_us r.maxRate
  let factor := if lossEventFlag then s.settings.lossEventRateScale
    else if isL4s then lit 1 - r.l4sAlpha / lit 4
    else s.settings.ecnCeEventRateScale
  { s with
    targetBitrate := stdMax s.minBitrate (s.targetBitrate * factor)
    lastBitrateAdjustT_us := time_us }

/-- "A scale factor that is dependent on the inflection point" -/
def sclI (s : RateStream α) : FloatVal α :=
  let scl := (s.targetBitrate - s.targetBitrateI) / s.targetBitrateI * lit 4
  stdMax (lit 0.2) (stdMin (lit 1) (scl * scl))

def rampUpSpeedTmp (s : RateStream α) (r : MediaReadings α) : FloatVal α :=
  let speed := stdMin s.settings.rampUpSpeed (s.targetBitrate * lit 0.5)
  if r.competingFlows then speed * lit 2 else speed

/-- The target is much higher than the rate that the source has. -/
def outrunsSource (s : RateStream α) (r : MediaReadings α) : Prop :=
  r.maxRate * lit 1.5 < s.targetBitrate

instance (s : RateStream α) (r : MediaReadings α) : Decidable (s.outrunsSource r) :=
  inferInstanceAs (Decidable (_ < _))

/-- "Increment bitrate, limited by the rampUpSpeed" -/
def fastStart (s : RateStream α) (sclI : FloatVal α) (r : MediaReadings α) : RateStream α :=
  let increment := if s.outrunsSource r then lit 0
    else s.rampUpSpeedTmp r * (ofInt kRateAdjustInterval_us * lit 1e-6) *
      (sclI * FloatArith.sqrt s.targetPriority)
  { s with targetBitrate := s.targetBitrate + increment, wasFastStart := true }

/-- What the rates and the queues ask for. -/
def rateChange (s : RateStream α) (isL4s : Bool) (r : MediaReadings α) : FloatVal α :=
  let incrementScale := lit 1 + lit 0.05 * stdMin (lit 1) (lit 50000 / s.targetBitrate)
  let increment := incrementScale * r.maxRate
  let increment := if isL4s = false ∨ r.l4sAlpha < lit 0.001 then
      let scl := s.settings.queueDelayGuard * r.queueDelayTrend
      let scl := if r.competingFlows then scl * lit 0.05 else scl
      increment * (lit 1 - scl) - s.settings.txQueueSizeFactor * s.txSizeBitsAvg
    else increment
  let increment := increment - s.targetBitrate
  if r.txSizeBits > 12000 ∧ lit 0 < increment then lit 0 else increment

/-- "Limit the bitrate increase" -/
def limitIncrease (s : RateStream α) (sclI increment : FloatVal α) (r : MediaReadings α) :
    FloatVal α :=
  if s.outrunsSource r then lit 0
  else if r.competingFlows then increment
  else stdMin (increment * sclI) (FloatArith.scale (s.rampUpSpeedTmp r) 0.2)

/-- "Avoid that the target bitrate is reduced" -/
def limitDecrease (s : RateStream α) (increment : FloatVal α) (r : MediaReadings α) :
    FloatVal α :=
  if r.rateRtp < s.targetBitrate * lit 0.8 ∨ s.targetBitrate * lit 2 < r.rateRtp then lit 0
  else increment

/-- "Update target rate" -/
def steady (s : RateStream α) (sclI : FloatVal α) (isL4s : Bool) (time_us : Nat)
    (r : MediaReadings α) : RateStream α :=
  let s := if s.wasFastStart then
      { s with wasFastStart := false }.noteInflection time_us r.maxRate
    else s
  let increment := s.rateChange isL4s r
  if lit 0 < increment then
    { s with
      targetBitrate := s.targetBitrate + s.limitIncrease sclI increment r
      wasFastStart := true }
  else { s with targetBitrate := s.targetBitrate + s.limitDecrease increment r }

/-- The rate is adjusted, or the queue has got so long that it is cleared. -/
def adjust (s : RateStream α) (isL4s : Bool) (time_us : Nat) (r : MediaReadings α) :
    RateStream α :=
  let sclI := s.sclI
  let s := { s with
    txSizeBitsAvg := s.txSizeBitsAvg * lit 0.5 + ofInt r.txSizeBits * (lit 1 - lit 0.5) }
  let s := if s.settings.maxRtpQueueDelay < r.rtpQueueDelay ∧
      timeSince time_us s.lastRtpQueueDiscardT_us > kMinRtpQueueDiscardInterval_us then
      { s with lastRtpQueueDiscardT_us := time_us, txSizeBitsAvg := lit 0 }
    else if r.inFastStart ∧ r.rtpQueueDelay < lit 0.1 then s.fastStart sclI r
    else s.steady sclI isL4s time_us r
  { s with lastBitrateAdjustT_us := time_us }

/-- The end of `updateTargetBitrate`. -/
def clamp (s : RateStream α) : RateStream α :=
  { s with targetBitrate := stdMin s.maxBitrate (stdMax s.minBitrate s.targetBitrate) }

/-- The flags are those of the stream, which the sender clears. -/
def updateTargetBitrate (s : RateStream α) (lossEventFlag ecnCeEventFlag isL4s : Bool)
    (time_us : Nat) (r : MediaReadings α) : RateStream α :=
  let s := s.begin time_us
  if lossEventFlag || ecnCeEventFlag then (s.handleEvent lossEventFlag isL4s time_us r).clamp
  else if timeSince time_us s.lastBitrateAdjustT_us < kRateAdjustInterval_us then s
  else (s.adjust isL4s time_us r).clamp

/-! ## The other functions -/

/-- `updateBitrateStream` -/
def updateBitrate (s : RateStream α) (minBitrate maxBitrate : FloatVal α) : RateStream α :=
  { s with minBitrate, maxBitrate }

/-- `setTargetPriority`; the target is rescaled if there is some congestion. -/
def setTargetPriority (s : RateStream α) (priority : FloatVal α) (congested : Bool) :
    RateStream α :=
  let s := if congested then
      let scaled := s.targetBitrate * (priority / s.targetPriority)
      { s with targetBitrate := stdMin (stdMax scaled s.minBitrate) s.maxBitrate }
    else s
  { s with targetPriority := priority }

/-- `addTransmitted`, when the packet meets one that is still in flight. -/
def collide (s : RateStream α) : RateStream α := { s with targetBitrate := s.minBitrate }

/-- `updateCwnd`, when the window is reduced. -/
def reduce (s : RateStream α) (rateAdjustFactor : FloatVal α) : RateStream α :=
  { s with
    targetBitrate := stdMax s.minBitrate
      (stdMin s.maxBitrate (s.targetBitrate * rateAdjustFactor)) }

/-- `adjustPriorities`: the stream uses more than its share. -/
def lower (s : RateStream α) : RateStream α :=
  { s with targetBitrate := stdMax s.minBitrate (s.targetBitrate * lit 0.9) }

end RateStream

/-! ## The targets in their sender -/

/-- A sender with the targets of its streams, which are in the order of `streams`. -/
structure BitrateTx (α : Type) where
  tx : ScreamTx
  isL4s : Bool
  streams : List (RateStream α)
  lastAdjustPrioritiesT_us : Nat

/-- What `adjustPriorities` reads. -/
structure PriorityReadings (α : Type) where
  queueDelayTrend : FloatVal α
  /-- `creditLost` and `rateRtp` of each stream. -/
  creditLost : Nat → Int
  rateRtp : Nat → FloatVal α

/-- What `updateCwnd` has come to where it may reduce the rates. -/
structure ReduceReadings (α : Type) where
  inFastStart : Bool
  offTarget : FloatVal α
  rateTotal : FloatVal α
  rateAdjustFactor : FloatVal α

namespace BitrateTx

def new (lossBetaBelowOne isL4s : Bool) : BitrateTx α where
  tx := .new lossBetaBelowOne
  isL4s := isL4s
  streams := []
  lastAdjustPrioritiesT_us := 0

/-- The part of `initialize`. -/
def ensureInitialized (s : BitrateTx α) (time_us : Nat) : BitrateTx α :=
  if s.tx.isInitialized then s else { s with lastAdjustPrioritiesT_us := time_us }

/-- A change of the stream that `getStream` finds. -/
def modifyStream (s : BitrateTx α) (ssrc : BitVec 32) (f : RateStream α → RateStream α) :
    Option (BitrateTx α) :=
  (s.tx.getStream ssrc).map fun found => { s with streams := s.streams.modify found.1 f }

def registerNewStream (s : BitrateTx α) (ssrc : BitVec 32) (settings : StreamSettings α)
    (wasFastStart : Bool) : Option (BitrateTx α) :=
  (s.tx.registerNewStream ssrc).map fun tx =>
    { s with tx, streams := s.streams ++ [.new settings wasFastStart] }

/-- The updates for a frame: a second one if the window has been updated lately. -/
def updateForFrame (s : BitrateTx α) (time_us : Nat) (stream : TxStream)
    (first second : MediaReadings α) (rate : RateStream α) : RateStream α :=
  let rate := rate.updateTargetBitrate stream.lossEventFlag stream.ecnCeEventFlag s.isL4s time_us
    first
  if timeSince time_us s.tx.lastCwndUpdateT_us < 500000 then
    rate.updateTargetBitrate false false s.isL4s time_us second
  else rate

def newMediaFrame (s : BitrateTx α) (time_us : Nat) (ssrc : BitVec 32)
    (first second : MediaReadings α) : Option (BitrateTx α) := do
  let s := s.ensureInitialized time_us
  let found ← s.tx.getStream ssrc
  let tx ← s.tx.newMediaFrame time_us ssrc
  return { s with
    tx
    streams := s.streams.modify found.1 (s.updateForFrame time_us found.2 first second) }

/-! ### `adjustPriorities` -/

/-- "At the most 1 steam active, skip adjustment" -/
def activeStreams (s : BitrateTx α) : Nat := s.streams.countP fun stream => stream.isActive

def avgCreditLost (s : BitrateTx α) (r : PriorityReadings α) : Int :=
  ((List.range s.streams.length).foldl (fun sum n => sum + r.creditLost n) 0).tdiv s.activeStreams

/-- The stream has more than its share. -/
def exceedsShare (s : BitrateTx α) (r : PriorityReadings α) (n : Nat) (stream : RateStream α) :
    Prop :=
  stream.isActive = true ∧ r.creditLost n < s.avgCreditLost r ∧ r.rateRtp n < stream.targetBitrate

instance (s : BitrateTx α) (r : PriorityReadings α) (n : Nat) (stream : RateStream α) :
    Decidable (s.exceedsShare r n stream) :=
  inferInstanceAs (Decidable (_ ∧ _ ∧ _))

/-- "Adjust only if there is some evidence of congestion" -/
def adjustsPriorities (s : BitrateTx α) (time_us : Nat) (r : PriorityReadings α) : Prop :=
  s.streams.length ≠ 1 ∧ ¬ timeSince time_us s.lastAdjustPrioritiesT_us < 1000000 ∧
    lit 0.02 < r.queueDelayTrend ∧ 1 < s.activeStreams

instance (s : BitrateTx α) (time_us : Nat) (r : PriorityReadings α) :
    Decidable (s.adjustsPriorities time_us r) :=
  inferInstanceAs (Decidable (_ ∧ _ ∧ _ ∧ _))

/-- The statistics are cleared after the adjustment, and also without it while the last time is
less than 20 s ago. -/
def clearsCredits (s : BitrateTx α) (time_us : Nat) (r : PriorityReadings α) : Prop :=
  s.streams.length ≠ 1 ∧ ¬ timeSince time_us s.lastAdjustPrioritiesT_us < 1000000 ∧
    ¬ lit 0.02 < r.queueDelayTrend ∧ timeSince time_us s.lastAdjustPrioritiesT_us < 20000000

instance (s : BitrateTx α) (time_us : Nat) (r : PriorityReadings α) :
    Decidable (s.clearsCredits time_us r) :=
  inferInstanceAs (Decidable (_ ∧ _ ∧ _ ∧ _))

def adjustPriorities (s : BitrateTx α) (time_us : Nat) (r : PriorityReadings α) : BitrateTx α :=
  if s.adjustsPriorities time_us r then
    { s with
      streams := s.streams.mapIdx fun n stream =>
        if s.exceedsShare r n stream then stream.lower else stream
      lastAdjustPrioritiesT_us := time_us }
  else if s.clearsCredits time_us r then { s with lastAdjustPrioritiesT_us := time_us }
  else s

/-- The rates of the sender are due for an update, which adjusts the priorities. -/
def ratesDue (s : BitrateTx α) (time_us : Nat) (slow : Bool) : Prop :=
  timeSince time_us (s.tx.ensureInitialized time_us).lastRateUpdateT_us >
    ScreamTx.rateUpdateInterval slow

instance (s : BitrateTx α) (time_us : Nat) (slow : Bool) : Decidable (s.ratesDue time_us slow) :=
  inferInstanceAs (Decidable (_ < _))

def isOkToTransmit (s : BitrateTx α) (time_us : Nat) (slow : Bool) (prioritized : Option Nat)
    (r : PriorityReadings α) : Option (BitrateTx α) :=
  (s.tx.isOkToTransmit time_us slow prioritized).map fun tx =>
    let s' := s.ensureInitialized time_us
    { (if s.ratesDue time_us slow then s'.adjustPriorities time_us r else s') with tx }

/-! ### The other calls -/

def addTransmitted (s : BitrateTx α) (time_us : Nat) (ssrc : BitVec 32) (size : Nat)
    (seqNr : BitVec 16) : Option (BitrateTx α) := do
  let tx ← s.tx.addTransmitted time_us ssrc size seqNr
  let s := s.ensureInitialized time_us
  let s ← s.modifyStream ssrc fun stream =>
    if s.tx.collides ssrc seqNr then stream.collide else stream
  return { s with tx }

/-- `updateCwnd` reduces the window because of the delay, and the rates are low. -/
def reducesRates (tx : ScreamTx) (time_us : Nat) (r : ReduceReadings α) : Prop :=
  timeSince time_us (if tx.lastCwndUpdateT_us = 0 then time_us else tx.lastCwndUpdateT_us) >
      10000 ∧
    tx.lossEvent = false ∧ tx.ecnCeEvent = false ∧ r.inFastStart = false ∧
    ¬ lit 0 < r.offTarget ∧ r.rateTotal < lit 1e5

instance (tx : ScreamTx) (time_us : Nat) (r : ReduceReadings α) :
    Decidable (reducesRates tx time_us r) :=
  inferInstanceAs (Decidable (_ ∧ _ ∧ _ ∧ _ ∧ _ ∧ _))

/-- The feedback is not ignored, and reduces the rates. -/
def feedbackReduces (s : BitrateTx α) (fb : IncomingFeedback) (r : ReduceReadings α) : Bool :=
  match s.tx.accepts fb with
  | none => false
  | some (i, stream) => decide
      (reducesRates ((s.tx.ensureInitialized fb.time_us).detected fb i stream) fb.time_us r)

def incomingFeedback (s : BitrateTx α) (fb : IncomingFeedback) (r : ReduceReadings α) :
    BitrateTx α :=
  let s' := s.ensureInitialized fb.time_us
  { s' with
    tx := s.tx.incomingFeedback fb
    streams := if s.feedbackReduces fb r then
        s'.streams.map fun stream => stream.reduce r.rateAdjustFactor
      else s'.streams }

/-- `setTargetPriority`, with what the sender has come to. -/
def setTargetPriority (s : BitrateTx α) (ssrc : BitVec 32) (priority : FloatVal α)
    (queueDelayFractionAvg : FloatVal α) (inFastStart : Bool) : Option (BitrateTx α) :=
  s.modifyStream ssrc fun stream => stream.setTargetPriority priority
    (decide (lit 0.1 < queueDelayFractionAvg) || !inFastStart)

def updateBitrateStream (s : BitrateTx α) (ssrc : BitVec 32) (minBitrate maxBitrate : FloatVal α) :
    Option (BitrateTx α) :=
  s.modifyStream ssrc fun stream => stream.updateBitrate minBitrate maxBitrate

/-- The calls of a sender, with what they read. -/
inductive Call (α : Type) where
  | registerNewStream (ssrc : BitVec 32) (settings : StreamSettings α) (wasFastStart : Bool)
  | newMediaFrame (time_us : Nat) (ssrc : BitVec 32) (first second : MediaReadings α)
  | isOkToTransmit (time_us : Nat) (slow : Bool) (prioritized : Option Nat)
      (r : PriorityReadings α)
  | addTransmitted (time_us : Nat) (ssrc : BitVec 32) (size : Nat) (seqNr : BitVec 16)
  | incomingFeedback (fb : IncomingFeedback) (r : ReduceReadings α)
  | getTargetBitrate (ssrc : BitVec 32)
  | setTargetPriority (ssrc : BitVec 32) (priority queueDelayFractionAvg : FloatVal α)
      (inFastStart : Bool)
  | updateBitrateStream (ssrc : BitVec 32) (minBitrate maxBitrate : FloatVal α)

/-- One call; `none` where the code uses a stream that does not exist. -/
def perform (s : BitrateTx α) : Call α → Option (BitrateTx α)
  | .registerNewStream ssrc settings wasFastStart =>
      s.registerNewStream ssrc settings wasFastStart
  | .newMediaFrame time_us ssrc first second => s.newMediaFrame time_us ssrc first second
  | .isOkToTransmit time_us slow prioritized r => s.isOkToTransmit time_us slow prioritized r
  | .addTransmitted time_us ssrc size seqNr => s.addTransmitted time_us ssrc size seqNr
  | .incomingFeedback fb r => some (s.incomingFeedback fb r)
  | .getTargetBitrate ssrc => (s.tx.getTargetBitrate ssrc).map fun tx => { s with tx }
  | .setTargetPriority ssrc priority queueDelayFractionAvg inFastStart =>
      s.setTargetPriority ssrc priority queueDelayFractionAvg inFastStart
  | .updateBitrateStream ssrc minBitrate maxBitrate =>
      s.updateBitrateStream ssrc minBitrate maxBitrate

end BitrateTx

end Scream
