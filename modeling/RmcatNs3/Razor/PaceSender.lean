import RmcatNs3.Razor.PacerQueue

/-!
# The pacer

`razor/pacing/{interval_budget,alr_detector,pace_sender}.c`. A call of
`send_cb` is recorded in `sendLog`. The values that `GET_SYS_MS` returns are
parameters. Following a null pointer, dividing by zero and running out of the
iterations allowed to the sending loop are `none`. `pace_destroy`, the getters
for the queueing delay and the log lines are left out.
-/

namespace Razor

open MachineInt

/-! ## Budgets -/

/-- `interval_budget_t`. -/
structure IntervalBudget where
  targetRateKbps : Int
  maxBytesInBudget : Int
  bytesRemaining : Int
  canBuildUpUnderuse : Int
  deriving DecidableEq, Repr

namespace IntervalBudget

def kWindowMs : Int := 500

def setTargetRateKbps (budget : IntervalBudget) (targetRateKbps : Int) :
    IntervalBudget :=
  let maxBytes := (toSigned 32 (kWindowMs * targetRateKbps)).tdiv 8
  { budget with
    targetRateKbps
    maxBytesInBudget := maxBytes
    bytesRemaining := min (max (-maxBytes) budget.bytesRemaining) maxBytes }

/-- `init_interval_budget`. -/
def init (initialTargetRateKbps canBuildUpUnderuse : Int) : IntervalBudget :=
  { targetRateKbps := 0
    maxBytesInBudget := 0
    bytesRemaining := 0
    canBuildUpUnderuse : IntervalBudget }.setTargetRateKbps initialTargetRateKbps

def increaseBudget (budget : IntervalBudget) (deltaTs : Int) : IntervalBudget :=
  let bytes := (toSigned 32 (budget.targetRateKbps * deltaTs)).tdiv 8
  { budget with
    bytesRemaining :=
      if budget.bytesRemaining < 0 ∨ budget.canBuildUpUnderuse = 0 then
        min (toSigned 32 (budget.bytesRemaining + bytes)) budget.maxBytesInBudget
      else min bytes budget.maxBytesInBudget }

def useBudget (budget : IntervalBudget) (bytes : Int) : IntervalBudget :=
  { budget with
    bytesRemaining := max (-budget.maxBytesInBudget)
      (toSigned 32 (budget.bytesRemaining - bytes)) }

def budgetRemaining (budget : IntervalBudget) : Nat :=
  if budget.bytesRemaining > 0 then budget.bytesRemaining.toNat else 0

def budgetLevelPrecent (budget : IntervalBudget) : Option Int :=
  if budget.maxBytesInBudget = 0 then none
  else some ((toSigned 32 (budget.bytesRemaining * 100)).tdiv budget.maxBytesInBudget)

end IntervalBudget

/-! ## Application limited regions -/

def kAlrStartBugetPercent : Int := 80
def kAlrStopBugetPercent : Int := 50
def kAlrBanwidthUseagePercent : Int := 60

/-- `alr_detector_t`. -/
structure AlrDetector where
  budget : IntervalBudget
  alrStartedTs : Int
  deriving DecidableEq, Repr

namespace AlrDetector

def create : AlrDetector where
  budget := .init 0 0
  alrStartedTs := -1

/-- `alr_detector_bytes_sent`, with the time `sysMs`. -/
def bytesSent (alr : AlrDetector) (bytes : Nat) (deltaTs sysMs : Int) :
    Option AlrDetector := do
  let budget := (alr.budget.useBudget (toSigned 32 bytes)).increaseBudget
    (toSigned 32 deltaTs)
  let percent ← budget.budgetLevelPrecent
  some
    { budget
      alrStartedTs :=
        if percent > kAlrStartBugetPercent ∧ alr.alrStartedTs = -1 then sysMs
        else if percent < kAlrStopBugetPercent then -1
        else alr.alrStartedTs }

def setBitrate (alr : AlrDetector) (bitrateBps : Int) : AlrDetector :=
  let target := (toSigned 32 (bitrateBps * kAlrBanwidthUseagePercent)).tdiv (1000 * 100)
  { alr with budget := alr.budget.setTargetRateKbps target }

end AlrDetector

/-! ## The pacer -/

def kMinPacketLimitMs : Int := 5
def kMaxIntervalMs : Int := 30

/-- The arguments of a call of `send_cb`. -/
structure SendCall where
  packetId : PacketSeq
  retrans : Int
  size : Nat
  deriving DecidableEq, Repr

def PacketEvent.call (ev : PacketEvent) : SendCall := ⟨ev.seq, ev.retrans, ev.size⟩

/-- `pace_sender_t`. -/
structure PaceSender where
  minSenderBitrateKpbs : Nat
  estimatedBitrate : Nat
  pacingBitrateKpbs : Nat
  lastUpdateTs : Int
  firstSentTs : Int
  alr : AlrDetector
  que : PacerQueue
  mediaBudget : IntervalBudget
  /-- Whether `send_cb` is set. -/
  sendCb : Bool
  /-- The calls of `send_cb`, oldest first. -/
  sendLog : List SendCall

namespace PaceSender

/-- `pace_create`, at the time `sysMs`. -/
def create (sendCb : Bool) (queMs : Nat) (sysMs : Int) : PaceSender where
  minSenderBitrateKpbs := 0
  estimatedBitrate := 0
  pacingBitrateKpbs := 0
  lastUpdateTs := sysMs
  firstSentTs := -1
  alr := .create
  que := .init queMs
  mediaBudget := (IntervalBudget.init 0 (-1)).increaseBudget kMinPacketLimitMs
  sendCb
  sendLog := []

/-- `pace_set_estimate_bitrate`. -/
def setEstimateBitrate (pace : PaceSender) (bitrateBps : Nat) : PaceSender :=
  { pace with
    estimatedBitrate := bitrateBps
    pacingBitrateKpbs := max (bitrateBps / 1000) pace.minSenderBitrateKpbs
    alr := pace.alr.setBitrate (toSigned 32 bitrateBps) }

/-- `pace_set_bitrate_limits`. -/
def setBitrateLimits (pace : PaceSender) (minSentBitrate : Nat) : PaceSender :=
  { pace with
    minSenderBitrateKpbs := minSentBitrate / 1000
    pacingBitrateKpbs := max (pace.estimatedBitrate / 1000) (minSentBitrate / 1000) }

/-- `pace_insert_packet`; the result is the one it returns. -/
def insertPacket (pace : PaceSender) (a : Addr) (seq : PacketSeq) (retrans : Int)
    (size : Nat) (nowTs : Int) : Int × PaceSender :=
  let ev : PacketEvent := { seq, retrans, size, queTs := nowTs, sent := false }
  let (ret, que) := pace.que.push a ev
  (ret, { pace with que })

/-- `pace_send`; the result is the one it returns. -/
def send (pace : PaceSender) (ev : PacketEvent) : Int × PaceSender :=
  if pace.mediaBudget.budgetRemaining = 0 then (-1, pace)
  else
    (0, { pace with
      sendLog := if pace.sendCb then pace.sendLog ++ [ev.call] else pace.sendLog
      mediaBudget := pace.mediaBudget.useBudget (toSigned 32 ev.size) })

/-- The sending loop of `pace_try_transmit`; the result is the pacer and
`sent_bytes`. -/
def transmitLoop (nowTs : Int) : Nat → PaceSender → Int → Option (PaceSender × Int)
  | 0, _, _ => none
  | fuel + 1, pace, sentBytes =>
      if pace.que.empty = 0 then some (pace, sentBytes)
      else do
        let p ← pace.que.front
        let a ← p
        let ev ← pace.que.packets a
        let (ret, pace) := pace.send ev
        if ret = 0 then
          let firstSentTs := if pace.firstSentTs = -1 then nowTs else pace.firstSentTs
          let que ← pace.que.sent ev.seq
          transmitLoop nowTs fuel { pace with firstSentTs, que }
            (toSigned 32 (sentBytes + ev.size))
        else some (pace, sentBytes)

/-- `pace_try_transmit`, with the time `sysMs` in `alr_detector_bytes_sent`. -/
def tryTransmit (pace : PaceSender) (fuel : Nat) (nowTs sysMs : Int) :
    Option PaceSender :=
  let elapsedMs := toSigned 32 (nowTs - pace.lastUpdateTs)
  if elapsedMs < kMinPacketLimitMs then some pace
  else do
    let elapsedMs := min elapsedMs kMaxIntervalMs
    let targetBitrateKbps :=
      if pace.que.totalSize > 0 then
        max pace.pacingBitrateKpbs (pace.que.targetBitrateKbps nowTs)
      else pace.pacingBitrateKpbs
    let mediaBudget := (pace.mediaBudget.setTargetRateKbps
      (toSigned 32 targetBitrateKbps)).increaseBudget elapsedMs
    let (pace, sentBytes) ← transmitLoop nowTs fuel { pace with mediaBudget } 0
    let alr ← pace.alr.bytesSent (toUnsigned 64 sentBytes) elapsedMs sysMs
    some { pace with lastUpdateTs := nowTs, alr }

end PaceSender

end Razor
