import Mathlib.Data.BitVec
import RmcatNs3.Lib.MachineInt
import RmcatNs3.Lib.RingScan
import RmcatNs3.Scream.ScreamRx

/-!
# The sender of SCReAM

Every stream keeps the packets in flight in a ring of `kMaxTxPackets` cells, at their
sequence number modulo its size. A feedback first marks packets as acknowledged and then
looks for lost ones. Delays, rates and the congestion window are floating point and left
out: what they decide (which stream is served, whether rates are low) is an input.
-/

namespace Scream

open MachineInt RingScan

def kMaxTxPackets : Nat := 2048
def kMaxStreams : Nat := 10
def kReorderTime_us : Nat := 20000
def kRateUpdateInterval_us : Nat := 50000

/-- The difference of two `uint64_t` times. -/
def timeSince (time_us last_us : Nat) : Nat := toUnsigned 64 (time_us - last_us)

structure Transmitted where
  timeTx_us : Nat
  timestamp : Nat
  size : Nat
  seqNr : BitVec 16
  isUsed : Bool
  isAcked : Bool
  isAfterReceivedEdge : Bool

def Transmitted.unused : Transmitted := ⟨0, 0, 0, 0, false, false, false⟩

/-- The cells of the ring `txPackets`. -/
abbrev Ring := Nat → Transmitted

structure TxStream where
  ssrc : BitVec 32
  hiSeqAck : BitVec 16
  hiSeqTx : BitVec 16
  timeTxAck_us : Nat
  lastLossDetectIx : Int
  bytesTransmitted : Nat
  bytesAcked : Nat
  bytesLost : Nat
  repairLoss : Bool
  lossEventFlag : Bool
  ecnCeEventFlag : Bool
  ecnCeMarkedBytes : BitVec 16
  txPackets : Ring

def TxStream.new (ssrc : BitVec 32) : TxStream where
  ssrc := ssrc
  hiSeqAck := 0
  hiSeqTx := 0
  timeTxAck_us := 0
  lastLossDetectIx := -1
  bytesTransmitted := 0
  bytesAcked := 0
  bytesLost := 0
  repairLoss := false
  lossEventFlag := false
  ecnCeEventFlag := false
  ecnCeMarkedBytes := 0
  txPackets := fun _ => .unused

/-- All packets of the stream are taken out of the ring. -/
def TxStream.clearTxPackets (stream : TxStream) : TxStream :=
  { stream with txPackets := fun n => { stream.txPackets n with isUsed := false } }

def TxStream.noteEvent (lossEvent : Bool) (stream : TxStream) : TxStream :=
  if lossEvent then { stream with lossEventFlag := true }
  else { stream with ecnCeEventFlag := true }

/-- The round trip time. -/
structure RttState where
  sRtt_us : Nat
  sRttSh_us : Nat
  lastSRttUpdateT_us : Nat

def RttState.update (s : RttState) (time_us timeTx_us : Nat) : RttState :=
  let rtt := timeSince time_us timeTx_us
  if rtt < 1000000 then
    let sRttSh_us := (7 * s.sRttSh_us + rtt) / 8
    if timeSince time_us s.lastSRttUpdateT_us > sRttSh_us then
      { sRtt_us := (7 * s.sRtt_us + sRttSh_us) / 8
        sRttSh_us := sRttSh_us
        lastSRttUpdateT_us := time_us }
    else { s with sRttSh_us := sRttSh_us }
  else s

structure ScreamTx where
  /-- `lossBeta < 1.0f` -/
  lossBetaBelowOne : Bool
  isInitialized : Bool
  streams : List TxStream
  bytesInFlight : Int
  bytesNewlyAcked : Nat
  lossEvent : Bool
  ecnCeEvent : Bool
  rtt : RttState
  ackedOwd : Nat
  lastLossEventT_us : Nat
  lastTransmitT_us : Nat
  lastRateUpdateT_us : Nat
  lastCwndUpdateT_us : Nat

/-- A feedback, with the time of its arrival. -/
structure IncomingFeedback where
  time_us : Nat
  ssrc : BitVec 32
  timestamp : Nat
  highestSeqNr : BitVec 16
  ackVector : BitVec 64
  ecnCeMarkedBytes : BitVec 16
  /-- What the test of a bit that the vector does not have evaluates to. -/
  overlong : Bool

/-! ## Scanned cells -/

/-- `ix0` -/
def firstIx (hiSeqAck : BitVec 16) : Nat := hiSeqAck.toNat + 1

/-- `ix1` -/
def lastIx (hiSeqAck highestSeqNr : BitVec 16) : Nat :=
  liftTo kMaxTxPackets (firstIx hiSeqAck) (firstIx hiSeqAck) (highestSeqNr.toNat % kMaxTxPackets)

/-- The cells from `ix0` to `ix1`. -/
def scanned (hiSeqAck highestSeqNr : BitVec 16) : List Nat :=
  slots kMaxTxPackets (firstIx hiSeqAck) (lastIx hiSeqAck highestSeqNr + 1)

/-- The cells from `lastLossDetectIx` up to `ix0`. -/
def swept (lastLossDetectIx : Int) (hiSeqAck : BitVec 16) : List Nat :=
  if lastLossDetectIx ≥ 0 then
    let ix0 := firstIx hiSeqAck
    slots kMaxTxPackets lastLossDetectIx.toNat
      (if lastLossDetectIx > ix0 then ix0 + kMaxTxPackets else ix0)
  else []

/-! ## `markAcked` -/

structure Marking where
  txPackets : Ring
  timeTxAck_us : Nat
  rtt : RttState
  ackedOwd : Nat
  /-- A shift by 64 or more bits was evaluated. -/
  overshift : Bool

/-- `uint16_t diff = highestSeqNr - tmp->seqNr; diff -= 1;` -/
def ackDiff (highestSeqNr seqNr : BitVec 16) : Nat := (highestSeqNr - seqNr - 1).toNat

/-- `ackVector & (INT64_C(1) << diff)` -/
def ackBit (fb : IncomingFeedback) (diff : Nat) : Bool :=
  if diff < 64 then fb.ackVector.getLsbD diff else fb.overlong

/-- What a visit of `markAcked` does to a packet. -/
def markPacket (fb : IncomingFeedback) (p : Transmitted) : Transmitted :=
  let diff := ackDiff fb.highestSeqNr p.seqNr
  if p.isUsed then
    { p with isAcked := p.isAcked || (decide (diff ≤ kAckVectorBits) && ackBit fb diff)
        || decide (p.seqNr = fb.highestSeqNr) }
  else p

def markSlot (fb : IncomingFeedback) (m : Marking) (n : Nat) : Marking :=
  let p := m.txPackets n
  let m := { m with
    txPackets := Function.update m.txPackets n (markPacket fb p)
    overshift := m.overshift ||
      (p.isUsed && decide (ackDiff fb.highestSeqNr p.seqNr ≤ kAckVectorBits)
        && decide (ackDiff fb.highestSeqNr p.seqNr ≥ 64)) }
  if p.isUsed ∧ p.seqNr = fb.highestSeqNr then
    { m with
      timeTxAck_us := p.timeTx_us
      rtt := m.rtt.update fb.time_us p.timeTx_us
      ackedOwd := toUnsigned 32 (fb.timestamp - p.timestamp) }
  else m

/-! ## `detectLoss` -/

structure Detection where
  txPackets : Ring
  bytesInFlight : Int
  bytesNewlyAcked : Nat
  bytesAcked : Nat
  bytesLost : Nat
  lossEvent : Bool
  repairLoss : Bool
  /-- The cells and sizes of the packets counted in `bytesLost`. -/
  lost : List (Nat × Nat)
  /-- `bytesInFlight` was negative before it was set to 0. -/
  clamped : Bool

/-- A packet is counted as lost and taken out of the ring. -/
def Detection.lose (d : Detection) (raises : Bool) (n : Nat) : Detection :=
  let p := d.txPackets n
  { d with
    txPackets := Function.update d.txPackets n { p with isUsed := false }
    lossEvent := d.lossEvent || raises
    bytesLost := d.bytesLost + p.size
    repairLoss := true
    lost := d.lost ++ [(n, p.size)] }

/-- One turn over the packets "outside the 64 bit ACK vector range". -/
def sweepSlot (raises : Bool) (d : Detection) (n : Nat) : Detection :=
  if (d.txPackets n).isUsed then d.lose raises n else d

/-- `seqNrExt <= highestSeqNrExt` -/
def beforeEdge (highestSeqNr seqNr : BitVec 16) : Bool :=
  let seqNrExt := seqNr.toNat
  let highestSeqNrExt := highestSeqNr.toNat
  if seqNrExt < highestSeqNrExt ∧ highestSeqNrExt - seqNrExt > 20000 then
    decide (seqNrExt + 65536 ≤ highestSeqNrExt)
  else if seqNrExt > highestSeqNrExt ∧ seqNrExt - highestSeqNrExt > 20000 then
    decide (seqNrExt ≤ highestSeqNrExt + 65536)
  else decide (seqNrExt ≤ highestSeqNrExt)

/-- The packet passes the received edge. -/
def Detection.passEdge (d : Detection) (highestSeqNr : BitVec 16) (n : Nat) : Detection :=
  let p := d.txPackets n
  if beforeEdge highestSeqNr p.seqNr ∧ p.isAfterReceivedEdge = false then
    { d with
      bytesNewlyAcked := d.bytesNewlyAcked + p.size
      bytesInFlight := max 0 (d.bytesInFlight - p.size)
      clamped := d.clamped || decide (d.bytesInFlight - p.size < 0)
      bytesAcked := d.bytesAcked + p.size
      txPackets := Function.update d.txPackets n { p with isAfterReceivedEdge := true } }
  else d

/-- `tmp->timeTx_us + kReorderTime_us < stream->timeTxAck_us` -/
def isLate (timeTxAck_us : Nat) (p : Transmitted) : Bool :=
  decide (toUnsigned 64 (p.timeTx_us + kReorderTime_us : Nat) < timeTxAck_us)

/-- One turn over the late packets. -/
def scanSlot (highestSeqNr : BitVec 16) (timeTxAck_us : Nat) (raises : Bool) (d : Detection)
    (n : Nat) : Detection :=
  if (d.txPackets n).isUsed then
    let d := d.passEdge highestSeqNr n
    let p := d.txPackets n
    if isLate timeTxAck_us p ∧ p.isAcked = false then d.lose raises n
    else if p.isAcked then
      { d with txPackets := Function.update d.txPackets n { p with isUsed := false } }
    else d
  else d

namespace ScreamTx

def new (lossBetaBelowOne : Bool) : ScreamTx where
  lossBetaBelowOne := lossBetaBelowOne
  isInitialized := false
  streams := []
  bytesInFlight := 0
  bytesNewlyAcked := 0
  lossEvent := false
  ecnCeEvent := false
  rtt := ⟨0, 0, 0⟩
  ackedOwd := 0
  lastLossEventT_us := 0
  lastTransmitT_us := 0
  lastRateUpdateT_us := 0
  lastCwndUpdateT_us := 0

/-- `if (!isInitialized) initialize(time_us);` -/
def ensureInitialized (s : ScreamTx) (time_us : Nat) : ScreamTx :=
  if s.isInitialized then s else
    { s with
      isInitialized := true
      rtt := { s.rtt with lastSRttUpdateT_us := time_us }
      lastLossEventT_us := time_us
      lastTransmitT_us := time_us
      lastRateUpdateT_us := time_us }

/-- There is room for `kMaxStreams` streams. -/
def registerNewStream (s : ScreamTx) (ssrc : BitVec 32) : Option ScreamTx :=
  if s.streams.length < kMaxStreams then
    some { s with streams := s.streams ++ [.new ssrc] }
  else none

/-- `getStream`, with the position of the stream. -/
def getStream (s : ScreamTx) (ssrc : BitVec 32) : Option (Nat × TxStream) :=
  (s.streams.findIdx? fun stream => stream.ssrc == ssrc).bind fun i =>
    s.streams[i]?.map fun stream => (i, stream)

def setStream (s : ScreamTx) (i : Nat) (stream : TxStream) : ScreamTx :=
  { s with streams := s.streams.set i stream }

/-- The part of `newMediaFrame` that is not about rates: `updateTargetBitrate` clears the
flags of the events. -/
def newMediaFrame (s : ScreamTx) (time_us : Nat) (ssrc : BitVec 32) : Option ScreamTx :=
  let s := s.ensureInitialized time_us
  (s.getStream ssrc).map fun found =>
    s.setStream found.1 { found.2 with lossEventFlag := false, ecnCeEventFlag := false }

/-- The interval is longer while the rate of acknowledged bytes is low. -/
def rateUpdateInterval (slow : Bool) : Nat :=
  if slow then 2 * kRateUpdateInterval_us else kRateUpdateInterval_us

/-- `updateRate` of every stream, when it is due. -/
def updateRates (s : ScreamTx) (time_us : Nat) (slow : Bool) : ScreamTx :=
  if timeSince time_us s.lastRateUpdateT_us > rateUpdateInterval slow then
    { s with
      lastRateUpdateT_us := time_us
      streams := s.streams.map fun stream =>
        { stream with bytesTransmitted := 0, bytesAcked := 0, bytesLost := 0 } }
  else s

/-- `isOkToTransmit` up to its return value. The stream is the one of
`getPrioritizedStream`, if it has a packet to send. -/
def isOkToTransmit (s : ScreamTx) (time_us : Nat) (slow : Bool) (prioritized : Option Nat) :
    Option ScreamTx :=
  let s := (s.ensureInitialized time_us).updateRates time_us slow
  match prioritized with
  | none => some s
  | some i => do
      let stream ← s.streams[i]?
      if timeSince time_us s.lastTransmitT_us > 500000 ∧ s.lastTransmitT_us < time_us then
        return { s.setStream i stream.clearTxPackets with bytesInFlight := 0 }
      else return s

/-- `addTransmitted`; `none` if there is no such stream. -/
def addTransmitted (s : ScreamTx) (time_us : Nat) (ssrc : BitVec 32) (size : Nat)
    (seqNr : BitVec 16) : Option ScreamTx := do
  let s := s.ensureInitialized time_us
  let (i, stream) ← s.getStream ssrc
  let ix := seqNr.toNat % kMaxTxPackets
  let collides := (stream.txPackets ix).isUsed
  let cleared := if collides then stream.clearTxPackets else stream
  let txPacket : Transmitted :=
    { timeTx_us := time_us
      timestamp := toUnsigned 32 (time_us / 1000 : Nat)
      size := size
      seqNr := seqNr
      isUsed := true
      isAcked := false
      isAfterReceivedEdge := false }
  let stream := { cleared with
    hiSeqTx := seqNr
    txPackets := Function.update cleared.txPackets ix txPacket
    bytesTransmitted := cleared.bytesTransmitted + size }
  return { s.setStream i stream with
    bytesInFlight := (if collides then 0 else s.bytesInFlight) + size
    lastTransmitT_us := time_us }

/-- "Out of order received ACKs are ignored" -/
def ignores (stream : TxStream) (highestSeqNr : BitVec 16) : Bool :=
  decide ((highestSeqNr - stream.hiSeqAck).toNat > 65000) && decide (stream.hiSeqAck ≠ 0)
    && decide (stream.timeTxAck_us ≠ 0)

def markAcked (s : ScreamTx) (fb : IncomingFeedback) (stream : TxStream) : Marking :=
  (scanned stream.hiSeqAck fb.highestSeqNr).foldl (markSlot fb)
    { txPackets := stream.txPackets
      timeTxAck_us := stream.timeTxAck_us
      rtt := s.rtt
      ackedOwd := s.ackedOwd
      overshift := false }

/-- A lost packet raises a loss event. -/
def raisesLoss (s : ScreamTx) (time_us : Nat) (rtt : RttState) : Bool :=
  decide (timeSince time_us s.lastLossEventT_us > rtt.sRtt_us) && s.lossBetaBelowOne

def detectLoss (s : ScreamTx) (fb : IncomingFeedback) (stream : TxStream) (marked : Marking) :
    Detection :=
  let raises := s.raisesLoss fb.time_us marked.rtt
  let d := (swept stream.lastLossDetectIx stream.hiSeqAck).foldl (sweepSlot raises)
    { txPackets := marked.txPackets
      bytesInFlight := s.bytesInFlight
      bytesNewlyAcked := s.bytesNewlyAcked
      bytesAcked := stream.bytesAcked
      bytesLost := stream.bytesLost
      lossEvent := s.lossEvent
      repairLoss := stream.repairLoss
      lost := []
      clamped := false }
  (scanned stream.hiSeqAck fb.highestSeqNr).foldl
    (scanSlot fb.highestSeqNr marked.timeTxAck_us raises) d

/-- The part of `updateCwnd` that is not about the window. -/
def updateCwnd (s : ScreamTx) : ScreamTx :=
  { s with
    lossEvent := false
    ecnCeEvent := s.lossEvent && s.ecnCeEvent
    bytesNewlyAcked := 0 }

/-- All streams learn of a congestion event. -/
def noteEvents (s : ScreamTx) (time_us : Nat) : ScreamTx :=
  if s.lossEvent || s.ecnCeEvent then
    { s with
      lastLossEventT_us := time_us
      streams := s.streams.map (TxStream.noteEvent s.lossEvent) }
  else s

/-- The end of `incomingFeedback`: congestion events and the update of the window. -/
def handleEvents (s : ScreamTx) (time_us : Nat) : ScreamTx :=
  let s := s.noteEvents time_us
  let lastCwndUpdateT_us := if s.lastCwndUpdateT_us = 0 then time_us else s.lastCwndUpdateT_us
  if timeSince time_us lastCwndUpdateT_us > 10000 then
    { s.updateCwnd with lastCwndUpdateT_us := time_us }
  else { s with lastCwndUpdateT_us := lastCwndUpdateT_us }

/-- `incomingFeedback`, if the stream is known and the feedback is not ignored. -/
def applyFeedback (s : ScreamTx) (fb : IncomingFeedback) (i : Nat) (stream : TxStream) :
    ScreamTx :=
  let marked := s.markAcked fb stream
  let d := s.detectLoss fb stream marked
  let ecnCe := decide (fb.ecnCeMarkedBytes ≠ stream.ecnCeMarkedBytes) &&
    decide (timeSince fb.time_us s.lastLossEventT_us > marked.rtt.sRtt_us)
  let s := s.setStream i { stream with
    txPackets := d.txPackets
    hiSeqAck := fb.highestSeqNr
    lastLossDetectIx := firstIx stream.hiSeqAck
    timeTxAck_us := marked.timeTxAck_us
    bytesAcked := d.bytesAcked
    bytesLost := d.bytesLost
    repairLoss := d.repairLoss
    ecnCeMarkedBytes := fb.ecnCeMarkedBytes }
  handleEvents { s with
    bytesInFlight := d.bytesInFlight
    bytesNewlyAcked := d.bytesNewlyAcked
    lossEvent := d.lossEvent
    ecnCeEvent := s.ecnCeEvent || ecnCe
    lastLossEventT_us := if ecnCe then fb.time_us else s.lastLossEventT_us
    rtt := marked.rtt
    ackedOwd := marked.ackedOwd } fb.time_us

/-- The stream that a feedback is about, if the feedback is not ignored. -/
def accepts (s : ScreamTx) (fb : IncomingFeedback) : Option (Nat × TxStream) :=
  ((s.ensureInitialized fb.time_us).getStream fb.ssrc).filter fun found =>
    !ignores found.2 fb.highestSeqNr

def incomingFeedback (s : ScreamTx) (fb : IncomingFeedback) : ScreamTx :=
  match s.accepts fb with
  | none => s.ensureInitialized fb.time_us
  | some (i, stream) => (s.ensureInitialized fb.time_us).applyFeedback fb i stream

/-- `getTargetBitrate` asks for a refresh once. -/
def getTargetBitrate (s : ScreamTx) (ssrc : BitVec 32) : Option ScreamTx :=
  (s.getStream ssrc).map fun found => s.setStream found.1 { found.2 with repairLoss := false }

end ScreamTx

end Scream
