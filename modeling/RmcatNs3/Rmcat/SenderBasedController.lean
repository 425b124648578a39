import Mathlib.Data.BitVec

/-!
# The sender-based controller

`nada/ns3-rmcat/model/congestion-control/sender-based-controller.{h,cc}`:
the bookkeeping every rmcat controller shares. Packets wait in
`inTransitPackets` until their feedback arrives, then move to
`packetHistory`, a window over the send times from which the delay, loss
and rate metrics are computed.

A failed `assert`, or `front()`/`back()` of an empty deque, is an `Abort`.
The controller's identity and its log callback are left out: no function
below reads them. Deques are lists, front first.
-/

namespace Rmcat

/-! ## Single-precision arithmetic

No assertion depends on a `float`, so the arithmetic is a parameter; the
instance the program runs with is `Float32`. -/

/-- The operations on `float` that the controllers use. -/
class FloatOps (F : Type)
    extends Add F, Sub F, Mul F, Div F, Neg F, OfScientific F where
  ofNat : Nat → F
  lt : F → F → Bool
  exp : F → F

instance : FloatOps Float32 where
  ofNat := Float32.ofNat
  lt a b := decide (a < b)
  exp := Float32.exp

/-- `std::min`. -/
def fmin {F : Type} [FloatOps F] (a b : F) : F := if FloatOps.lt b a then b else a

/-- `std::max`. -/
def fmax {F : Type} [FloatOps F] (a b : F) : F := if FloatOps.lt a b then b else a

/-! ## Data -/

/-- Where the program stops: one constructor per assertion, named after
what it asserts, and `emptyDeque` for `front()`, `back()` or `[0]` of an
empty deque. -/
inductive Abort where
  | emptyDeque
  | inTransitEndsAtLast
  | packetIsSequence
  | owdIsZero
  | rttIsZero
  | sequenceAfterExpected
  | historyTimestampsInOrder
  | sizeSumCoversFirst
  | seqSpanCoversHistory
  | rxTimestampsInOrder
  | sizeSumCoversFront
  | intervalCountInRange
  | clockInOrder
  deriving DecidableEq, Repr

/-- `assert(c)`. -/
def assert (c : Prop) [Decidable c] (e : Abort) : Except Abort Unit :=
  if c then .ok () else .error e

def minPacketLoglen : Nat := 5
def maxInterPacketTime : BitVec 64 := 500
def defaultHistoryLength : BitVec 64 := 500

/-- `SenderBasedController::PacketRecord`. -/
structure PacketRecord where
  sequence : BitVec 32
  txTimestamp : BitVec 64
  size : BitVec 32
  owd : BitVec 64
  rtt : BitVec 64
  deriving DecidableEq, Repr

/-- The receive time a record stands for: `txTimestamp + owd`. -/
def PacketRecord.rxTimestamp (p : PacketRecord) : BitVec 64 :=
  p.txTimestamp + p.owd

structure InterLossState where
  intervals : List (BitVec 32)
  expectedSeq : BitVec 32
  initialized : Bool
  deriving DecidableEq, Repr

/-- `InterLossState::InterLossState`. -/
def InterLossState.new : InterLossState where
  intervals := [0]
  expectedSeq := 0
  initialized := false

/-- The update of `updateInterLossData` for a packet that has arrived. -/
def InterLossState.update (il : InterLossState) (sequence : BitVec 32) :
    Except Abort InterLossState :=
  if sequence = il.expectedSeq then
    match il.intervals with
    | [] => .error .emptyDeque
    | i :: rest => .ok { il with
        intervals := (i + 1) :: rest
        expectedSeq := il.expectedSeq + 1 }
  else do
    -- plain comparison: the one place that does not use `lessThan`
    assert (sequence > il.expectedSeq) .sequenceAfterExpected
    let intervals := 1 :: il.intervals
    .ok { intervals := if intervals.length > 9 then intervals.dropLast else intervals
          expectedSeq := sequence + 1
          initialized := true }

structure SenderBasedController (F : Type) where
  firstSend : Bool
  lastSequence : BitVec 32
  baseDelay : BitVec 64
  inTransitPackets : List PacketRecord
  packetHistory : List PacketRecord
  pktSizeSum : BitVec 32
  initBw : F
  minBw : F
  maxBw : F
  ilState : InterLossState
  historyLengthMs : BitVec 64

variable {F : Type}

/-- A "less than" operator for unsigned integers that supports wrapping. -/
def lessThan {w : Nat} (lhs rhs : BitVec w) : Bool :=
  decide (rhs - lhs < lhs - rhs)

namespace SenderBasedController

/-- `SenderBasedController::SenderBasedController`. -/
def new [FloatOps F] : SenderBasedController F where
  firstSend := true
  lastSequence := 0
  baseDelay := 0
  inTransitPackets := []
  packetHistory := []
  pktSizeSum := 0
  initBw := 150000.0
  minBw := 150000.0
  maxBw := 3000000.0
  ilState := .new
  historyLengthMs := defaultHistoryLength

def setHistoryLength (s : SenderBasedController F) (lenMs : BitVec 64) :
    SenderBasedController F :=
  { s with historyLengthMs := lenMs }

def setInitBw (s : SenderBasedController F) (initBw : F) : SenderBasedController F :=
  { s with initBw }

def setMinBw (s : SenderBasedController F) (minBw : F) : SenderBasedController F :=
  { s with minBw }

def setMaxBw (s : SenderBasedController F) (maxBw : F) : SenderBasedController F :=
  { s with maxBw }

/-- `SenderBasedController::reset`. -/
def reset [FloatOps F] (s : SenderBasedController F) : SenderBasedController F :=
  { s with
    firstSend := true
    lastSequence := 0
    baseDelay := 0
    inTransitPackets := []
    packetHistory := []
    pktSizeSum := 0
    initBw := 150000.0
    minBw := 150000.0
    maxBw := 3000000.0
    ilState := .new
    historyLengthMs := defaultHistoryLength }

/-! ## Sending -/

/-- The memory-safety loop of `processSendPacket`: in-transit packets stay
within `10 * MAX_INTER_PACKET_TIME` of the newest one. -/
def evictStale (txTimestamp : BitVec 64) :
    List PacketRecord → Except Abort (List PacketRecord)
  | [] => .error .emptyDeque
  | p :: rest =>
      if lessThan (p.txTimestamp + 10 * maxInterPacketTime) txTimestamp then
        evictStale txTimestamp rest
      else .ok (p :: rest)

def processSendPacket (s : SenderBasedController F) (txTimestamp : BitVec 64)
    (sequence size : BitVec 32) :
    Except Abort (Bool × SenderBasedController F) :=
  let s := if s.firstSend then
      { s with lastSequence := sequence - 1, firstSend := false } else s
  let s := { s with lastSequence := s.lastSequence + 1 }
  -- the counter has already moved when the number turns out to be wrong
  if sequence ≠ s.lastSequence then .ok (false, s)
  else
    let record : PacketRecord :=
      { sequence := s.lastSequence, txTimestamp, size, owd := 0, rtt := 0 }
    match evictStale txTimestamp (s.inTransitPackets ++ [record]) with
    | .error e => .error e
    | .ok queue => .ok (true, { s with inTransitPackets := queue })

/-! ## Feedback -/

/-- The loop that removes in-transit packets older than `sequence`. -/
def discardOlder (sequence : BitVec 32) :
    List PacketRecord → Except Abort (List PacketRecord)
  | [] => .error .emptyDeque
  | p :: rest =>
      if lessThan p.sequence sequence then discardOlder sequence rest
      else .ok (p :: rest)

def updateInterLossData (s : SenderBasedController F) (packet : PacketRecord) :
    Except Abort (SenderBasedController F) := do
  let il := if s.packetHistory.isEmpty then
      { InterLossState.new with expectedSeq := packet.sequence } else s.ilState
  let il ← il.update packet.sequence
  .ok { s with ilState := il }

/-- The garbage collection of `processFeedback`: records at least
`historyLengthMs` older than the newest one leave, and so do their sizes. -/
def collectHistory (lastTimestamp historyLengthMs : BitVec 64) :
    List PacketRecord → BitVec 32 → Except Abort (List PacketRecord × BitVec 32)
  | [], _ => .error .emptyDeque
  | p :: rest, sum => do
      assert (¬ lessThan lastTimestamp p.txTimestamp) .historyTimestampsInOrder
      if lessThan lastTimestamp (p.txTimestamp + historyLengthMs) then
        .ok (p :: rest, sum)
      else do
        assert (sum ≥ p.size) .sizeSumCoversFirst
        collectHistory lastTimestamp historyLengthMs rest (sum - p.size)

/-- "It's been too long without receiving any feedback packet": the history
is obsolete when `packet` was sent more than `MAX_INTER_PACKET_TIME` after
its newest record. -/
def dropObsolete (s : SenderBasedController F) (packet : PacketRecord) :
    SenderBasedController F :=
  match s.packetHistory.getLast? with
  | none => s
  | some lastPacket =>
      if lessThan (lastPacket.txTimestamp + maxInterPacketTime)
          packet.txTimestamp then
        { s with packetHistory := [], pktSizeSum := 0 }
      else s

/-- Whether `packet` was sent before the newest record of the history. -/
def decreasingTimestamp (s : SenderBasedController F) (packet : PacketRecord) :
    Bool :=
  match s.packetHistory.getLast? with
  | none => false
  | some lastPacket => lessThan packet.txTimestamp lastPacket.txTimestamp

/-- The part of `processFeedback` that files the matched packet: the delays,
the base delay, the loss intervals, the history and its garbage collection. -/
def recordFeedback (s : SenderBasedController F) (packet : PacketRecord)
    (now rxTimestamp : BitVec 64) : Except Abort (SenderBasedController F) := do
  assert (packet.owd = 0) .owdIsZero
  assert (packet.rtt = 0) .rttIsZero
  -- this subtraction can wrap if clocks aren't synchronized, but it's OK
  let packet := { packet with
    owd := rxTimestamp - packet.txTimestamp
    rtt := now - packet.txTimestamp }
  let s := if s.packetHistory.isEmpty ∨ lessThan packet.owd s.baseDelay then
      { s with baseDelay := packet.owd } else s
  let s ← updateInterLossData s packet
  let (history, sum) ← collectHistory packet.txTimestamp s.historyLengthMs
    (s.packetHistory ++ [packet]) (s.pktSizeSum + packet.size)
  .ok { s with packetHistory := history, pktSizeSum := sum }

def processFeedback (s : SenderBasedController F) (now : BitVec 64)
    (sequence : BitVec 32) (rxTimestamp : BitVec 64) (_ecn : BitVec 8) :
    Except Abort (Bool × SenderBasedController F) :=
  if lessThan s.lastSequence sequence then .ok (false, s)
  else match s.inTransitPackets.getLast? with
  | none => .ok (true, s)
  | some back => do
    assert (back.sequence = s.lastSequence) .inTransitEndsAtLast
    match ← discardOlder sequence s.inTransitPackets with
    | [] => .error .emptyDeque
    | packet :: rest =>
      if lessThan sequence packet.sequence then
        .ok (true, { s with inTransitPackets := packet :: rest })
      else do
        assert (sequence = packet.sequence) .packetIsSequence
        let s := { s with inTransitPackets := rest }
        if s.decreasingTimestamp packet then .ok (false, s)
        else do
          let s ← (s.dropObsolete packet).recordFeedback packet now rxTimestamp
          .ok (true, s)

/-! ## Metrics -/

/-- The 15-tab minimum filter of `getCurrentQdelay` and `getCurrentRTT`, over
the records newest first; `none` when there is no record. -/
def filterMin (f : PacketRecord → BitVec 64) (history : List PacketRecord) :
    Option (BitVec 64) :=
  match (history.reverse.take 15).map f with
  | [] => none
  | x :: xs => some (xs.foldl (fun a b => if b < a then b else a) x)

def getCurrentQdelay (s : SenderBasedController F) : Option (BitVec 64) :=
  filterMin (fun p => p.owd - s.baseDelay) s.packetHistory

def getCurrentRTT (s : SenderBasedController F) : Option (BitVec 64) :=
  filterMin (·.rtt) s.packetHistory

/-- The loss count and loss ratio; `none` while the history is too short. -/
def getPktLossInfo [FloatOps F] (s : SenderBasedController F) :
    Except Abort (Option (BitVec 32 × F)) :=
  if s.packetHistory.length < minPacketLoglen then .ok none
  else match s.packetHistory.head?, s.packetHistory.getLast? with
  | some front, some back => do
    let seqSpan := 1 + back.sequence - front.sequence
    assert (seqSpan.toNat ≥ s.packetHistory.length) .seqSpanCoversHistory
    let nLoss := seqSpan - BitVec.ofNat 32 s.packetHistory.length
    .ok (some (nLoss, FloatOps.ofNat nLoss.toNat / FloatOps.ofNat seqSpan.toNat))
  | _, _ => .error .emptyDeque

/-- The receive rate in bits per second; `none` while the history is too
short or spans no time. -/
def getCurrentRecvRate [FloatOps F] (s : SenderBasedController F) :
    Except Abort (Option F) :=
  if s.packetHistory.length < minPacketLoglen then .ok none
  else match s.packetHistory.head?, s.packetHistory.getLast? with
  | some front, some back => do
    let firstRx := front.rxTimestamp
    let lastRx := back.rxTimestamp
    assert (lessThan firstRx (lastRx + 1)) .rxTimestampsInOrder
    let timeSpan := lastRx - firstRx
    if timeSpan = 0 then .ok none
    else do
      assert (front.size ≤ s.pktSizeSum) .sizeSumCoversFront
      let bytes := s.pktSizeSum - front.size
      .ok (some (FloatOps.ofNat (bytes * 8).toNat * 1000.0
        / FloatOps.ofNat timeSpan.toNat))
  | _, _ => .error .emptyDeque

/-- The weights of `getLossIntervalInfo`: 1, 1, 1, 1, .8, .6, .4, .2. -/
def lossWeights [FloatOps F] : List F :=
  (List.range 8).map fun i =>
    if i < 4 then 1.0 else 2.0 * FloatOps.ofNat (8 - i) / FloatOps.ofNat (8 + 2)

/-- `std::inner_product` of loss intervals and weights. -/
def weightedSum [FloatOps F] (intervals : List (BitVec 32)) : F :=
  (intervals.zip lossWeights).foldl
    (fun acc iw => acc + FloatOps.ofNat iw.1.toNat * iw.2) 0.0

/-- The average and the current inter-loss interval; `none` before the first
loss. -/
def getLossIntervalInfo [FloatOps F] (s : SenderBasedController F) :
    Except Abort (Option (F × BitVec 32)) :=
  if ¬ s.ilState.initialized then .ok none
  else do
    let k := s.ilState.intervals.length
    assert (2 ≤ k ∧ k ≤ 9) .intervalCountInRange
    match s.ilState.intervals with
    | [] => .error .emptyDeque
    | current :: older =>
      let iSum0 : F := weightedSum (current :: older).dropLast
      let iSum1 := weightedSum older
      let wSum := ((lossWeights (F := F)).take (k - 1)).foldl (· + ·) 0.0
      .ok (some (fmax iSum0 iSum1 / wSum, current))

end SenderBasedController

end Rmcat
