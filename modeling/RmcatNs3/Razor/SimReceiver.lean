import RmcatNs3.Lib.Runs
import RmcatNs3.Lib.SortedMap
import RmcatNs3.Razor.VideoCache

/-!
# The receiver of the transport

`sim_transport/sim_receiver.c`: each segment that is received leaves the list of the lost
ones, which gets those between it and the highest one so far, and goes into the video cache;
an ack tells the sender what is missing. The clock and the estimates of the session are read
once for a call. Congestion control sees the segments and has no part in this.
-/

namespace Razor

namespace SimTransport

open CountedLoop Runs SimProto

/-- `sim_loss_t`. -/
structure SimLoss where
  ts : BitVec 64
  count : Nat

/-- `sim_receiver_t`, without the congestion control. -/
structure Receiver where
  baseUid : BitVec 32
  baseSeq : BitVec 32
  maxSeq : BitVec 32
  loss : SortedMap Nat SimLoss
  lossCount : Nat
  cache : VideoCache
  ackTs : BitVec 64
  cacheTs : BitVec 64
  activeTs : BitVec 64
  actived : Bool

/-- What a call reads of the clock and of the session. -/
structure Clock where
  now : BitVec 64
  rtt : BitVec 32
  rttVar : BitVec 32

/-- `sim_segment_ack_t`, with the entries of `nack` that are set. -/
structure SegmentAck where
  basePacketId : BitVec 32
  ackedPacketId : BitVec 32
  nack : List (BitVec 16)
  deriving DecidableEq, Repr

def ackRealTime : BitVec 64 := 20
def ackHbTime : BitVec 64 := 200

/-- `SU_MIN`. -/
def suMin (a b : BitVec 32) : BitVec 32 := if a < b then a else b

namespace VideoCache

/-- The loop of `reset_real_video_cache`. -/
def cleanAll (c : VideoCache) : VideoCache := (List.finRange cacheSize).foldl clean c

/-- What `reset_real_video_cache` sets behind that loop. -/
def restart (clock : Clock) (c : VideoCache) : VideoCache :=
  { c with
    minSeq := 0
    minFid := 0
    maxFid := 0
    playTs := 0
    frameTs := 0
    maxTs := 100
    frameTimer := 100
    f := .normal
    playing := false
    waitTimer := suMax 100 (clock.rtt + 2 * clock.rttVar) }

/-- `reset_real_video_cache`. -/
def reset (clock : Clock) (c : VideoCache) : VideoCache := c.cleanAll.restart clock

end VideoCache

namespace Receiver

/-- `sim_receiver_create`. -/
def new (clock : Clock) : Receiver where
  baseUid := 0
  baseSeq := 0
  maxSeq := 0
  loss := .empty
  lossCount := 0
  cache := .new clock.rtt clock.rttVar
  ackTs := 0
  cacheTs := clock.now
  activeTs := 0
  actived := false

/-- `sim_receiver_reset`. -/
def reset (clock : Clock) (r : Receiver) : Receiver :=
  { r with
    cache := r.cache.reset clock
    loss := .empty
    baseUid := 0
    baseSeq := 0
    actived := false
    maxSeq := 0
    ackTs := clock.now
    activeTs := clock.now
    lossCount := 0 }

/-- `sim_receiver_active`. -/
def active (uid : BitVec 32) (clock : Clock) (r : Receiver) : Receiver :=
  if r.actived then r
  else
    { r with
      actived := true
      cache := { r.cache with frameTimer := 50 }
      baseUid := uid
      activeTs := clock.now }

/-- `sim_receiver_update_loss`, which has no result if its loop does not end. -/
def updateLoss (clock : Clock) (r : Receiver) (seq : BitVec 32) : Option Receiver :=
  (forLoop (fun i _ => decide (i < seq))
    (fun i (loss : SortedMap Nat SimLoss) =>
      loss.insert i.toNat ⟨clock.now - (clock.rtt / 2).setWidth 64, 0⟩)
    (r.maxSeq + 1) (r.loss.erase seq.toNat)).map fun ended => { r with loss := ended.2 }

/-! ## Acknowledgements -/

/-- What the loop of `video_real_ack` over the lost packets changes. -/
structure NackScan where
  loss : SortedMap Nat SimLoss
  nack : List (BitVec 16)
  lossCount : Nat
  maxCount : Nat

/-- A packet is asked for again. -/
def asksFor (clock : Clock) (scan : NackScan) (l : SimLoss) : Bool :=
  let spaceFactor := suMin 2 (BitVec.ofNat 32 (l.count / 2 + 1)) * (clock.rtt + clock.rttVar)
  decide (l.ts + spaceFactor.setWidth 64 ≤ clock.now) && decide (l.count < 30) &&
    decide (scan.nack.length < SimProto.nackNum)

/-- The body of that loop. -/
def scanLoss (clock : Clock) (baseSeq : BitVec 32) (scan : NackScan) (entry : Nat × SimLoss) :
    NackScan :=
  if entry.1 ≤ baseSeq.toNat then scan
  else if asksFor clock scan entry.2 then
    { loss := scan.loss.modify entry.1 fun l => ⟨clock.now, l.count + 1⟩
      nack := scan.nack ++ [(BitVec.ofNat 32 entry.1 - baseSeq).setWidth 16]
      lossCount := scan.lossCount + 1
      maxCount := max scan.maxCount (entry.2.count + 1) }
  else { scan with maxCount := max scan.maxCount entry.2.count }

/-- The part of `video_real_ack` that moves the base up to the cache, which has no result if
its loop does not end. -/
def advanceBase (r : Receiver) : Option Receiver :=
  if r.baseSeq < r.cache.minSeq then
    (forLoop (fun key _ => decide (key ≤ r.cache.minSeq))
      (fun key (loss : SortedMap Nat SimLoss) => loss.erase key.toNat)
      (r.baseSeq + 1) r.loss).map fun ended =>
        { r with loss := ended.2, baseSeq := r.cache.minSeq }
  else some r

/-- The part of `video_real_ack` that adapts the time in the cache to the retransmissions. -/
def adaptWait (clock : Clock) (maxCount : Nat) (r : Receiver) : Receiver :=
  if 1 < maxCount then
    let delay := BitVec.ofNat 32 (maxCount + 8) * (clock.rtt + clock.rttVar) / 8
    let waitTimer := if r.cache.waitTimer < delay then suMin delay 3000 else r.cache.waitTimer
    { r with cache := { r.cache with waitTimer := suMax r.cache.frameTimer waitTimer } }
  else r

/-- It is time for an ack, or for one of the heartbeat. -/
def ackDue (clock : Clock) (hb : Bool) (r : Receiver) : Bool :=
  !hb && decide (r.ackTs + ackRealTime < clock.now) || decide (r.ackTs + ackHbTime < clock.now)

/-- `video_real_ack`, and the ack that it sends. -/
def videoRealAck (clock : Clock) (hb : Bool) (seq : BitVec 32) (r : Receiver) :
    Option (Receiver × Option SegmentAck) :=
  if r.ackDue clock hb then
    match r.advanceBase with
    | none => none
    | some r =>
        let scan := r.loss.toList.foldl (scanLoss clock r.baseSeq) ⟨r.loss, [], r.lossCount, 0⟩
        let r := { r with loss := scan.loss, lossCount := scan.lossCount, ackTs := clock.now }
        some (r.adaptWait clock scan.maxCount, some ⟨r.baseSeq, seq, scan.nack⟩)
  else some (r, none)

/-! ## Calls -/

/-- The segments that `sim_receiver_put` does not look at. -/
def ignores (r : Receiver) (seg : SimSegment) : Bool :=
  (decide (r.maxSeq = 0) && decide (seg.ftype = 0)) || !r.actived ||
    decide (seg.packetId ≤ r.baseSeq)

/-- The base that the first segment sets. -/
def start (r : Receiver) (seg : SimSegment) : Receiver :=
  if r.maxSeq = 0 ∧ seg.index.setWidth 32 < seg.packetId then
    { r with
      maxSeq := seg.packetId - seg.index.setWidth 32 - 1
      baseSeq := seg.packetId - seg.index.setWidth 32 - 1 }
  else r

/-- The end of `sim_receiver_put`, for a segment that the cache has taken. -/
def taken (clock : Clock) (r : Receiver) (seq : BitVec 32) :
    Option (Receiver × Option SegmentAck) :=
  { r with
    baseSeq := if seq = r.baseSeq + 1 then seq else r.baseSeq
    maxSeq := suMax r.maxSeq seq }.videoRealAck clock false seq

/-- `sim_receiver_put`, and the ack that it sends. -/
def put (clock : Clock) (seg : SimSegment) (r : Receiver) :
    Except Fault (Receiver × Option SegmentAck) :=
  if r.ignores seg then .ok (r, none)
  else
    match (r.start seg).updateLoss clock seg.packetId with
    | none => .error .endless
    | some r =>
        match r.cache.put seg with
        | .error fault => .error fault
        | .ok (cache, false) => .ok ({ r with cache }, none)
        | .ok (cache, true) =>
            match { r with cache }.taken clock seg.packetId with
            | none => .error .endless
            | some result => .ok result

/-- `sim_receiver_get`: the frame, if it returned zero. -/
def get (scaled : Speed → BitVec 64 → BitVec 32) (now : BitVec 64) (bufferSize : Nat)
    (r : Receiver) : Except Fault (Receiver × Option VideoCache.Delivery) :=
  if r.actived then
    (r.cache.get scaled now bufferSize).map fun result => ({ r with cache := result.1 }, result.2)
  else .ok (r, none)

/-- The part of `sim_receiver_timer` that lets the time in the cache go down. -/
def lowerWait (clock : Clock) (nowTs : BitVec 64) (r : Receiver) : Receiver :=
  if r.cacheTs + (suMax (clock.rtt + clock.rttVar) 1000).setWidth 64 < nowTs then
    let waitTimer :=
      if r.lossCount = 0 then suMax (r.cache.waitTimer * 7 / 8) r.cache.frameTimer
      else if 2 * (clock.rtt + clock.rttVar) < r.cache.waitTimer then
        suMax (r.cache.waitTimer * 15 / 16) r.cache.frameTimer
      else r.cache.waitTimer
    { r with cache := { r.cache with waitTimer }, cacheTs := clock.now, lossCount := 0 }
  else r

/-- `sim_receiver_timer`, and the ack that it sends. -/
def timer (clock : Clock) (nowTs : BitVec 64) (r : Receiver) :
    Option (Receiver × Option SegmentAck) :=
  (r.videoRealAck clock true 0).map fun result => (result.1.lowerWait clock nowTs, result.2)

/-! ## Steps -/

/-- The segment that `process_sim_seg` reads from a datagram, into the block that `malloc`
returns. -/
def received (block : SimSegment) (strm : BinStream) : Option SimSegment := do
  let ((headerRet, header), strm) ← simDecodeHeader strm ⟨0, 0, 0⟩
  let ((ret, body), _) ← simDecodeMsg strm header (.seg block)
  match body with
  | .seg seg => if headerRet = 0 ∧ ret = 0 then some seg else none
  | _ => none

inductive Input where
  | put (clock : Clock) (seg : SimSegment)
  | get (now : BitVec 64) (bufferSize : Nat)
  | timer (clock : Clock) (nowTs : BitVec 64)
  | active (uid : BitVec 32) (clock : Clock)
  | reset (clock : Clock)

/-- A call, and the ack that it sends. -/
def call (scaled : Speed → BitVec 64 → BitVec 32) (r : Receiver) :
    Input → Except Fault (Receiver × Option SegmentAck)
  | .put clock seg => r.put clock seg
  | .get now bufferSize => (r.get scaled now bufferSize).map fun result => (result.1, none)
  | .timer clock nowTs =>
      match r.timer clock nowTs with
      | none => .error .endless
      | some result => .ok result
  | .active uid clock => .ok (r.active uid clock, none)
  | .reset clock => .ok (r.reset clock, none)

/-- A call that returns. -/
def Step (scaled : Speed → BitVec 64 → BitVec 32) (r : Receiver) (e : Input) (r' : Receiver) :
    Prop :=
  ∃ ack, r.call scaled e = .ok (r', ack)

/-! ## What `sim_receiver_put` does -/

variable {clock : Clock} {r r' : Receiver}

theorem cache_updateLoss {seq : BitVec 32} (h : r.updateLoss clock seq = some r') :
    r'.cache = r.cache := by
  obtain ⟨ended, _, rfl⟩ := Option.map_eq_some_iff.mp h
  rfl

theorem cache_start (seg : SimSegment) : (r.start seg).cache = r.cache := by
  rw [start]
  split <;> rfl

/-- The loop of `sim_receiver_update_loss` is tested with `<`. -/
theorem updateLoss_isSome (r : Receiver) (clock : Clock) (seq : BitVec 32) :
    (r.updateLoss clock seq).isSome := by
  rw [updateLoss, Option.isSome_map]
  exact forLoop_isSome_of_lt (fun _ _ hmore => of_decide_eq_true hmore) _ _

/-- The ways that `sim_receiver_put` may go; `r₁` is the receiver with its list of lost
packets brought up to the segment. -/
inductive PutResult (clock : Clock) (r : Receiver) (seg : SimSegment) :
    Except Fault (Receiver × Option SegmentAck) → Prop
  | ignored (hignores : r.ignores seg = true) : PutResult clock r seg (.ok (r, none))
  | fault {fault : Fault} (hignores : r.ignores seg = false)
      (hput : r.cache.put seg = .error fault) : PutResult clock r seg (.error fault)
  | rejected {r₁ : Receiver} {cache : VideoCache} (hignores : r.ignores seg = false)
      (hloss : (r.start seg).updateLoss clock seg.packetId = some r₁)
      (hput : r.cache.put seg = .ok (cache, false)) :
      PutResult clock r seg (.ok ({ r₁ with cache }, none))
  | endless {r₁ : Receiver} {cache : VideoCache} (hignores : r.ignores seg = false)
      (hput : r.cache.put seg = .ok (cache, true))
      (htaken : { r₁ with cache }.taken clock seg.packetId = none) :
      PutResult clock r seg (.error .endless)
  | taken {r₁ : Receiver} {cache : VideoCache} {result : Receiver × Option SegmentAck}
      (hignores : r.ignores seg = false)
      (hloss : (r.start seg).updateLoss clock seg.packetId = some r₁)
      (hput : r.cache.put seg = .ok (cache, true))
      (htaken : { r₁ with cache }.taken clock seg.packetId = some result) :
      PutResult clock r seg (.ok result)

theorem put_result (clock : Clock) (r : Receiver) (seg : SimSegment) :
    PutResult clock r seg (r.put clock seg) := by
  rw [put]
  cases hignores : r.ignores seg with
  | true => exact .ignored hignores
  | false =>
      obtain ⟨r₁, hloss⟩ := Option.isSome_iff_exists.mp
        ((r.start seg).updateLoss_isSome clock seg.packetId)
      have hcache : r₁.cache = r.cache := (cache_updateLoss hloss).trans (cache_start seg)
      rw [if_neg Bool.false_ne_true, hloss]
      dsimp only
      rw [hcache]
      split
      · exact .fault hignores ‹_›
      · exact .rejected hignores hloss ‹_›
      · rename_i hput
        split
        · exact .endless hignores hput ‹_›
        · exact .taken hignores hloss hput ‹_›

/-! ## Runs -/

/-- The state after a call that returns. -/
def step? (scaled : Speed → BitVec 64 → BitVec 32) (r : Receiver) (e : Input) :
    Option Receiver :=
  (r.call scaled e).toOption.map (·.1)

theorem step_of_step? {scaled : Speed → BitVec 64 → BitVec 32} {r r' : Receiver} {e : Input}
    (h : r.step? scaled e = some r') : Step scaled r e r' := by
  obtain ⟨result, hcall, rfl⟩ := Option.map_eq_some_iff.mp h
  exact ⟨result.2, ok_of_toOption hcall⟩

theorem run_of_foldlM {scaled : Speed → BitVec 64 → BitVec 32} {r₀ r : Receiver}
    {es : List Input} (h : es.foldlM (step? scaled) r₀ = some r) : Run (Step scaled) r₀ es r :=
  (Run.of_foldlM h).mono fun _ _ _ => step_of_step?

end Receiver

end SimTransport

end Razor
