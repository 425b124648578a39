import RmcatNs3.Lib.EventQueue
import RmcatNs3.Lib.SortedMap
import RmcatNs3.Multipath.MpReceiver

/-!
# The multipath sender

`multipathvideo/model/mpsender.{h,cc}` and `path.{h,cc}`. A pointer to a `Path` is
the number of the object in the order in which they were made; a deleted object is
gone from the heap. Every method that asserts, or that reaches a deleted object,
returns `none` there. Routing (`IsExistPath`) and the size of a frame, a
floating-point constant, are parameters.
-/

namespace Multipath

open Razor

/-- `comp_socket`. -/
def compSocket (ls rs : Ipv4Address) : Bool := decide (ls < rs)

/-- `pace_packet_t`. -/
structure PacePacket where
  seq : BitVec 32
  retrans : BitVec 8
  len : BitVec 32
  queTs : Nat
  deriving DecidableEq, Repr

/-- `segment_ref_t`. -/
structure SegmentRef where
  seg : Segment
  ref : BitVec 8
  deriving DecidableEq, Repr

structure Path where
  info : PathAddressInfo
  pathId : BitVec 32
  minRate : BitVec 32
  maxRate : BitVec 32
  pathState : PathSession
  paceTimer : EventId
  heartBeat : EventId
  rxConEvent : EventId
  transSeq : BitVec 16
  paceQueue : List PacePacket
  lastUpdate : Nat
  byteRemaining : BitVec 32
  deriving DecidableEq, Repr

/-- The events that the sender and its paths schedule. -/
inductive PathEvent where
  | connect (path : Nat)
  | paceCallback (path : Nat)
  | fakePacket
  deriving DecidableEq, Repr

/-- The path whose method the event calls. -/
def PathEvent.owner : PathEvent → Option Nat
  | .connect path => some path
  | .paceCallback path => some path
  | .fakePacket => none

structure MpSender where
  sockets : ComparatorMap Ipv4Address Port compSocket
  paths : ComparatorMap PathAddressInfo Nat compPath
  heap : Nat → Option Path
  nextPath : Nat
  queue : EventQueue PathEvent
  generateTimer : EventId
  txBuffer : SortedMap Nat SegmentRef
  currentPacketId : Int
  packetId : BitVec 32
  frameId : BitVec 32
  cid : BitVec 32
  uid : BitVec 32
  active : Bool
  pathNum : BitVec 32
  firstTs : BitVec 32
  started : Bool
  sent : List Datagram

def fs : Nat := 40
def minRate : BitVec 32 := 80000
def maxRate : BitVec 32 := 16000000
def maxSplitPackets : Nat := 1000
def segmentSize : Nat := 1000
def paceGap : Nat := 5

/-! ## Paths -/

namespace Path

/-- `Path::Path` and `InitRate`. Memory that the constructor leaves alone holds
what it held. -/
def new (info : PathAddressInfo) (pathIndex : BitVec 32) (lastUpdate : Nat)
    (byteRemaining : BitVec 32) : Path where
  info := info
  pathId := pathIndex
  minRate := Multipath.minRate
  maxRate := Multipath.maxRate
  pathState := .idle
  paceTimer := none
  heartBeat := none
  rxConEvent := none
  transSeq := 0
  paceQueue := []
  lastUpdate := lastUpdate
  byteRemaining := byteRemaining

def addPacePacket (p : Path) (packetId : BitVec 32) (retrans : BitVec 8) (size : BitVec 32)
    (now : Nat) : Path :=
  { p with paceQueue := p.paceQueue ++ [⟨packetId, retrans, size, now⟩] }

/-- `Path::IncreaseBudget`: the gain of the first cycle is 5/4. -/
def increaseBudget (p : Path) (deltaTs : BitVec 32) : Path :=
  let byte := BitVec.ofNat 32 (5 * p.minRate.toNat * deltaTs.toNat / (4 * 1000 * 8))
  if p.byteRemaining.slt 0 then { p with byteRemaining := p.byteRemaining + byte }
  else { p with byteRemaining := byte }

def useBudget (p : Path) (bytes : BitVec 32) : Path :=
  { p with byteRemaining := p.byteRemaining - bytes }

end Path

namespace MpSender

/-- A sender whose sockets are bound to these ports. -/
def new (cid uid frameId : BitVec 32)
    (sockets : ComparatorMap Ipv4Address Port compSocket) : MpSender where
  sockets := sockets
  paths := .empty
  heap := fun _ => none
  nextPath := 0
  queue := .empty
  generateTimer := none
  txBuffer := .empty
  currentPacketId := -1
  packetId := 0
  frameId := frameId
  cid := cid
  uid := uid
  active := false
  pathNum := 0
  firstTs := -1
  started := false
  sent := []

/-- The object behind a pointer becomes this one. -/
def setPath (s : MpSender) (path : Nat) (p : Option Path) : MpSender :=
  { s with heap := fun q => if q = path then p else s.heap q }

/-- `MpSender::OnPacket`, and the end of the other methods that send. -/
def sendTo (s : MpSender) (info : PathAddressInfo) (message : SimMessage) (payload : Nat) :
    MpSender :=
  { s with sent := s.sent ++
      [⟨info.srcIp, info.destIp, info.destPort, s.uid, message, payload⟩] }

def nowMs (s : MpSender) : Nat := getMilliSeconds s.queue.now

/-! ## Adding paths -/

/-- The paths that `AddPath` makes, one for each socket with a route. -/
def addPathInfos (s : MpSender) (isExistPath : Ipv4Address → Ipv4Address → Bool)
    (destIp : Ipv4Address) (destPort : Port) : List PathAddressInfo :=
  (s.sockets.toList.filter fun b => isExistPath b.1 destIp).map fun b =>
    ⟨b.1, destIp, b.2, destPort⟩

/-- One turn of the loop of `AddPath`. A path whose address the map has already is
made, but not kept in the map. -/
def addPathTurn (lastUpdate : Nat) (byteRemaining : BitVec 32) (s : MpSender)
    (addrInfo : PathAddressInfo) : MpSender :=
  { s.setPath s.nextPath (some (.new addrInfo s.pathNum lastUpdate byteRemaining)) with
    nextPath := s.nextPath + 1
    paths := s.paths.insert addrInfo s.nextPath
    pathNum := s.pathNum + 1 }

def addPath (s : MpSender) (isExistPath : Ipv4Address → Ipv4Address → Bool)
    (destIp : Ipv4Address) (destPort : Port) (lastUpdate : Nat) (byteRemaining : BitVec 32) :
    MpSender :=
  (s.addPathInfos isExistPath destIp destPort).foldl
    (addPathTurn lastUpdate byteRemaining) s

/-- `MpSender::GetPath`. -/
def getPath (s : MpSender) (info : PathAddressInfo) : Option Nat :=
  (s.paths.find? info).map (·.2)

/-! ## Connecting -/

/-- `Path::Connect`. -/
def connect (s : MpSender) (path : Nat) : Option MpSender := do
  let p ← s.heap path
  match p.pathState with
  | .idle | .disconnected | .connecting =>
      let s := s.sendTo p.info (.connect s.cid [123]) 0
      let p := { p with pathState := .connecting, rxConEvent := s.queue.nextId }
      some { s.setPath path (some p) with
        queue := s.queue.schedule (milliSeconds 100) (.connect path) }
  | .connected => some { s with queue := s.queue.cancel p.rxConEvent }
  | .disconnecting => some s

/-- `MpSender::StartApplication`, which is `PathConnect`. The simulator starts an
application once. -/
def startApplication (s : MpSender) : Option MpSender :=
  if s.started then none
  else s.paths.values.foldlM connect { s with started := true }

/-- `Path::~Path`. -/
def deletePath (s : MpSender) (path : Nat) : MpSender :=
  match s.heap path with
  | none => s
  | some p =>
      { s.setPath path none with
        queue := (s.queue.cancel p.heartBeat).cancel p.paceTimer }

/-- `MpSender::StopApplication`. -/
def stopApplication (s : MpSender) : MpSender :=
  { s.paths.values.foldl deletePath s with paths := .empty }

/-! ## Video frames -/

/-- `MpSender::FrameSplit`. -/
def frameSplit (size : Nat) : Option (List (BitVec 16)) :=
  if size / segmentSize < maxSplitPackets then
    if size < segmentSize then some [BitVec.ofNat 16 size]
    else
      let full := List.replicate (size / segmentSize) (BitVec.ofNat 16 segmentSize)
      if 0 < size % segmentSize then
        some (full ++ [BitVec.ofNat 16 (size % segmentSize)])
      else some full
  else none

/-- The time stamp of a segment, and `m_firstTs` set by the first one. -/
def timeStamp (s : MpSender) : BitVec 32 × MpSender :=
  if s.firstTs = -1 then (0, { s with firstTs := BitVec.ofNat 32 s.nowMs })
  else (BitVec.ofNat 32 s.nowMs - s.firstTs, s)

/-- The loop of `Schedule` that files the segments of a frame. -/
def fileSegments (ftype : BitVec 8) (stamp : BitVec 32) (npacket : Nat) (i : Nat) :
    MpSender → List (BitVec 16) → MpSender
  | s, [] => s
  | s, dataSize :: rest =>
      let seg : Segment :=
        { packetId := s.packetId, fid := s.frameId, timestamp := stamp
          index := BitVec.ofNat 16 i, total := BitVec.ofNat 16 npacket, ftype, remb := 0
          -- left for `OnPacePacket` to fill in
          sendTs := 0, transportSeq := 0, dataSize }
      let s := { s with
        txBuffer := s.txBuffer.insert s.packetId.toNat { seg, ref := 0 }
        packetId := s.packetId + 1 }
      fileSegments ftype stamp npacket (i + 1) s rest

/-- The loop of `Schedule` over `m_paths`. Its argument `val` is a copy of the
entry, and only the copy counts the paths. -/
def queueOnPaths : MpSender → SegmentRef → List Nat → Option (MpSender × SegmentRef)
  | s, val, [] => some (s, val)
  | s, val, path :: rest =>
      match s.heap path with
      | none => none
      | some p =>
          if p.pathState = .connected then
            let p := p.addPacePacket val.seg.packetId 0
              (val.seg.dataSize.setWidth 32 + headerLen.setWidth 32) s.nowMs
            queueOnPaths (s.setPath path (some p)) { val with ref := val.ref + 1 } rest
          else queueOnPaths s val rest

/-- One turn of the loop of `Schedule` that queues the segments on the paths. -/
def queueTurn (s : MpSender) : Option MpSender :=
  let s := { s with currentPacketId := s.currentPacketId + 1 }
  match s.txBuffer.lookup (s.currentPacketId.toNat % 2 ^ 32) with
  | none => none
  | some val =>
      match s.queueOnPaths val s.paths.values with
      | none => none
      | some (s, _) =>
          if s.currentPacketId = 0xFFFFFFFF then some { s with currentPacketId := -1 }
          else some s

def queueSegments : Nat → MpSender → Option MpSender
  | 0, s => some s
  | n + 1, s =>
      match s.queueTurn with
      | none => none
      | some s => queueSegments n s

/-- `MpSender::Schedule`. `m_slowStart` is set, and nothing clears it. -/
def schedule (s : MpSender) (ftype : BitVec 8) (byte : BitVec 32) : Option MpSender :=
  match frameSplit byte.toNat with
  | none => none
  | some splits =>
      let (stamp, s) := s.timeStamp
      let s := fileSegments ftype stamp splits.length 0 s splits
      queueSegments splits.length s

/-- `MpSender::FakePacket`, with the size of a frame. -/
def fakePacket (s : MpSender) (frameBytes : BitVec 32) : Option MpSender :=
  if s.queue.isExpired s.generateTimer then
    match s.schedule 0 frameBytes with
    | none => none
    | some s => some { s with queue := s.queue.schedule (milliSeconds fs) .fakePacket }
  else some s

/-! ## Pacing -/

/-- `MpSender::OnPacePacket`. The entry is copied, and the copy is counted down. -/
def onPacePacket (s : MpSender) (info : PathAddressInfo) (packetId : BitVec 32)
    (seq : BitVec 16) : Option MpSender :=
  match s.txBuffer.lookup packetId.toNat with
  | none => none
  | some ref =>
      let sendTs := BitVec.ofNat 16 s.nowMs - s.firstTs.setWidth 16
        - ref.seg.timestamp.setWidth 16
      let ref : SegmentRef :=
        { seg := { ref.seg with sendTs, transportSeq := seq }, ref := ref.ref - 1 }
      let s := if ref.ref = 0 then
        { s with txBuffer := s.txBuffer.erase packetId.toNat } else s
      some (s.sendTo info (.seg ref.seg) ref.seg.dataSize.toNat)

/-- The loop of `PaceCallback`, over the packets of the queue. -/
def paceLoop : MpSender → Path → List PacePacket → Option (MpSender × Path)
  | s, p, [] => some (s, { p with paceQueue := [] })
  | s, p, ele :: rest =>
      if p.byteRemaining.slt 0 then some (s, { p with paceQueue := ele :: rest })
      else
        match s.onPacePacket p.info ele.seq p.transSeq with
        | none => none
        | some s => paceLoop s { p.useBudget ele.len with transSeq := p.transSeq + 1 } rest

/-- The loop of `OnBwProbe`. -/
def probeLoop (stamp : BitVec 32) (npacket : Nat) (i : Nat) :
    MpSender → Path → List (BitVec 16) → MpSender × Path
  | s, p, [] => (s, p)
  | s, p, split :: rest =>
      if headerLen.toNat < split.toNat then
        -- nothing sets `send_ts` of a probe
        let seg : Segment :=
          { packetId := 0, fid := 0, timestamp := stamp, index := BitVec.ofNat 16 i
            total := BitVec.ofNat 16 npacket, ftype := 0x80, remb := 0, sendTs := 0
            transportSeq := p.transSeq, dataSize := split - headerLen.setWidth 16 }
        probeLoop stamp npacket (i + 1) (s.sendTo p.info (.seg seg) seg.dataSize.toNat)
          { p with transSeq := p.transSeq + 1 } rest
      else probeLoop stamp npacket (i + 1) s p rest

/-- `MpSender::OnBwProbe`. -/
def onBwProbe (s : MpSender) (p : Path) (size : BitVec 32) : Option (MpSender × Path) :=
  match frameSplit size.toNat with
  | none => none
  | some splits =>
      let (stamp, s) := s.timeStamp
      some (probeLoop stamp splits.length 0 s p splits)

/-- The part of `PaceCallback` behind the loop: probing, in the first cycle. -/
def probe (s : MpSender) (p : Path) : Option (MpSender × Path) :=
  if p.paceQueue = [] ∧ (0 : BitVec 32).slt p.byteRemaining then
    match s.onBwProbe p p.byteRemaining with
    | none => none
    | some (s, p) => some (s, p.useBudget p.byteRemaining)
  else some (s, p)

/-- Either nothing is probed, or the loop has run on some segments. -/
theorem probe_cases {s s' : MpSender} {p p' : Path} (h : s.probe p = some (s', p')) :
    s' = s ∧ p' = p ∨
    ∃ splits, let r := probeLoop s.timeStamp.1 splits.length 0 s.timeStamp.2 p splits
      s' = r.1 ∧ p' = r.2.useBudget r.2.byteRemaining := by
  unfold probe at h
  split at h
  · right
    unfold onBwProbe at h
    cases hsplit : frameSplit p.byteRemaining.toNat with
    | none => simp [hsplit] at h
    | some splits =>
        simp only [hsplit, Option.some_inj] at h
        obtain ⟨rfl, rfl⟩ := Prod.mk.inj h
        exact ⟨splits, rfl, rfl⟩
  · obtain ⟨rfl, rfl⟩ := Prod.mk.inj (Option.some.inj h)
    exact .inl ⟨rfl, rfl⟩

/-- `Path::PaceCallback`. -/
def paceCallback (s : MpSender) (path : Nat) : Option MpSender := do
  let p ← s.heap path
  let now := s.nowMs
  let p := p.increaseBudget (BitVec.ofNat 32 now - BitVec.ofNat 32 p.lastUpdate)
  if s.queue.isExpired p.paceTimer then
    let (s, p) ← s.paceLoop p p.paceQueue
    let (s, p) ← s.probe p
    let p := { p with lastUpdate := now, paceTimer := s.queue.nextId }
    some { s.setPath path (some p) with
      queue := s.queue.schedule (milliSeconds paceGap) (.paceCallback path) }
  else some (s.setPath path (some p))

/-! ## Messages -/

/-- The `SIM_CONNECT_ACK` case of `Path::ProcessMessage`. -/
def processConnectAck (s : MpSender) (path : Nat) (p : Path) : MpSender :=
  { s.setPath path (some { p with pathState := .connected }) with
    queue := s.queue.cancel p.rxConEvent }

/-- `Path::StartPace`. -/
def startPace (s : MpSender) (path : Nat) (p : Path) : MpSender :=
  let p := { p with lastUpdate := s.nowMs, paceTimer := s.queue.nextId }
  { s.setPath path (some p) with queue := s.queue.schedule 0 (.paceCallback path) }

/-- The first `SIM_CONNECT_ACK` starts the video. -/
def activate (s : MpSender) : MpSender :=
  if s.active then s
  else { s with
    active := true
    generateTimer := s.queue.nextId
    queue := s.queue.schedule 0 .fakePacket }

/-- `MpSender::RecvPacket`. -/
def recvPacket (s : MpSender) (info : PathAddressInfo) (message : SimMessage) :
    Option MpSender := do
  let path ← s.getPath info
  let p ← s.heap path
  match message with
  | .connectAck _ _ =>
      let s := (s.processConnectAck path p).activate
      if p.pathState = .connecting then
        let p ← s.heap path
        some (s.startPace path p)
      else some s
  | .ping ts => some (s.sendTo p.info (.pong ts) 0)
  | _ => some s

/-! ## Steps -/

/-- What a sender meets, each at some time. -/
inductive Input where
  | addPath (destIp : Ipv4Address) (destPort : Port) (lastUpdate : Nat)
      (byteRemaining : BitVec 32)
  | start
  | stop
  | packet (info : PathAddressInfo) (message : SimMessage)
  | schedule (ftype : BitVec 8) (byte : BitVec 32)
  | timer

variable (isExistPath : Ipv4Address → Ipv4Address → Bool) (frameBytes : BitVec 32)

/-- An event that the simulator runs. -/
def runEvent (s : MpSender) : PathEvent → Option MpSender
  | .connect path => s.connect path
  | .paceCallback path => s.paceCallback path
  | .fakePacket => s.fakePacket frameBytes

def call (s : MpSender) : Input → Option MpSender
  | .addPath destIp destPort lastUpdate byteRemaining =>
      some (s.addPath isExistPath destIp destPort lastUpdate byteRemaining)
  | .start => s.startApplication
  | .stop => some s.stopApplication
  | .packet info message => s.recvPacket info message
  | .schedule ftype byte => s.schedule ftype byte
  | .timer =>
      match s.queue.pop with
      | none => none
      | some (e, queue) => runEvent frameBytes { s with queue } e.action

/-- An input at some time. Time does not pass the next event of the simulator. -/
def step? (s : MpSender) (e : Nat × Input) : Option MpSender :=
  match s.queue.advance? e.1 with
  | none => none
  | some queue => call isExistPath frameBytes { s with queue } e.2

def Step (s : MpSender) (e : Nat × Input) (s' : MpSender) : Prop :=
  step? isExistPath frameBytes s e = some s'

variable {isExistPath frameBytes}

theorem step_iff {s s' : MpSender} {e : Nat × Input} :
    Step isExistPath frameBytes s e s' ↔
      ∃ queue, s.queue.advance? e.1 = some queue ∧
        call isExistPath frameBytes { s with queue } e.2 = some s' := by
  unfold Step step?
  cases s.queue.advance? e.1 with
  | none => simp
  | some queue => simp

end MpSender

end Multipath
