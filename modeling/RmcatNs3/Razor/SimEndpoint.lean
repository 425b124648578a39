import RmcatNs3.Lib.EventQueue
import RmcatNs3.Lib.SortedMap
import RmcatNs3.Razor.SimMessage

/-!
# The session endpoint

`razor-ns3/model/sim_endpoint.{h,cc}`, with the parts of `sim_sender.{h,cc}` and
`sim_receiver.{h,cc}` that hold events. A pointer to a `SimSender` or a
`SimReceiver` is the number of the object, in the order in which they were made. The
congestion controllers are not part of this model: what they call back while they
run is an argument of the step in which they run. The size of a frame, a
floating-point product, is a parameter. A failing assertion and a call of a deleted
object give `none`.
-/

namespace Razor

inductive SessionState where
  | idle
  | connecting
  | connected
  | disconnected
  deriving DecidableEq, Repr

/-- The events that an endpoint, its sender and its receiver schedule. -/
inductive EndpointEvent where
  | sendPing
  | doConnect
  | generateFakeData
  | paceHeartBeat (obj : Nat)
  | heartBeat (obj : Nat)
  | statsRecvRate (obj : Nat)
  deriving DecidableEq, Repr

structure SimSender where
  frameId : BitVec 32
  packetId : BitVec 32
  transportSeq : BitVec 16
  firstTs : BitVec 64
  remb : BitVec 8
  segmentSize : BitVec 32
  paceEvent : EventId
  cache : SortedMap Nat Segment

structure SimReceiver where
  recvFirstPacket : Bool
  heartbeatEvent : EventId
  statsRateEvent : EventId

/-- What a congestion controller calls back. -/
inductive CcCall where
  | pacePacketSend (packetId : BitVec 32)
  | changeRate (kbps : BitVec 32)
  | sendFeedback (payload : List (BitVec 8))

structure SimEndpoint where
  peerIp : BitVec 32
  peerPort : BitVec 16
  initiator : Bool
  uid : BitVec 32
  cid : BitVec 32
  state : SessionState
  rtt : BitVec 32
  rttVar : BitVec 32
  conCount : BitVec 8
  conRetries : BitVec 8
  reConEvent : EventId
  pingEvent : EventId
  firstRtt : Bool
  bitRate : BitVec 32
  frameRate : BitVec 32
  generateDataEvent : EventId
  packetSize : BitVec 32
  lastGenerateDataTime : Nat
  sender : Option (Nat × SimSender)
  receiver : Option (Nat × SimReceiver)
  nextObject : Nat
  queue : EventQueue EndpointEvent
  /-- Whether `StopApplication` has run; the source has no such field. -/
  stopped : Bool
  sent : List (BitVec 32 × BitVec 16 × SimMessage × Nat)

def simMinBitrate : BitVec 32 := 80000
def conTimeout : Nat := milliSeconds 100
def maxSplitPackets : Nat := 1000
def paceTime : Nat := 5
def heartbeatTime : Nat := 5
def rateStatsInterval : Nat := 1000

/-- `sizeof(sim_connect_t)`. -/
def simConnectSize : Nat := 136

namespace SimSender

/-- `SimSender::SimSender`, with the segment size that `SenderInit` sets. -/
def new (segmentSize : BitVec 32) : SimSender where
  frameId := 1
  packetId := 1
  transportSeq := 0
  firstTs := -1
  remb := 1
  segmentSize := segmentSize
  paceEvent := none
  cache := .empty

/-- `SimSender::FrameSplit`. -/
def frameSplit (segmentSize size : Nat) : List (BitVec 16) :=
  if size < segmentSize then [BitVec.ofNat 16 size]
  else
    let full := List.replicate (size / segmentSize) (BitVec.ofNat 16 segmentSize)
    if 0 < size % segmentSize then full ++ [BitVec.ofNat 16 (size % segmentSize)] else full

/-- The loop of `PutFakeData`. -/
def fileSegments (ftype : BitVec 8) (timestamp : BitVec 32) (total : Nat) (i : Nat) :
    SimSender → List (BitVec 16) → SimSender
  | snd, [] => snd
  | snd, dataSize :: rest =>
      let seg : Segment :=
        { packetId := snd.packetId, fid := snd.frameId, timestamp
          index := BitVec.ofNat 16 i, total := BitVec.ofNat 16 total, ftype
          remb := snd.remb, sendTs := 0, transportSeq := 0, dataSize }
      let snd := { snd with
        cache := snd.cache.insert snd.packetId.toNat seg
        packetId := snd.packetId + 1 }
      fileSegments ftype timestamp total (i + 1) snd rest

/-- `SimSender::PutFakeData`. -/
def putFakeData (snd : SimSender) (ftype : BitVec 8) (size : BitVec 32) (nowMs : Nat) :
    Option SimSender :=
  if size.toNat / snd.segmentSize.toNat < maxSplitPackets then
    let splits := frameSplit snd.segmentSize.toNat size.toNat
    let timestamp :=
      if snd.firstTs = -1 then 0 else BitVec.ofNat 32 nowMs - snd.firstTs.setWidth 32
    let firstTs := if snd.firstTs = -1 then BitVec.ofNat 64 nowMs else snd.firstTs
    let snd := fileSegments ftype timestamp splits.length 0 { snd with firstTs } splits
    some { snd with frameId := snd.frameId + 1 }
  else none

end SimSender

namespace SimEndpoint

/-- An endpoint after its setup: `InitialSetup` makes it an initiator, `Bind` does
not. -/
def new (initiator : Bool) (peerIp : BitVec 32) (peerPort : BitVec 16)
    (uid cid bitRate frameRate packetSize : BitVec 32) : SimEndpoint where
  peerIp := peerIp
  peerPort := peerPort
  initiator := initiator
  uid := uid
  cid := cid
  state := .idle
  rtt := 100
  rttVar := 5
  conCount := 3
  conRetries := 3
  reConEvent := none
  pingEvent := none
  firstRtt := true
  bitRate := bitRate
  frameRate := frameRate
  generateDataEvent := none
  packetSize := packetSize
  lastGenerateDataTime := 0
  sender := none
  receiver := none
  nextObject := 0
  queue := .empty
  stopped := false
  sent := []

def nowMs (s : SimEndpoint) : Nat := getMilliSeconds s.queue.now

/-- `SimEndpoint::Send`, with the size of the payload behind the header. -/
def send (s : SimEndpoint) (message : SimMessage) (payload : Nat) : SimEndpoint :=
  { s with sent := s.sent ++ [(s.peerIp, s.peerPort, message, payload)] }

/-! ## Connecting and stopping -/

def disconnect (s : SimEndpoint) : SimEndpoint :=
  { s with state := .disconnected }.send (.disconnect s.cid) 0

/-- `SimEndpoint::StopApplication`. Neither the retry of the connection nor the
sender is touched. -/
def stopApplication (s : SimEndpoint) : SimEndpoint :=
  let s := { s with stopped := true, queue := s.queue.cancel s.pingEvent }
  if s.initiator then
    { s with queue := s.queue.cancel s.generateDataEvent }.disconnect
  else s

def doConnect (s : SimEndpoint) : SimEndpoint :=
  if s.conCount = 0 then s.stopApplication
  else
    let timeout := conTimeout * 2 ^ (s.conRetries - s.conCount).toNat
    { s with
      reConEvent := s.queue.nextId
      queue := s.queue.schedule timeout .doConnect
      conCount := s.conCount - 1 }.send (.connect s.cid [123]) 0

/-- `SimEndpoint::Connect`. -/
def connect (s : SimEndpoint) : SimEndpoint :=
  { s.doConnect with state := .connecting }

def startApplication (s : SimEndpoint) : SimEndpoint :=
  if s.initiator then s.connect else s

/-! ## Sender and receiver -/

/-- `SimEndpoint::SenderInit`: the sender starts pacing, and data is generated. -/
def senderInit (s : SimEndpoint) : SimEndpoint :=
  let sender := { SimSender.new s.packetSize with paceEvent := s.queue.nextId }
  let queue := s.queue.schedule 0 (.paceHeartBeat s.nextObject)
  { s with
    sender := some (s.nextObject, sender)
    nextObject := s.nextObject + 1
    generateDataEvent := queue.nextId
    queue := queue.schedule 0 .generateFakeData }

/-- `SimEndpoint::ReceiverInit`. -/
def receiverInit (s : SimEndpoint) : SimEndpoint :=
  match s.receiver with
  | some _ => s
  | none =>
      { s with
        receiver := some (s.nextObject, ⟨true, none, none⟩)
        nextObject := s.nextObject + 1 }

/-- `SimReceiver::~SimReceiver`. -/
def deleteReceiver (s : SimEndpoint) : SimEndpoint :=
  match s.receiver with
  | none => s
  | some (_, r) =>
      { s with
        receiver := none
        queue := (s.queue.cancel r.heartbeatEvent).cancel r.statsRateEvent }

/-- `SimSender::~SimSender`: its event is left in the simulator. -/
def deleteSender (s : SimEndpoint) : SimEndpoint :=
  { s with sender := none }

/-- `SimSender::PacePacketSend`. -/
def pacePacketSend (s : SimEndpoint) (packetId : BitVec 32) : SimEndpoint :=
  match s.sender with
  | none => s
  | some (obj, snd) =>
      match snd.cache.lookup packetId.toNat with
      | none => s
      | some segment =>
          let sendTs := BitVec.ofNat 16 s.nowMs - snd.firstTs.setWidth 16
            - segment.timestamp.setWidth 16
          let transportSeq := snd.transportSeq + 1
          let segment := { segment with sendTs, transportSeq }
          let snd := { snd with transportSeq, cache := snd.cache.erase packetId.toNat }
          { s with sender := some (obj, snd) }.send (.seg segment) segment.dataSize.toNat

/-- `SimEndpoint::ChangeRate`. -/
def changeRate (s : SimEndpoint) (kbps : BitVec 32) : SimEndpoint :=
  let rate := kbps * 1000
  { s with bitRate := if rate = 0 then simMinBitrate else rate }

/-- What a congestion controller calls back, one after the other. A feedback message
has room for 1000 bytes. -/
def runCalls : SimEndpoint → List CcCall → Option SimEndpoint
  | s, [] => some s
  | s, .pacePacketSend packetId :: rest => runCalls (s.pacePacketSend packetId) rest
  | s, .changeRate kbps :: rest => runCalls (s.changeRate kbps) rest
  | s, .sendFeedback payload :: rest =>
      if payload.length ≤ 1000 then runCalls (s.send (.feedback 0 payload) 0) rest
      else none

/-! ## Messages -/

/-- `SimReceiver::RecvFakeData`: the first segment starts both timers. -/
def recvFakeData (s : SimEndpoint) (obj : Nat) (r : SimReceiver) : SimEndpoint :=
  if r.recvFirstPacket then
    let queue := s.queue.schedule (milliSeconds rateStatsInterval) (.statsRecvRate obj)
    { s with
      receiver := some (obj, ⟨false, queue.nextId, s.queue.nextId⟩)
      queue := queue.schedule 0 (.heartBeat obj) }
  else s

def processConnect (s : SimEndpoint) (cid : BitVec 32) : SimEndpoint :=
  let s := { s with state := .connected }.send (.connectAck cid 0) 0
  if s.initiator = false ∧ s.receiver.isNone then
    let s := s.receiverInit
    { s with
      pingEvent := s.queue.nextId
      queue := s.queue.schedule (milliSeconds s.rtt.toNat) .sendPing }
  else s

/-- The first part of `ProcessConnectAck`, for an endpoint that is connecting. -/
def acceptConnection (s : SimEndpoint) : SimEndpoint :=
  if s.state = .connecting then
    let queue := s.queue.cancel s.reConEvent
    { s with
      state := .connected
      pingEvent := queue.nextId
      queue := queue.schedule 0 .sendPing }
  else s

/-- `SimEndpoint::ProcessConnectAck`: the sender is made in any state. -/
def processConnectAck (s : SimEndpoint) : SimEndpoint :=
  let s := s.acceptConnection
  if s.sender.isNone then s.senderInit else s

/-- `SimEndpoint::CalculateRtt`. -/
def calculateRtt (s : SimEndpoint) (keepRtt : BitVec 32) : SimEndpoint :=
  let keepRtt := if keepRtt < 5 then 5 else keepRtt
  let diff := if s.rtt > keepRtt then s.rtt - keepRtt else keepRtt - s.rtt
  let rttVar := (3 * s.rttVar + diff) / 4
  let rtt := (7 * s.rtt + keepRtt) / 8
  { s with
    rttVar := if rttVar < 10 then 10 else rttVar
    rtt := if rtt < 10 then 10 else rtt }

/-- `SimEndpoint::ProcessPong`. -/
def processPong (s : SimEndpoint) (ts : BitVec 64) : SimEndpoint :=
  let now := BitVec.ofNat 64 s.nowMs
  let keepRtt : BitVec 32 :=
    if (ts + 5).slt now then (now - ts).setWidth 32 else 5
  if s.firstRtt then { s with firstRtt := false, rtt := keepRtt }
  else s.calculateRtt keepRtt

/-- `SimEndpoint::ProcessDisconnect`. -/
def processDisconnect (s : SimEndpoint) (cid : BitVec 32) : SimEndpoint :=
  let s := { s with state := .disconnected }.send (.disconnectAck cid 0) 0
  s.deleteReceiver.deleteSender

/-- `SimEndpoint::RecvPacket`, with what the controllers call back. `stale` is what the
handler's variable for the message holds in place of a cid before `GetMessage` writes to
it. -/
def recvPacket (s : SimEndpoint) (srcIp : BitVec 32) (srcPort : BitVec 16)
    (message : SimMessage) (stale : BitVec 32) (calls : List CcCall) : Option SimEndpoint :=
  match message with
  | .connect cid token =>
      let s := if s.initiator then s else { s with peerIp := srcIp, peerPort := srcPort }
      some (s.processConnect (if 4 + 2 + token.length > simConnectSize then stale else cid))
  | .connectAck _ _ => some s.processConnectAck
  | .ping ts => some (s.send (.pong ts) 0)
  | .pong ts => (s.processPong ts).runCalls calls
  | .seg _ =>
      match s.receiver with
      | none => some s
      | some (obj, r) => some (s.recvFakeData obj r)
  | .segAck _ _ _ => some s
  | .feedback _ _ => if s.sender.isSome then s.runCalls calls else some s
  -- its length is taken for the one of a ping, which does not fit: nothing is copied
  | .disconnect _ => some (s.processDisconnect stale)
  | .disconnectAck _ _ => some { s with state := .disconnected }

/-! ## Timers -/

/-- `SimEndpoint::SendPing`. -/
def sendPing (s : SimEndpoint) : SimEndpoint :=
  if s.queue.isExpired s.pingEvent then
    { s with
      pingEvent := s.queue.nextId
      queue := s.queue.schedule (milliSeconds (4 * s.rtt).toNat) .sendPing }.send
        (.ping (BitVec.ofNat 64 s.nowMs)) 0
  else s

/-- The data of `GenerateFakeData`: some milliseconds of video, if there is any and a
sender for it. -/
def putData (s : SimEndpoint) (len : BitVec 32) : Option SimEndpoint :=
  if len = 0 then some s
  else
    match s.sender with
    | none => some s
    | some (obj, snd) =>
        match snd.putFakeData 0 len s.nowMs with
        | none => none
        | some snd => some { s with sender := some (obj, snd) }

/-- The milliseconds of video that are due. -/
def elapsed (s : SimEndpoint) : Nat :=
  if s.lastGenerateDataTime = 0 then s.frameRate.toNat
  else s.nowMs - s.lastGenerateDataTime

/-- `SimEndpoint::GenerateFakeData`. -/
def generateFakeData (s : SimEndpoint) (dataBytes : Nat → BitVec 32 → BitVec 32) :
    Option SimEndpoint :=
  if s.queue.isExpired s.generateDataEvent then
    let len := dataBytes s.elapsed s.bitRate
    match { s with lastGenerateDataTime := s.nowMs }.putData len with
    | none => none
    | some s => some { s with
        generateDataEvent := s.queue.nextId
        queue := s.queue.schedule (milliSeconds s.frameRate.toNat) .generateFakeData }
  else some s

/-- The sender reschedules its heartbeat. -/
def rearmSender (s : SimEndpoint) (obj : Nat) : Option SimEndpoint :=
  match s.sender with
  | none => none
  | some (_, snd) => some { s with
      sender := some (obj, { snd with paceEvent := s.queue.nextId })
      queue := s.queue.schedule (milliSeconds paceTime) (.paceHeartBeat obj) }

/-- `SimSender::PaceHeartBeat`, of the object behind a pointer. -/
def paceHeartBeat (s : SimEndpoint) (obj : Nat) (calls : List CcCall) :
    Option SimEndpoint :=
  match s.sender with
  | none => none
  | some (obj', snd) =>
      if obj' = obj then
        if s.queue.isExpired snd.paceEvent then
          match s.runCalls calls with
          | none => none
          | some s => s.rearmSender obj
        else some s
      else none

/-- `SimReceiver::HeartBeat`. -/
def heartBeat (s : SimEndpoint) (obj : Nat) (calls : List CcCall) : Option SimEndpoint :=
  match s.receiver with
  | none => none
  | some (obj', r) =>
      if obj' = obj then
        if s.queue.isExpired r.heartbeatEvent then
          match s.runCalls calls with
          | none => none
          | some s => some { s with
              receiver := some (obj, { r with heartbeatEvent := s.queue.nextId })
              queue := s.queue.schedule (milliSeconds heartbeatTime) (.heartBeat obj) }
        else some s
      else none

/-- `SimReceiver::StatsRecvRate`. -/
def statsRecvRate (s : SimEndpoint) (obj : Nat) : Option SimEndpoint :=
  match s.receiver with
  | none => none
  | some (obj', r) =>
      if obj' = obj then
        if s.queue.isExpired r.statsRateEvent then
          some { s with
            receiver := some (obj, { r with statsRateEvent := s.queue.nextId })
            queue := s.queue.schedule (milliSeconds rateStatsInterval) (.statsRecvRate obj) }
        else some s
      else none

/-! ## Steps -/

/-- What an endpoint meets, with what the controllers call back meanwhile, and for a packet
with what the variable for its message holds before. -/
inductive Input where
  | start
  | stop
  | packet (srcIp : BitVec 32) (srcPort : BitVec 16) (message : SimMessage)
      (stale : BitVec 32) (calls : List CcCall)
  | timer (calls : List CcCall)

variable (dataBytes : Nat → BitVec 32 → BitVec 32)

/-- An event that the simulator runs. -/
def runEvent (s : SimEndpoint) (calls : List CcCall) : EndpointEvent → Option SimEndpoint
  | .sendPing => some s.sendPing
  | .doConnect => some s.doConnect
  | .generateFakeData => s.generateFakeData dataBytes
  | .paceHeartBeat obj => s.paceHeartBeat obj calls
  | .heartBeat obj => s.heartBeat obj calls
  | .statsRecvRate obj => s.statsRecvRate obj

def call (s : SimEndpoint) : Input → Option SimEndpoint
  | .start => some s.startApplication
  | .stop => some s.stopApplication
  | .packet srcIp srcPort message stale calls =>
      s.recvPacket srcIp srcPort message stale calls
  | .timer calls =>
      match s.queue.pop with
      | none => none
      | some (e, queue) => runEvent dataBytes { s with queue } calls e.action

/-- An input at some time. Time does not pass the next event of the simulator. -/
def step? (s : SimEndpoint) (e : Nat × Input) : Option SimEndpoint :=
  match s.queue.advance? e.1 with
  | none => none
  | some queue => call dataBytes { s with queue } e.2

def Step (s : SimEndpoint) (e : Nat × Input) (s' : SimEndpoint) : Prop :=
  step? dataBytes s e = some s'

variable {dataBytes}

theorem step_iff {s s' : SimEndpoint} {e : Nat × Input} :
    Step dataBytes s e s' ↔ ∃ queue, s.queue.advance? e.1 = some queue ∧
      call dataBytes { s with queue } e.2 = some s' := by
  unfold Step step?
  cases s.queue.advance? e.1 with
  | none => simp
  | some queue => simp

end SimEndpoint

end Razor
