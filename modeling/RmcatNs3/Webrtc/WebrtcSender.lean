import RmcatNs3.Lib.Runs
import RmcatNs3.Lib.SortedMap
import RmcatNs3.Webrtc.WebrtcSession

/-!
# The WebRTC sender

`webrtc-ns3/model/webrtcsender.{h,cc}`, with the timers of `processmodule.cc` and
`packetgenerator.cc`. The pacer and the congestion controller are not part of this model:
the packets that the pacer sends, and the length of a frame, are arguments of the event in
which this happens. An assertion that fails and a call of a deleted object give `none`.
-/

namespace Webrtc

open EventQueue Multipath Runs

inductive SenderEvent where
  | connect
  | sendPing
  /-- `ProcessModule::Process` -/
  | process
  /-- `PacketGenerator::Generate` -/
  | generate
  deriving DecidableEq, Repr

structure WebrtcSender where
  peerIp : BitVec 32
  peerPort : BitVec 16
  uid : BitVec 32
  cid : BitVec 32
  /-- `m_socket` is not `NULL`. -/
  hasSocket : Bool
  running : Bool
  pathState : PathSession
  rttRecord : RttRecord
  /-- The timer of `m_pm`, until this is deleted together with the pacer and the controller. -/
  pm : Option EventId
  generatorTimer : EventId
  generatorFs : Nat
  pingTimer : EventId
  rxTimer : EventId
  cache : SortedMap Nat Segment
  frameId : BitVec 32
  packetId : BitVec 32
  sequenceNumber : BitVec 16
  firstTs : Int
  queue : EventQueue SenderEvent
  /-- Whether `StartApplication` and `StopApplication` have run; the source has no such
  fields. -/
  started : Bool
  stopped : Bool
  sent : List SentPacket

def maxSplitPackets : Nat := 1000
def segmentSize : Nat := 1000

namespace WebrtcSender

/-- A sender after `InitialSetup`. -/
def new (peerIp : BitVec 32) (peerPort : BitVec 16) (generatorFs : Nat) : WebrtcSender where
  peerIp := peerIp
  peerPort := peerPort
  uid := 11
  cid := 12345
  hasSocket := false
  running := false
  pathState := .idle
  rttRecord := .new
  pm := some none
  generatorTimer := none
  generatorFs := generatorFs
  pingTimer := none
  rxTimer := none
  cache := .empty
  frameId := 0
  packetId := 0
  sequenceNumber := 1
  firstTs := -1
  queue := .empty
  started := false
  stopped := false
  sent := []

def nowMs (s : WebrtcSender) : Nat := getMilliSeconds s.queue.now

def setQueue (s : WebrtcSender) (queue : EventQueue SenderEvent) : WebrtcSender :=
  { s with queue }

/-- `WebrtcSender::Send` -/
def send (s : WebrtcSender) (message : WebrtcMessage) (payload : Nat) : WebrtcSender :=
  if s.hasSocket then
    { s with sent := s.sent ++ [⟨s.peerIp, s.peerPort, s.uid, message, payload⟩] }
  else s

/-! ## Frames -/

/-- `WebrtcSender::FrameSplit` -/
def frameSplit (size : Nat) : Option (List (BitVec 16)) :=
  if size / segmentSize < maxSplitPackets then
    if size < segmentSize then some [BitVec.ofNat 16 size]
    else
      let full := List.replicate (size / segmentSize) (BitVec.ofNat 16 segmentSize)
      if 0 < size % segmentSize then some (full ++ [BitVec.ofNat 16 (size % segmentSize)])
      else some full
  else none

/-- The loop of `TargetReceive`. A segment of the cache stays if it has the number of a new
one. -/
def fileSegments (timestamp : BitVec 32) (total : Nat) (i : Nat) :
    WebrtcSender → List (BitVec 16) → WebrtcSender
  | s, [] => s
  | s, dataSize :: rest =>
      let seg : Segment :=
        { packetId := s.packetId
          fid := s.frameId
          timestamp := timestamp
          index := BitVec.ofNat 16 i
          total := BitVec.ofNat 16 total
          ftype := 0
          remb := 0
          sendTs := 0
          transportSeq := s.sequenceNumber
          dataSize := dataSize }
      let key := s.sequenceNumber.toNat
      let s := { s with
        cache := if (s.cache.lookup key).isSome then s.cache else s.cache.insert key seg
        sequenceNumber := s.sequenceNumber + 1
        packetId := s.packetId + 1 }
      fileSegments timestamp total (i + 1) s rest

/-- `WebrtcSender::TargetReceive` -/
def targetReceive (s : WebrtcSender) (len : Nat) : Option WebrtcSender :=
  match s.pm, frameSplit len with
  | some _, some splits =>
      let timestamp := if s.firstTs = -1 then 0 else BitVec.ofInt 32 (s.nowMs - s.firstTs)
      let firstTs := if s.firstTs = -1 then (s.nowMs : Int) else s.firstTs
      some (fileSegments timestamp splits.length 0
        { s with frameId := s.frameId + 1, firstTs } splits)
  | _, _ => none

/-- `WebrtcSender::TimeToSendPacket` -/
def timeToSendPacket (s : WebrtcSender) (sequenceNumber : BitVec 16) : WebrtcSender :=
  match s.cache.lookup sequenceNumber.toNat with
  | none => s
  | some segment =>
      let sendTs := BitVec.ofInt 16 (s.nowMs - s.firstTs - segment.timestamp.toNat)
      { s with cache := s.cache.erase sequenceNumber.toNat }.send
        (.seg { segment with sendTs }) segment.dataSize.toNat

/-! ## Connecting -/

def connect (s : WebrtcSender) : WebrtcSender :=
  let s :=
    if s.pathState = .idle ∨ s.pathState = .disconnected ∨ s.pathState = .connecting then
      let s := { s with pathState := .connecting }.send (.connect s.cid) 0
      { s with
        rxTimer := s.queue.nextId
        queue := s.queue.schedule (milliSeconds s.rttRecord.rtt) .connect }
    else s
  if s.pathState = .connected then s.setQueue (s.queue.cancel s.rxTimer) else s

/-- `PacketGenerator::Start`, `ProcessModule::Start` and the first ping. -/
def startTimers (s : WebrtcSender) : WebrtcSender :=
  let s := { s with
    generatorTimer := s.queue.nextId
    queue := s.queue.schedule 0 .generate }
  let s := { s with
    pm := some s.queue.nextId
    queue := s.queue.schedule 0 .process }
  { s with
    pingTimer := s.queue.nextId
    queue := s.queue.schedule 0 .sendPing }

def processConnectAck (s : WebrtcSender) : Option WebrtcSender :=
  if s.pathState = .connecting then
    match s.pm with
    | none => none
    | some _ => some { s with
        pathState := .connected
        queue := s.queue.cancel s.rxTimer }.startTimers
  else some s

/-- `WebrtcSender::RecvPacket`. A feedback goes to the controller. -/
def recvPacket (s : WebrtcSender) (message : WebrtcMessage) : Option WebrtcSender :=
  if s.running then
    match message with
    | .connectAck _ _ => s.processConnectAck
    | .feedback _ => if s.pm.isSome then some s else none
    | .ping ts => some (s.send (.pong ts) 0)
    | .pong ts =>
        if s.pm.isSome then
          some { s with rttRecord := s.rttRecord.processPong (keepRtt s.nowMs ts) }
        else none
    | _ => some s
  else some s

/-! ## Starting and stopping -/

def startApplication (s : WebrtcSender) : WebrtcSender :=
  { s with hasSocket := true, running := true, started := true }.connect

/-- `WebrtcSender::StopApplication`. The retry of the connection is left in the simulator. -/
def stopApplication (s : WebrtcSender) : Option WebrtcSender :=
  match s.pm with
  | none => none
  | some timer =>
      let queue := s.queue.cancel timer
      let queue := if queue.isExpired s.pingTimer then queue else queue.cancel s.pingTimer
      some { s with
        running := false
        stopped := true
        pm := none
        queue := queue.cancel s.generatorTimer }

/-! ## Timers -/

/-- `WebrtcSender::SendPing`. The event of the next ping is not stored. -/
def sendPing (s : WebrtcSender) : WebrtcSender :=
  if s.queue.isExpired s.pingTimer then
    let s := s.send (.ping (BitVec.ofNat 64 s.nowMs)) 0
    s.setQueue (s.queue.schedule (milliSeconds s.rttRecord.rtt) .sendPing)
  else s

/-- `ProcessModule::Process`, with the packets that the pacer sends. -/
def process (s : WebrtcSender) (paced : List (BitVec 16)) : Option WebrtcSender :=
  match s.pm with
  | none => none
  | some _ =>
      let s := paced.foldl timeToSendPacket s
      some { s with
        pm := some s.queue.nextId
        queue := s.queue.schedule (milliSeconds nextCheckpoint) .process }

/-- `PacketGenerator::Generate` -/
def generate (s : WebrtcSender) (len : Nat) : Option WebrtcSender :=
  if s.queue.isExpired s.generatorTimer then
    (s.targetReceive len).map fun s => { s with
      generatorTimer := s.queue.nextId
      queue := s.queue.schedule (milliSeconds s.generatorFs) .generate }
  else some s

/-! ## Steps -/

inductive Input where
  | start
  | stop
  | packet (message : WebrtcMessage)
  | timer (len : Nat) (paced : List (BitVec 16))
  | wait (t : Nat)

def Input.isTimer : Input → Bool
  | .timer _ _ => true
  | _ => false

/-- An event that the simulator runs. -/
def runEvent (s : WebrtcSender) (len : Nat) (paced : List (BitVec 16)) :
    SenderEvent → Option WebrtcSender
  | .connect => some s.connect
  | .sendPing => some s.sendPing
  | .process => s.process paced
  | .generate => s.generate len

/-- The application starts and stops once. -/
def step? (s : WebrtcSender) : Input → Option WebrtcSender
  | .start => if s.started then none else some s.startApplication
  | .stop => if s.stopped then none else s.stopApplication
  | .packet message => s.recvPacket message
  | .timer len paced =>
      s.queue.pop.bind fun (ev, queue) => (s.setQueue queue).runEvent len paced ev.action
  | .wait t => (s.queue.advance? t).map s.setQueue

def Step (s : WebrtcSender) (e : Input) (s' : WebrtcSender) : Prop := step? s e = some s'

/-- A timer hands no packet to the socket. -/
def TimerSilent (s : WebrtcSender) (e : Input) (s' : WebrtcSender) : Prop :=
  e.isTimer = true → s'.sent = s.sent

variable {s s' : WebrtcSender}

theorem step_start : s.Step .start s' ↔ s.started = false ∧ s.startApplication = s' := by
  simp [Step, step?]

theorem step_stop : s.Step .stop s' ↔
    s.stopped = false ∧ s.stopApplication = some s' := by
  simp [Step, step?]

theorem step_timer {len : Nat} {paced : List (BitVec 16)} : s.Step (.timer len paced) s' ↔
    ∃ ev queue, s.queue.pop = some (ev, queue) ∧
      (s.setQueue queue).runEvent len paced ev.action = some s' := by
  simp [Step, step?, Option.bind_eq_some_iff]

theorem step_wait {t : Nat} : s.Step (.wait t) s' ↔
    ∃ queue, s.queue.advance? t = some queue ∧ s.setQueue queue = s' := by
  simp [Step, step?]

end WebrtcSender

end Webrtc
