import RmcatNs3.Razor.SimLimiter
import RmcatNs3.Razor.SimReceiver

/-!
# A session of the transport

`sim_transport/sim_session.c`: one end of a transport that can send video and receive it. The
application connects and disconnects it and hands it frames; the loop of the session takes
datagrams from the socket and runs a heartbeat. What goes out of a session is kept in the order
in which it goes: the messages and their datagrams, the notices to the application and the
frames that it gets.

Congestion control is known by what it calls back: the pacer sends packets and changes the
bitrate, and the receiver's side reports. Bitrates that are computed in floating point, the
counters of the statistics and their text, and the address of the peer are left out. A call
that does not return is `none`, as are the faults of the receiver, a frame that fails the
assertion of `sim_sender_put`, and a division by zero.
-/

namespace Razor

namespace SimTransport

open Runs SimProto StructMemory

/-- The states of a session. -/
inductive SessionState where
  | idle
  | connecting
  | connected
  | disconnected
  deriving DecidableEq, Repr

/-- The states of the network. -/
inductive NetState where
  | normal
  | interrupt
  | recover
  deriving DecidableEq, Repr

/-- A call of `notify_cb` by its type, with the value. -/
inductive Notice where
  | connect (val : BitVec 32)
  | networkTimeout (val : BitVec 32)
  | disconnect (val : BitVec 32)
  | startPlay (val : BitVec 32)
  | stopPlay (val : BitVec 32)
  | netInterrupt (val : BitVec 32)
  | netRecover (val : BitVec 32)
  deriving DecidableEq, Repr

/-- `sim_sender_t`, without the congestion control. -/
structure VideoSender extends Sender where
  actived : Bool
  transportSeqSeed : BitVec 32
  limiter : SimLimiter 300

/-- A callback of the sender's congestion control: `sim_send_packet`, or `sim_bitrate_change`
with the rate that it gives the limiter. -/
inductive CcCall where
  | sendPacket (packetId : BitVec 32)
  | changeBitrate (bitrateKbps : BitVec 32)

/-- A message as it is given to `sim_encode_msg`, with the `uid` of its header. -/
structure Outgoing where
  id : MsgId
  uid : BitVec 32
  body : SimBody

/-- `sim_session_t`, and what has gone out of it. -/
structure SimSession where
  cid : BitVec 32
  uid : BitVec 32
  rtt : BitVec 32
  rttVar : BitVec 32
  state : SessionState
  interrupt : NetState
  sender : Option VideoSender
  receiver : Option Receiver
  resend : Nat
  commadTs : Int
  statTs : Int
  sstrm : BinStream
  said : List Outgoing
  sent : List (List UInt8)
  notices : List Notice
  played : List VideoCache.Delivery

/-- `protocol_ver`. -/
def protocolVer : BitVec 8 := 0x01

def minMsgId : BitVec 8 := 0x10
def maxMsgId : BitVec 8 := 0x1a

/-- `TICK_DELAY_MS`. -/
def tickDelayMs : Int := 1000

/-- What a call reads besides the session: the clock, the number that `rand` returns, the memory
that is not initialised, and what congestion control does. -/
structure Env where
  now : Int
  rand : BitVec 32
  block : Mem
  header : SimProto.SimHeader
  connect : SimConnect
  connectAck : SimConnectAck
  disconnect : SimDisconnect
  ping : SimPing
  seg : SimSegment
  segAck : SimSegmentAck
  feedback : SimFeedback
  addPacket : SimSegment → Bool
  calls : List CcCall
  reports : List (List UInt8)

/-- The arithmetic in `float`: the rate of a window, and a time that is played at a speed. -/
structure Floats where
  measure : Int → Int → Int
  scaled : Speed → BitVec 64 → BitVec 32

/-- The struct that `sim_receiver_send_ack` sends. -/
def SegmentAck.body (ack : SegmentAck) : SimSegmentAck where
  basePacketId := ack.basePacketId
  ackedPacketId := ack.ackedPacketId
  nackNum := BitVec.ofNat 8 ack.nack.length
  nack := Vector.ofFn fun i => ack.nack.getD i 0

/-- The entries of a `sim_segment_ack_t` that are set. -/
def SegmentAck.ofBody (body : SimSegmentAck) : SegmentAck :=
  ⟨body.basePacketId, body.ackedPacketId, body.nack.toList.take body.nackNum.toNat⟩

namespace VideoSender

/-- `sim_sender_create`. -/
def new : VideoSender where
  toSender := .new
  actived := false
  transportSeqSeed := 0
  limiter := .init 300

/-- `sim_sender_reset`. -/
def reset (snd : VideoSender) : VideoSender where
  toSender := .new
  actived := false
  transportSeqSeed := 0
  limiter := snd.limiter

/-- `sim_sender_active`. -/
def active (snd : VideoSender) : VideoSender := { snd with actived := true }

/-- `sim_sender_put`. -/
def put (snd : VideoSender) (payloadType ftype : BitVec 8) (data : List UInt8) (now : Int) :
    Option VideoSender :=
  (snd.toSender.put payloadType ftype data now).map fun window => { snd with toSender := window }

/-- `sim_sender_ack`. -/
def ack (measure : Int → Int → Int) (addPacket : SimSegment → Bool) (now : Int)
    (snd : VideoSender) (body : SegmentAck) : Option VideoSender := do
  let (window, segs) ← snd.toSender.ack body.basePacketId body.ackedPacketId body.nack
  let (_, limiter) ← snd.limiter.retransmit measure addPacket now segs
  some { snd with toSender := window, limiter }

/-- `sim_sender_feedback`, before congestion control gets it. -/
def feedback (snd : VideoSender) (basePacketId : BitVec 32) : Option VideoSender :=
  (snd.toSender.feedback basePacketId).map fun window => { snd with toSender := window }

/-- `sim_send_packet`, with the segment that goes out if the cache has it. -/
def packet (snd : VideoSender) (now : Int) (packetId : BitVec 32) :
    Option (SimSegment × VideoSender) :=
  (snd.cache.lookup packetId.toNat).map fun seg =>
    let seg := { seg with
      transportSeq := snd.transportSeqSeed.setWidth 16
      sendTs := BitVec.ofInt 16 (now - snd.firstTs - seg.timestamp.toNat) }
    (seg, { snd with
      transportSeqSeed := snd.transportSeqSeed + 1
      cache := snd.cache.modify packetId.toNat fun _ => seg })

end VideoSender

namespace SimSession

/-- `sim_session_create`. -/
def create (rand : BitVec 32) (now : Int) (block : Mem) : SimSession where
  cid := rand
  uid := 0
  rtt := 100
  rttVar := 5
  state := .idle
  interrupt := .normal
  sender := none
  receiver := none
  resend := 0
  commadTs := now
  statTs := 0
  sstrm := .init block
  said := []
  sent := []
  notices := []
  played := []

/-- What the receiver reads of the clock and of the session. -/
def clock (s : SimSession) (now : Int) : Clock := ⟨BitVec.ofInt 64 now, s.rtt, s.rttVar⟩

def notify (s : SimSession) (notice : Notice) : SimSession :=
  { s with notices := s.notices ++ [notice] }

/-- `sim_session_reset`. -/
def reset (s : SimSession) (rand : BitVec 32) (now : Int) : SimSession :=
  { s with
    uid := 0
    state := .idle
    rtt := 100
    rttVar := 5
    cid := rand
    statTs := now
    resend := 0
    commadTs := now
    interrupt := .normal
    sender := none
    receiver := none }

/-! ## Sending -/

/-- `sim_session_network_send`. -/
def networkSend (s : SimSession) (strm : BinStream) : SimSession :=
  if strm.used = 0 then s else { s with sent := s.sent ++ [bytesAt strm.data 0 strm.used] }

/-- `INIT_SIM_HEADER`, `sim_encode_msg` and `sim_session_network_send`. -/
def sendMsg (s : SimSession) (id : MsgId) (body : SimBody) : Option SimSession := do
  let sstrm ← simEncodeMsg s.sstrm ⟨protocolVer, id.mid, s.uid⟩ body
  some ({ s with sstrm, said := s.said ++ [Outgoing.mk id s.uid body] }.networkSend sstrm)

/-- `sim_session_send_connect`. -/
def sendConnect (env : Env) (s : SimSession) : Option SimSession := do
  let s ← s.sendMsg .connect (.connect ⟨s.cid, 0, env.connect.token⟩)
  some { s with commadTs := env.now, resend := s.resend + 1 }

/-- `sim_session_send_disconnect`. -/
def sendDisconnect (env : Env) (s : SimSession) : Option SimSession := do
  let s ← s.sendMsg .disconnect (.disconnect ⟨s.cid⟩)
  some { s with commadTs := env.now, resend := s.resend + 1 }

/-- `sim_session_send_ping`. -/
def sendPing (env : Env) (s : SimSession) : Option SimSession := do
  let s ← s.sendMsg .ping (.ping ⟨BitVec.ofInt 64 env.now⟩)
  let s := { s with commadTs := env.now, resend := s.resend + 1 }
  some (if 12 < s.resend then { s with interrupt := .interrupt }.notify (.netInterrupt 0) else s)

/-- `sim_receiver_send_ack`, where there is an ack. -/
def sendAck (s : SimSession) : Option SegmentAck → Option SimSession
  | none => some s
  | some ack => s.sendMsg .segAck (.segAck ack.body)

/-- `send_sim_feedback`. -/
def sendSimFeedback (s : SimSession) (payload : List UInt8) : Option SimSession :=
  match s.receiver with
  | none => some s
  | some r =>
      if SimProto.simFeedbackSize < payload.length then some s
      else s.sendMsg .feedback (.feedback ⟨r.baseSeq, BitVec.ofNat 16 payload.length,
        Vector.ofFn fun i => payload.getD i 0⟩)

/-- `sim_send_packet`, with the session. -/
def simSendPacket (s : SimSession) (now : Int) (packetId : BitVec 32) : Option SimSession :=
  match s.sender with
  | none => some s
  | some snd =>
      match snd.packet now packetId with
      | none => some s
      | some (seg, snd) => { s with sender := some snd }.sendMsg .seg (.seg seg)

/-- One callback of the sender's congestion control. -/
def ccCall (now : Int) (s : SimSession) : CcCall → Option SimSession
  | .sendPacket packetId => s.simSendPacket now packetId
  | .changeBitrate bitrateKbps => some { s with sender := s.sender.map fun snd =>
      { snd with limiter := snd.limiter.setMaxBitrate (bitrateKbps * 1000) } }

/-! ## The application -/

/-- `sim_session_connect`. -/
def connect (env : Env) (localUid : BitVec 32) (s : SimSession) : Option (Int × SimSession) :=
  if s.state ≠ .idle then some (-1, s)
  else do
    let s ← { s with uid := localUid, state := .connecting, resend := 0 }.sendConnect env
    some (0, s)

/-- `sim_session_disconnect`. -/
def disconnect (env : Env) (s : SimSession) : Option (Int × SimSession) :=
  if s.state = .idle ∨ s.state = .disconnected then some (-1, s)
  else do
    let s ← { s with resend := 0, commadTs := env.now, state := .disconnected }.sendDisconnect env
    some (0, s)

/-- `sim_session_send_video`. -/
def sendVideo (env : Env) (payloadType ftype : BitVec 8) (data : List UInt8) (s : SimSession) :
    Option (Int × SimSession) :=
  if s.state ≠ .connected ∨ data.length = 0 then some (-1, s)
  else if s.interrupt = .interrupt then some (-1, s)
  else
    match s.sender with
    | none => some (-1, s)
    | some snd => do
        let snd ← snd.put payloadType ftype data env.now
        some (0, { s with sender := some snd })

/-- `sim_session_recv_video`: zero comes with a frame. -/
def recvVideo (fl : Floats) (env : Env) (bufferSize : Nat) (s : SimSession) :
    Option (Int × SimSession) :=
  match s.receiver with
  | none => some (-1, s)
  | some r => do
      let (r, out) ← (r.get fl.scaled (BitVec.ofInt 64 env.now) bufferSize).toOption
      some (if out.isSome then 0 else -1,
        { s with receiver := some r, played := s.played ++ out.toList })

/-! ## Messages -/

/-- `sim_session_calculate_rtt`. -/
def calculateRtt (s : SimSession) (keepRtt : BitVec 32) : SimSession :=
  let keepRtt := if keepRtt < 5 then 5 else keepRtt
  let rttVar := (s.rttVar * 3 +
    if keepRtt < s.rtt then s.rtt - keepRtt else keepRtt - s.rtt) / 4
  let rtt := (7 * s.rtt + keepRtt) / 8
  { s with
    rttVar := if rttVar < 10 then 10 else rttVar
    rtt := if rtt < 10 then 10 else rtt }

/-- The part of `process_sim_connect` that starts the receiver. -/
def listen (env : Env) (uid : BitVec 32) (s : SimSession) : SimSession :=
  let (s, r) := match s.receiver with
    | none => (s.notify (.startPlay uid), Receiver.new (s.clock env.now))
    | some r => (s, r.reset (s.clock env.now))
  { s with receiver := some (r.active uid (s.clock env.now)) }

/-- What `process_sim_connect` does with the message. -/
def onConnect (env : Env) (uid : BitVec 32) (body : SimConnect) (s : SimSession) :
    Option SimSession := do
  let s ← (s.listen env uid).sendMsg .connectAck (.connectAck ⟨body.cid, 0⟩)
  some { s with commadTs := env.now, resend := 0 }

/-- `process_sim_connect`. -/
def processSimConnect (env : Env) (header : SimProto.SimHeader) (strm : BinStream)
    (s : SimSession) :
    Option SimSession := do
  let ((ret, body), _) ← simDecodeMsg strm header (.connect env.connect)
  match body with
  | .connect body => if ret ≠ 0 then some s else s.onConnect env header.uid body
  | _ => none

/-- What `process_sim_connect_ack` does with the answer. -/
def answered (env : Env) (result : BitVec 32) (s : SimSession) : SimSession :=
  if s.state ≠ .connecting then s
  else
    let s :=
      if result ≠ 0 then s.reset env.rand env.now
      else
        let snd := match s.sender with
          | none => VideoSender.new
          | some snd => snd.reset
        { s with state := .connected, sender := some snd.active, interrupt := .recover }
    s.notify (.connect result)

/-- `process_sim_connect_ack`. -/
def processSimConnectAck (env : Env) (header : SimProto.SimHeader) (strm : BinStream)
    (s : SimSession) :
    Option SimSession := do
  let ((ret, body), _) ← simDecodeMsg strm header (.connectAck env.connectAck)
  match body with
  | .connectAck ack => some (if ret ≠ 0 then s else s.answered env ack.result)
  | _ => none

/-- The part of `process_sim_disconnect` that stops the receiver. -/
def deafen (s : SimSession) : SimSession :=
  match s.receiver with
  | none => s
  | some r => { s.notify (.stopPlay r.baseUid) with receiver := none }

/-- What `process_sim_disconnect` does with the message. -/
def onDisconnect (body : SimDisconnect) (s : SimSession) : Option SimSession := do
  let s ← s.sendMsg .disconnectAck (.connectAck ⟨body.cid, 0⟩)
  some s.deafen

/-- `process_sim_disconnect`. -/
def processSimDisconnect (env : Env) (header : SimProto.SimHeader) (strm : BinStream)
    (s : SimSession) :
    Option SimSession := do
  let ((ret, body), _) ← simDecodeMsg strm header (.disconnect env.disconnect)
  match body with
  | .disconnect body => if ret ≠ 0 then some s else s.onDisconnect body
  | _ => none

/-- `process_sim_disconnect_ack`. -/
def processSimDisconnectAck (env : Env) (s : SimSession) : SimSession :=
  if s.state = .disconnected then (s.reset env.rand env.now).notify (.disconnect 0) else s

/-- `process_sim_ping`. -/
def processSimPing (env : Env) (header : SimProto.SimHeader) (strm : BinStream) (s : SimSession) :
    Option SimSession := do
  let ((_, body), _) ← simDecodeMsg strm header (.ping env.ping)
  s.sendMsg .pong body

/-- The time that `process_sim_pong` takes for the round trip. -/
def keepRtt (now ts : BitVec 64) : BitVec 32 :=
  if (ts + 5).slt now then (now - ts).setWidth 32 else 5

/-- `process_sim_pong`. -/
def processSimPong (env : Env) (header : SimProto.SimHeader) (strm : BinStream) (s : SimSession) :
    Option SimSession := do
  let ((_, body), _) ← simDecodeMsg strm header (.ping env.ping)
  match body with
  | .ping pong => some (s.calculateRtt (keepRtt (BitVec.ofInt 64 env.now) pong.ts))
  | _ => none

/-- What `process_sim_seg` does with the segment. -/
def onSeg (env : Env) (seg : SimSegment) (s : SimSession) : Option SimSession :=
  match s.receiver with
  | none => some s
  | some r => do
      let (r, ack) ← (r.put (s.clock env.now) seg).toOption
      { s with receiver := some r }.sendAck ack

/-- `process_sim_seg`. -/
def processSimSeg (env : Env) (header : SimProto.SimHeader) (strm : BinStream) (s : SimSession) :
    Option SimSession :=
  if s.receiver.isNone then some s
  else do
    let ((ret, body), _) ← simDecodeMsg strm header (.seg env.seg)
    match body with
    | .seg seg => if ret ≠ 0 then some s else s.onSeg env seg
    | _ => none

/-- What `process_sim_seg_ack` does with the ack. -/
def onSegAck (fl : Floats) (env : Env) (ack : SegmentAck) (s : SimSession) :
    Option SimSession :=
  match s.sender with
  | none => some s
  | some snd => do
      let snd ← snd.ack fl.measure env.addPacket env.now ack
      some { s with sender := some snd }

/-- `process_sim_seg_ack`. -/
def processSimSegAck (fl : Floats) (env : Env) (header : SimProto.SimHeader) (strm : BinStream)
    (s : SimSession) : Option SimSession := do
  let ((ret, body), _) ← simDecodeMsg strm header (.segAck env.segAck)
  match body with
  | .segAck body => if ret ≠ 0 then some s else s.onSegAck fl env (.ofBody body)
  | _ => none

/-- What `process_sim_feedback` does with the report. -/
def onFeedback (env : Env) (basePacketId : BitVec 32) (s : SimSession) : Option SimSession :=
  match s.sender with
  | none => some s
  | some snd => do
      let snd ← snd.feedback basePacketId
      env.calls.foldlM (ccCall env.now) { s with sender := some snd }

/-- `process_sim_feedback`. -/
def processSimFeedback (env : Env) (header : SimProto.SimHeader) (strm : BinStream)
    (s : SimSession) :
    Option SimSession := do
  let ((ret, body), _) ← simDecodeMsg strm header (.feedback env.feedback)
  match body with
  | .feedback body => if ret ≠ 0 then some s else s.onFeedback env body.basePacketId
  | _ => none

/-- The `switch` of `sim_session_process`. -/
def processMsg (fl : Floats) (env : Env) (header : SimProto.SimHeader) (strm : BinStream)
    (s : SimSession) : Option SimSession :=
  match MsgId.ofMid header.mid with
  | some .connect => s.processSimConnect env header strm
  | some .connectAck => s.processSimConnectAck env header strm
  | some .disconnect => s.processSimDisconnect env header strm
  | some .disconnectAck => some (s.processSimDisconnectAck env)
  | some .ping => s.processSimPing env header strm
  | some .pong => s.processSimPong env header strm
  | some .seg => s.processSimSeg env header strm
  | some .segAck => s.processSimSegAck fl env header strm
  | some .feedback => s.processSimFeedback env header strm
  | none => some s

/-- What `sim_session_process` does for every message that it takes: the peer is there. -/
def heard (s : SimSession) : SimSession :=
  let s := if s.interrupt = .interrupt then { s with interrupt := .recover }.notify (.netRecover 0)
    else s
  { s with resend := 0 }

/-- `sim_session_process`. -/
def process (fl : Floats) (env : Env) (strm : BinStream) (s : SimSession) : Option SimSession := do
  let ((ret, header), strm) ← simDecodeHeader strm env.header
  if ret ≠ 0 then some s
  else if header.mid < minMsgId ∨ maxMsgId < header.mid then some s
  else s.heard.processMsg fl env header strm

/-- A datagram in the stream of `sim_session_loop_event`, which has room for 2048 bytes. -/
def udpRecv (block : Mem) (datagram : List UInt8) : BinStream where
  data := writeBytes block 0 (datagram.take 2048)
  size := 2048
  rptr := 0
  rsize := 0
  wptr := 0
  used := (datagram.take 2048).length

/-- What `sim_session_loop_event` does with a datagram. -/
def receive (fl : Floats) (env : Env) (datagram : List UInt8) (s : SimSession) :
    Option SimSession :=
  if datagram.length < simHeaderSize then some s
  else s.process fl env (udpRecv env.block datagram)

/-! ## The heartbeat -/

/-- The statistics of `sim_session_state_timer`, which are divided by their time in 32 bits. -/
def statistics (env : Env) (s : SimSession) : Option SimSession :=
  if s.statTs + 1000 < env.now then
    if BitVec.ofInt 32 (env.now - s.statTs) * 1024 = 0 then none
    else some { s with statTs := env.now }
  else some s

/-- What `sim_session_state_timer` does when it has repeated a command too often. -/
def giveUp (env : Env) (type : BitVec 32 → Notice) (s : SimSession) : SimSession :=
  let s := match s.receiver with
    | none => s
    | some r => s.notify (.stopPlay r.baseUid)
  (s.reset env.rand env.now).notify (type 1)

/-- `sim_session_state_timer`, with the command that it repeats and the notice when it gives
up. -/
def stateTimer (env : Env) (fn : SimSession → Option SimSession) (type : BitVec 32 → Notice)
    (tickDelay : Int) (s : SimSession) : Option SimSession := do
  let s ← s.statistics env
  if s.commadTs + tickDelay < env.now then
    if s.resend * tickDelay < 10000 then fn s else some (s.giveUp env type)
  else some s

/-- `sim_receiver_timer`, with the reports of its congestion control. -/
def receiverTimer (env : Env) (s : SimSession) : Option SimSession :=
  match s.receiver with
  | none => some s
  | some r => do
      let (r, ack) ← r.timer (s.clock env.now) (BitVec.ofInt 64 env.now)
      let s ← { s with receiver := some r }.sendAck ack
      env.reports.foldlM sendSimFeedback s

/-- The `switch` of `sim_session_heartbeat`. -/
def stateBeat (env : Env) (s : SimSession) : Option SimSession :=
  match s.state with
  | .idle => some s
  | .connecting => s.stateTimer env (sendConnect env) .connect tickDelayMs
  | .connected =>
      match s.sender with
      | none => some s
      | some _ => env.calls.foldlM (ccCall env.now) s
  | .disconnected => s.stateTimer env (sendDisconnect env) .disconnect tickDelayMs

/-- The end of `sim_session_heartbeat`. -/
def pingBeat (env : Env) (s : SimSession) : Option SimSession :=
  if s.sender.isSome ∨ s.receiver.isSome then
    s.stateTimer env (sendPing env) .networkTimeout (tickDelayMs / 4)
  else some s

/-- `sim_session_heartbeat`. -/
def heartbeat (env : Env) (s : SimSession) : Option SimSession := do
  let s ← s.receiverTimer env
  let s ← s.stateBeat env
  s.pingBeat env

/-! ## Steps -/

/-- A call of the application, a datagram or a heartbeat. -/
inductive Input where
  | connect (localUid : BitVec 32)
  | disconnect
  | sendVideo (payloadType ftype : BitVec 8) (data : List UInt8)
  | recvVideo (bufferSize : Nat)
  | receive (datagram : List UInt8)
  | heartbeat

def call (fl : Floats) (env : Env) (s : SimSession) : Input → Option SimSession
  | .connect localUid => (s.connect env localUid).map (·.2)
  | .disconnect => (s.disconnect env).map (·.2)
  | .sendVideo payloadType ftype data => (s.sendVideo env payloadType ftype data).map (·.2)
  | .recvVideo bufferSize => (s.recvVideo fl env bufferSize).map (·.2)
  | .receive datagram => s.receive fl env datagram
  | .heartbeat => s.heartbeat env

/-- A call that returns. -/
def Step (fl : Floats) (s : SimSession) (e : Env × Input) (s' : SimSession) : Prop :=
  s.call fl e.1 e.2 = some s'

end SimSession

end SimTransport

end Razor
