import RmcatNs3.Razor.LossList
import RmcatNs3.Razor.SimProtoTrip
import RmcatNs3.Razor.SimSession

/-!
# What controls a session

The timers, the commands and the notices of a session depend on a few of its fields only, and
on little of what a datagram says. This is a machine of its own, and every call of the session
is a step of it.
-/

namespace Razor

namespace SimTransport

open Runs SimProto

/-- A datagram, as far as the control of a session depends on it. -/
inductive Message where
  | ignored
  | connect (uid : BitVec 32)
  | connectAck (result : BitVec 32)
  | disconnect
  | disconnectAck
  | other
  deriving DecidableEq, Repr

/-- The fields that control a session. Of the sender there is whether it exists, and of the
receiver whose video it plays. -/
structure Control where
  state : SessionState
  interrupt : NetState
  sender : Bool
  receiver : Option (BitVec 32)
  resend : Nat
  commadTs : Int
  notices : List Notice
  deriving DecidableEq, Repr

namespace Control

def create (now : Int) : Control := ⟨.idle, .normal, false, none, 0, now, []⟩

def notify (c : Control) (notice : Notice) : Control := { c with notices := c.notices ++ [notice] }

def reset (now : Int) (c : Control) : Control :=
  { c with
    state := .idle, interrupt := .normal, sender := false, receiver := none, resend := 0
    commadTs := now }

/-- A command is sent. -/
def command (now : Int) (c : Control) : Control :=
  { c with commadTs := now, resend := c.resend + 1 }

def connect (now : Int) (c : Control) : Control :=
  if c.state ≠ .idle then c else { c with state := .connecting, resend := 0 }.command now

def disconnect (now : Int) (c : Control) : Control :=
  if c.state = .idle ∨ c.state = .disconnected then c
  else { c with resend := 0, state := .disconnected }.command now

/-- The peer is there. -/
def heard (c : Control) : Control :=
  let c := if c.interrupt = .interrupt then { c with interrupt := .recover }.notify (.netRecover 0)
    else c
  { c with resend := 0 }

/-- The peer sends video. -/
def listen (now : Int) (uid : BitVec 32) (c : Control) : Control :=
  let c := match c.receiver with
    | none => c.notify (.startPlay uid)
    | some _ => c
  { c with receiver := some uid, commadTs := now, resend := 0 }

/-- The peer has answered a connect. -/
def answered (now : Int) (result : BitVec 32) (c : Control) : Control :=
  if c.state ≠ .connecting then c
  else
    (if result ≠ 0 then c.reset now
      else { c with state := .connected, sender := true, interrupt := .recover }).notify
        (.connect result)

/-- The peer sends no more video. -/
def deafen (c : Control) : Control :=
  match c.receiver with
  | none => c
  | some uid => { c.notify (.stopPlay uid) with receiver := none }

/-- The peer has answered a disconnect. -/
def released (now : Int) (c : Control) : Control :=
  if c.state = .disconnected then (c.reset now).notify (.disconnect 0) else c

/-- The handler of a message. -/
def process (now : Int) (c : Control) : Message → Control
  | .ignored | .other => c
  | .connect uid => c.listen now uid
  | .connectAck result => c.answered now result
  | .disconnect => c.deafen
  | .disconnectAck => c.released now

def receive (now : Int) (c : Control) (message : Message) : Control :=
  if message = .ignored then c else c.heard.process now message

def ping (now : Int) (c : Control) : Control :=
  let c := c.command now
  if 12 < c.resend then { c with interrupt := .interrupt }.notify (.netInterrupt 0) else c

/-- The session gives up. -/
def giveUp (now : Int) (type : BitVec 32 → Notice) (c : Control) : Control :=
  let c := match c.receiver with
    | none => c
    | some uid => c.notify (.stopPlay uid)
  (c.reset now).notify (type 1)

def stateTimer (now : Int) (fn : Control → Control) (type : BitVec 32 → Notice)
    (tickDelay : Int) (c : Control) : Control :=
  if c.commadTs + tickDelay < now then
    if c.resend * tickDelay < 10000 then fn c else c.giveUp now type
  else c

def stateBeat (now : Int) (c : Control) : Control :=
  match c.state with
  | .idle => c
  | .connecting => c.stateTimer now (command now) .connect tickDelayMs
  | .connected => c
  | .disconnected => c.stateTimer now (command now) .disconnect tickDelayMs

/-- There is a sender or a receiver. -/
def Paired (c : Control) : Prop := c.sender = true ∨ c.receiver.isSome

instance (c : Control) : Decidable c.Paired := inferInstanceAs (Decidable (_ ∨ _))

def pingBeat (now : Int) (c : Control) : Control :=
  if c.Paired then c.stateTimer now (ping now) .networkTimeout (tickDelayMs / 4) else c

def heartbeat (now : Int) (c : Control) : Control := (c.stateBeat now).pingBeat now

/-- What a call of a session is for its control. -/
inductive Call where
  | connect
  | disconnect
  | video
  | receive (message : Message)
  | heartbeat
  deriving DecidableEq, Repr

def step (now : Int) (c : Control) : Call → Control
  | .connect => c.connect now
  | .disconnect => c.disconnect now
  | .video => c
  | .receive message => c.receive now message
  | .heartbeat => c.heartbeat now

end Control

/-! ## The control of a session -/

/-- The struct that a message is decoded into. -/
def Env.old (env : Env) : MsgId → SimBody
  | .connect => .connect env.connect
  | .connectAck | .disconnectAck => .connectAck env.connectAck
  | .disconnect => .disconnect env.disconnect
  | .ping | .pong => .ping env.ping
  | .seg => .seg env.seg
  | .segAck => .segAck env.segAck
  | .feedback => .feedback env.feedback

/-- What a message says to the control of a session. -/
def Message.ofBody (id : MsgId) (uid : BitVec 32) (body : SimBody) : Message :=
  match id, body with
  | .connect, _ => .connect uid
  | .connectAck, .connectAck ack => .connectAck ack.result
  | .disconnect, _ => .disconnect
  | .disconnectAck, _ => .disconnectAck
  | _, _ => .other

/-- What the handlers of `sim_session_process` find behind a header. -/
def Message.ofHeader (env : Env) (header : SimProto.SimHeader) (strm : BinStream) : Message :=
  match MsgId.ofMid header.mid with
  | none => .other
  | some .disconnectAck => .disconnectAck
  | some id =>
      match simDecodeMsg strm header (env.old id) with
      | none => .other
      | some ((_, body), _) => .ofBody id header.uid body

/-- What `sim_session_process` finds in a datagram. -/
def Message.read (env : Env) (datagram : List UInt8) : Message :=
  if datagram.length < simHeaderSize then .ignored
  else
    match simDecodeHeader (SimSession.udpRecv env.block datagram) env.header with
    | none => .ignored
    | some ((ret, header), strm) =>
        if ret ≠ 0 then .ignored
        else if header.mid < minMsgId ∨ maxMsgId < header.mid then .ignored
        else .ofHeader env header strm

namespace SimSession

/-- What an input is for the control of a session. -/
def Input.control (env : Env) : Input → Control.Call
  | .connect _ => .connect
  | .disconnect => .disconnect
  | .sendVideo _ _ _ | .recvVideo _ => .video
  | .receive datagram => .receive (.read env datagram)
  | .heartbeat => .heartbeat

def control (s : SimSession) : Control where
  state := s.state
  interrupt := s.interrupt
  sender := s.sender.isSome
  receiver := s.receiver.map (·.baseUid)
  resend := s.resend
  commadTs := s.commadTs
  notices := s.notices

theorem control_create (rand : BitVec 32) (now : Int) (block : StructMemory.Mem) :
    (create rand now block).control = .create now := rfl

variable {fl : Floats} {env : Env} {s s' : SimSession}

/-! ## Sending -/

/-- Datagrams have gone out, and nothing else has changed. -/
def Sends (s s' : SimSession) : Prop :=
  ∃ sstrm said sent, s' = { s with sstrm, said, sent }

theorem Sends.refl (s : SimSession) : Sends s s := ⟨s.sstrm, s.said, s.sent, rfl⟩

theorem Sends.trans {s₁ s₂ s₃ : SimSession} (h : Sends s₁ s₂) (h' : Sends s₂ s₃) :
    Sends s₁ s₃ := by
  obtain ⟨_, _, _, rfl⟩ := h
  obtain ⟨sstrm, said, sent, rfl⟩ := h'
  exact ⟨sstrm, said, sent, rfl⟩

theorem Sends.control_eq (h : Sends s s') : s'.control = s.control := by
  obtain ⟨sstrm, said, sent, rfl⟩ := h
  rfl

theorem sends_of_sendMsg {id : MsgId} {body : SimBody} (h : s.sendMsg id body = some s') :
    Sends s s' := by
  obtain ⟨sstrm, -, h⟩ := Option.bind_eq_some_iff.mp h
  obtain rfl := Option.some.inj h
  rw [networkSend]
  split
  · exact ⟨sstrm, _, s.sent, rfl⟩
  · exact ⟨sstrm, _, _, rfl⟩

theorem sends_of_sendAck {ack : Option SegmentAck} (h : s.sendAck ack = some s') :
    Sends s s' := by
  cases ack with
  | none =>
      obtain rfl := Option.some.inj h
      exact .refl s
  | some ack => exact sends_of_sendMsg h

theorem sends_of_sendSimFeedback {payload : List UInt8}
    (h : s.sendSimFeedback payload = some s') : Sends s s' := by
  rw [sendSimFeedback] at h
  split at h
  · obtain rfl := Option.some.inj h
    exact .refl s
  · split at h
    · obtain rfl := Option.some.inj h
      exact .refl s
    · exact sends_of_sendMsg h

theorem sends_of_reports {reports : List (List UInt8)}
    (h : reports.foldlM sendSimFeedback s = some s') : Sends s s' := by
  induction reports generalizing s with
  | nil =>
      obtain rfl := Option.some.inj h
      exact .refl s
  | cons report rest ih =>
      rw [List.foldlM_cons] at h
      obtain ⟨s₁, hfirst, hrest⟩ := Option.bind_eq_some_iff.mp h
      exact (sends_of_sendSimFeedback hfirst).trans (ih hrest)

/-! ## Each function -/

theorem control_sendConnect (h : s.sendConnect env = some s') :
    s'.control = s.control.command env.now := by
  obtain ⟨s₁, hsend, h⟩ := Option.bind_eq_some_iff.mp h
  obtain rfl := Option.some.inj h
  obtain ⟨sstrm, said, sent, rfl⟩ := sends_of_sendMsg hsend
  rfl

theorem control_sendDisconnect (h : s.sendDisconnect env = some s') :
    s'.control = s.control.command env.now := by
  obtain ⟨s₁, hsend, h⟩ := Option.bind_eq_some_iff.mp h
  obtain rfl := Option.some.inj h
  obtain ⟨sstrm, said, sent, rfl⟩ := sends_of_sendMsg hsend
  rfl

theorem control_sendPing (h : s.sendPing env = some s') :
    s'.control = s.control.ping env.now := by
  obtain ⟨s₁, hsend, h⟩ := Option.bind_eq_some_iff.mp h
  obtain rfl := Option.some.inj h
  obtain ⟨sstrm, said, sent, rfl⟩ := sends_of_sendMsg hsend
  rw [apply_ite control]
  rfl

theorem control_simSendPacket {packetId : BitVec 32}
    (h : s.simSendPacket env.now packetId = some s') : s'.control = s.control := by
  rw [simSendPacket] at h
  split at h
  · obtain rfl := Option.some.inj h
    rfl
  · rename_i snd hsender
    split at h
    · obtain rfl := Option.some.inj h
      rfl
    · rw [(sends_of_sendMsg h).control_eq]
      simp only [control, hsender, Option.isSome_some]

theorem control_calls {calls : List CcCall} (h : calls.foldlM (ccCall env.now) s = some s') :
    s'.control = s.control := by
  induction calls generalizing s with
  | nil =>
      obtain rfl := Option.some.inj h
      rfl
  | cons call rest ih =>
      rw [List.foldlM_cons] at h
      obtain ⟨s₁, hfirst, hrest⟩ := Option.bind_eq_some_iff.mp h
      rw [ih hrest]
      cases call with
      | sendPacket packetId => exact control_simSendPacket hfirst
      | changeBitrate bitrateKbps =>
          obtain rfl := Option.some.inj hfirst
          simp only [control, Option.isSome_map]

end SimSession

namespace Receiver

variable {clock : Clock} {r r' : Receiver}

theorem baseUid_videoRealAck {hb : Bool} {seq : BitVec 32} {ack : Option SegmentAck}
    (h : r.videoRealAck clock hb seq = some (r', ack)) : r'.baseUid = r.baseUid := by
  rw [videoRealAck] at h
  split at h
  · split at h
    · cases h
    · rename_i r₁ hbase
      obtain ⟨rfl, -⟩ := Prod.mk.inj (Option.some.inj h)
      rw [adaptWait_eq, advanceBase_eq hbase]
  · obtain ⟨rfl, -⟩ := Prod.mk.inj (Option.some.inj h)
    rfl

theorem baseUid_start (seg : SimSegment) : (r.start seg).baseUid = r.baseUid := by
  rw [start]
  split <;> rfl

theorem baseUid_put {seg : SimSegment} {ack : Option SegmentAck}
    (h : r.put clock seg = .ok (r', ack)) : r'.baseUid = r.baseUid := by
  have hresult := put_result clock r seg
  rw [h] at hresult
  generalize hout : (Except.ok (r', ack) : Except Fault _) = out at hresult
  cases hresult with
  | ignored =>
      obtain ⟨rfl, -⟩ := Prod.mk.inj (Except.ok.inj hout)
      rfl
  | fault => cases hout
  | rejected _ hloss =>
      obtain ⟨rfl, -⟩ := Prod.mk.inj (Except.ok.inj hout)
      rw [updateLoss_eq hloss]
      exact baseUid_start seg
  | endless => cases hout
  | taken _ hloss _ htaken =>
      obtain rfl := Except.ok.inj hout
      rw [baseUid_videoRealAck htaken, updateLoss_eq hloss]
      exact baseUid_start seg

theorem baseUid_get {scaled : Speed → BitVec 64 → BitVec 32} {now : BitVec 64}
    {bufferSize : Nat} {out : Option VideoCache.Delivery}
    (h : r.get scaled now bufferSize = .ok (r', out)) : r'.baseUid = r.baseUid := by
  rw [Receiver.get] at h
  split at h
  · obtain ⟨result, -, hresult⟩ := map_eq_ok h
    obtain ⟨rfl, -⟩ := Prod.mk.inj hresult
    rfl
  · obtain ⟨rfl, -⟩ := Prod.mk.inj (Except.ok.inj h)
    rfl

theorem baseUid_timer {nowTs : BitVec 64} {ack : Option SegmentAck}
    (h : r.timer clock nowTs = some (r', ack)) : r'.baseUid = r.baseUid := by
  obtain ⟨⟨r₁, out⟩, hack, hresult⟩ := Option.map_eq_some_iff.mp h
  obtain ⟨rfl, -⟩ := Prod.mk.inj hresult
  refine Eq.trans ?_ (baseUid_videoRealAck hack)
  rw [lowerWait]
  split <;> rfl

/-- A receiver that has just been created or reset plays this peer. -/
theorem baseUid_active {uid : BitVec 32} (h : r.actived = false) :
    (r.active uid clock).baseUid = uid := by
  rw [active, if_neg (by rw [h]; exact Bool.false_ne_true)]

end Receiver

namespace SimSession

variable {fl : Floats} {env : Env} {header : SimProto.SimHeader} {strm : BinStream}
  {s s' : SimSession}

/-! ## Messages -/

/-- The handler of a message, with what has been decoded. -/
def handle (fl : Floats) (env : Env) (uid : BitVec 32) (s : SimSession) :
    MsgId → SimBody → Option SimSession
  | .connect, .connect body => s.onConnect env uid body
  | .connectAck, .connectAck ack => some (s.answered env ack.result)
  | .disconnect, .disconnect body => s.onDisconnect body
  | .disconnectAck, _ => some (s.processSimDisconnectAck env)
  | .ping, body => s.sendMsg .pong body
  | .pong, .ping pong => some (s.calculateRtt (keepRtt (BitVec.ofInt 64 env.now) pong.ts))
  | .seg, .seg seg => s.onSeg env seg
  | .segAck, .segAck body => s.onSegAck fl env (.ofBody body)
  | .feedback, .feedback body => s.onFeedback env body.basePacketId
  | _, _ => none

/-- What has been decoded is the struct that the message asks for. -/
theorem fits_of_simDecodeMsg {id : MsgId} {old body : SimBody} {ret : Int} {strm' : BinStream}
    (hid : MsgId.ofMid header.mid = some id)
    (h : simDecodeMsg strm header old = some ((ret, body), strm')) :
    ret = 0 ∧ body.Fits id := by
  unfold simDecodeMsg at h
  rw [hid] at h
  cases id <;> cases old <;> first | cases h | skip
  all_goals
    obtain ⟨result, -, hresult⟩ := Option.bind_eq_some_iff.mp h
    cases hresult
    exact ⟨rfl, trivial⟩

/-- What a handler decodes. -/
def Decoded (env : Env) (header : SimProto.SimHeader) (strm : BinStream) (id : MsgId)
    (body : SimBody) :
    Prop :=
  id = .disconnectAck ∨ ∃ strm', simDecodeMsg strm header (env.old id) = some ((0, body), strm')

/-- The ways that the `switch` of `sim_session_process` may go. -/
inductive Processed (fl : Floats) (env : Env) (header : SimProto.SimHeader) (strm : BinStream)
    (s : SimSession) : SimSession → Prop
  | skipped (h : MsgId.ofMid header.mid = none ∨
      MsgId.ofMid header.mid = some .seg ∧ s.receiver = none) :
      Processed fl env header strm s s
  | handled {id : MsgId} {body : SimBody} {s' : SimSession}
      (hid : MsgId.ofMid header.mid = some id) (hfits : body.Fits id)
      (hdec : Decoded env header strm id body)
      (h : s.handle fl env header.uid id body = some s') : Processed fl env header strm s s'

theorem processed_of_processMsg (h : s.processMsg fl env header strm = some s') :
    Processed fl env header strm s s' := by
  rw [processMsg] at h
  split at h
  case h_4 hid =>
    have hfits : SimBody.Fits (.connectAck env.connectAck) .disconnectAck := trivial
    exact .handled hid hfits (.inl rfl) h
  case h_7 hid =>
    rw [processSimSeg] at h
    split at h
    · rename_i hnone
      obtain rfl := Option.some.inj h
      exact .skipped (.inr ⟨hid, Option.isNone_iff_eq_none.mp hnone⟩)
    · obtain ⟨⟨⟨ret, body⟩, strm'⟩, hdec, h⟩ := Option.bind_eq_some_iff.mp h
      obtain ⟨rfl, hfits⟩ := fits_of_simDecodeMsg hid hdec
      cases body <;> first
        | exact absurd hfits not_false
        | exact .handled hid hfits (.inr ⟨strm', hdec⟩) h
  case h_10 hid =>
    obtain rfl := Option.some.inj h
    exact .skipped (.inl hid)
  all_goals
    rename_i hid
    obtain ⟨⟨⟨ret, body⟩, strm'⟩, hdec, h⟩ := Option.bind_eq_some_iff.mp h
    obtain ⟨rfl, hfits⟩ := fits_of_simDecodeMsg hid hdec
    cases body <;> first
      | exact absurd hfits not_false
      | exact .handled hid hfits (.inr ⟨strm', hdec⟩) h

theorem control_listen (env : Env) (uid : BitVec 32) (s : SimSession) :
    { s.listen env uid with commadTs := env.now, resend := 0 }.control =
      s.control.listen env.now uid := by
  have hnew : ((Receiver.new (s.clock env.now)).active uid (s.clock env.now)).baseUid = uid :=
    Receiver.baseUid_active rfl
  have hreset : ∀ r : Receiver,
      ((r.reset (s.clock env.now)).active uid (s.clock env.now)).baseUid = uid :=
    fun r => Receiver.baseUid_active rfl
  rw [listen, Control.listen]
  cases hreceiver : s.receiver with
  | none =>
      simp only [control, notify, Control.notify, clock, hreceiver, Option.map_none,
        Option.map_some] at hnew ⊢
      rw [hnew]
  | some r =>
      simp only [control, clock, hreceiver, Option.map_some] at hreset ⊢
      rw [hreset]

theorem control_onConnect {uid : BitVec 32} {body : SimConnect}
    (h : s.onConnect env uid body = some s') :
    s'.control = s.control.listen env.now uid := by
  obtain ⟨s₁, hsend, h⟩ := Option.bind_eq_some_iff.mp h
  obtain rfl := Option.some.inj h
  obtain ⟨sstrm, said, sent, rfl⟩ := sends_of_sendMsg hsend
  exact control_listen env uid s

theorem control_answered (result : BitVec 32) :
    (s.answered env result).control = s.control.answered env.now result := by
  have hsame : s.control.state = s.state := rfl
  rw [answered, Control.answered, hsame]
  by_cases hstate : s.state = .connecting
  · rw [if_neg (not_not.mpr hstate), if_neg (not_not.mpr hstate)]
    by_cases hresult : result = 0
    · simp only [if_neg (not_not.mpr hresult)]
      rfl
    · simp only [ne_eq, hresult, not_false_eq_true, if_true]
      rfl
  · rw [if_pos hstate, if_pos hstate]

theorem control_deafen (s : SimSession) : s.deafen.control = s.control.deafen := by
  rw [deafen, Control.deafen]
  cases hreceiver : s.receiver with
  | none => simp only [control, hreceiver, Option.map_none]
  | some r =>
      simp only [control, notify, Control.notify, hreceiver, Option.map_some, Option.map_none]

theorem control_processSimDisconnectAck (env : Env) (s : SimSession) :
    (s.processSimDisconnectAck env).control = s.control.released env.now := by
  rw [processSimDisconnectAck, apply_ite control]
  rfl

theorem control_onSeg {seg : SimSegment} (h : s.onSeg env seg = some s') :
    s'.control = s.control := by
  rw [onSeg] at h
  split at h
  · obtain rfl := Option.some.inj h
    rfl
  · rename_i r hreceiver
    obtain ⟨⟨r', ack⟩, hput, hsend⟩ := Option.bind_eq_some_iff.mp h
    rw [(sends_of_sendAck hsend).control_eq]
    simp only [control, hreceiver, Option.map_some,
      Receiver.baseUid_put (ok_of_toOption hput)]

theorem control_onSegAck {ack : SegmentAck} (h : s.onSegAck fl env ack = some s') :
    s'.control = s.control := by
  rw [onSegAck] at h
  split at h
  · obtain rfl := Option.some.inj h
    rfl
  · rename_i snd hsender
    obtain ⟨snd', -, h⟩ := Option.bind_eq_some_iff.mp h
    obtain rfl := Option.some.inj h
    simp only [control, hsender, Option.isSome_some]

theorem control_onFeedback {basePacketId : BitVec 32}
    (h : s.onFeedback env basePacketId = some s') : s'.control = s.control := by
  rw [onFeedback] at h
  split at h
  · obtain rfl := Option.some.inj h
    rfl
  · rename_i snd hsender
    obtain ⟨snd', -, hcalls⟩ := Option.bind_eq_some_iff.mp h
    rw [control_calls hcalls]
    simp only [control, hsender, Option.isSome_some]

/-- **The handler of a message** is a step of the control. -/
theorem control_handle {id : MsgId} {uid : BitVec 32} {body : SimBody} (hfits : body.Fits id)
    (h : s.handle fl env uid id body = some s') :
    s'.control = s.control.process env.now (.ofBody id uid body) := by
  cases id <;> cases body <;> first | exact absurd hfits not_false | skip
  case connect.connect body => exact control_onConnect h
  case connectAck.connectAck ack =>
    obtain rfl := Option.some.inj h
    exact control_answered ack.result
  case disconnect.disconnect body =>
    obtain ⟨s₁, hsend, h⟩ := Option.bind_eq_some_iff.mp h
    obtain rfl := Option.some.inj h
    rw [control_deafen, (sends_of_sendMsg hsend).control_eq]
    rfl
  case disconnectAck.connectAck body =>
    obtain rfl := Option.some.inj h
    exact control_processSimDisconnectAck env s
  case ping.ping body => exact (sends_of_sendMsg h).control_eq
  case pong.ping body =>
    obtain rfl := Option.some.inj h
    rfl
  case seg.seg seg => exact control_onSeg h
  case segAck.segAck body => exact control_onSegAck h
  case feedback.feedback body => exact control_onFeedback h

theorem ofHeader_eq {id : MsgId} {body : SimBody} (hid : MsgId.ofMid header.mid = some id)
    (hdec : Decoded env header strm id body) :
    Message.ofHeader env header strm = .ofBody id header.uid body := by
  rcases hdec with rfl | ⟨strm', hdec⟩
  · rw [Message.ofHeader, hid]
    cases body <;> rfl
  · rw [Message.ofHeader, hid]
    cases id <;> dsimp only <;> first | rw [hdec] | (cases body <;> rfl)

theorem ofBody_ne_ignored (id : MsgId) (uid : BitVec 32) (body : SimBody) :
    Message.ofBody id uid body ≠ .ignored := by
  cases id <;> cases body <;> exact Message.noConfusion

theorem ofHeader_ne_ignored (env : Env) (header : SimProto.SimHeader) (strm : BinStream) :
    Message.ofHeader env header strm ≠ .ignored := by
  rw [Message.ofHeader]
  split
  · exact Message.noConfusion
  · exact Message.noConfusion
  · split
    · exact Message.noConfusion
    · exact ofBody_ne_ignored _ _ _

theorem control_processMsg (h : s.processMsg fl env header strm = some s') :
    s'.control = s.control.process env.now (.ofHeader env header strm) := by
  have hcases := processed_of_processMsg h
  cases hcases with
  | skipped hskip =>
      rcases hskip with hid | ⟨hid, -⟩
      · rw [Message.ofHeader, hid]
        rfl
      · rw [Message.ofHeader, hid]
        dsimp only
        cases simDecodeMsg strm header (env.old .seg) <;> rfl
  | handled hid hfits hdec h =>
      rw [ofHeader_eq hid hdec]
      exact control_handle hfits h

theorem control_heard (s : SimSession) : s.heard.control = s.control.heard := by
  have hsame : s.control.interrupt = s.interrupt := rfl
  rw [heard, Control.heard, hsame]
  by_cases hinterrupt : s.interrupt = .interrupt
  · simp only [if_pos hinterrupt]
    rfl
  · simp only [if_neg hinterrupt]
    rfl

theorem control_receive {datagram : List UInt8} (h : s.receive fl env datagram = some s') :
    s'.control = s.control.receive env.now (.read env datagram) := by
  rw [receive] at h
  rw [Message.read]
  split at h
  · rename_i hshort
    obtain rfl := Option.some.inj h
    rw [if_pos hshort]
    rfl
  · rename_i hlong
    rw [if_neg hlong]
    obtain ⟨⟨⟨ret, header⟩, strm⟩, hdec, h⟩ := Option.bind_eq_some_iff.mp h
    rw [hdec]
    dsimp only at h ⊢
    split at h
    · rename_i hret
      obtain rfl := Option.some.inj h
      rw [if_pos hret]
      rfl
    · rename_i hret
      rw [if_neg hret]
      split at h
      · rename_i hmid
        obtain rfl := Option.some.inj h
        rw [if_pos hmid]
        rfl
      · rename_i hmid
        rw [if_neg hmid, control_processMsg h, control_heard, Control.receive,
          if_neg (ofHeader_ne_ignored env header strm)]

/-! ## The heartbeat -/

theorem control_giveUp (type : BitVec 32 → Notice) (s : SimSession) :
    (s.giveUp env type).control = s.control.giveUp env.now type := by
  rw [giveUp, Control.giveUp]
  cases hreceiver : s.receiver with
  | none => simp only [control, hreceiver, Option.map_none]; rfl
  | some r => simp only [control, hreceiver, Option.map_some]; rfl

/-- **The timer of a command**, if the command is a step of the control. -/
theorem control_stateTimer {fn : SimSession → Option SimSession} {f : Control → Control}
    {type : BitVec 32 → Notice} {tickDelay : Int}
    (hfn : ∀ s s', fn s = some s' → s'.control = f s.control)
    (h : s.stateTimer env fn type tickDelay = some s') :
    s'.control = s.control.stateTimer env.now f type tickDelay := by
  obtain ⟨s₁, hstat, h⟩ := Option.bind_eq_some_iff.mp h
  have hs₁ : s₁.control = s.control := by
    rw [statistics] at hstat
    split at hstat
    · split at hstat
      · cases hstat
      · obtain rfl := Option.some.inj hstat
        rfl
    · obtain rfl := Option.some.inj hstat
      rfl
  rw [← hs₁, Control.stateTimer]
  have hcommad : s₁.control.commadTs = s₁.commadTs := rfl
  have hresend : s₁.control.resend = s₁.resend := rfl
  rw [hcommad, hresend]
  split at h
  · rename_i hlate
    rw [if_pos hlate]
    split at h
    · rename_i hfew
      rw [if_pos hfew]
      exact hfn s₁ s' h
    · rename_i hmany
      obtain rfl := Option.some.inj h
      rw [if_neg hmany]
      exact control_giveUp type s₁
  · rename_i hearly
    obtain rfl := Option.some.inj h
    rw [if_neg hearly]

theorem control_receiverTimer (h : s.receiverTimer env = some s') : s'.control = s.control := by
  rw [receiverTimer] at h
  split at h
  · obtain rfl := Option.some.inj h
    rfl
  · rename_i r hreceiver
    obtain ⟨⟨r', ack⟩, htimer, h⟩ := Option.bind_eq_some_iff.mp h
    obtain ⟨s₁, hack, hreports⟩ := Option.bind_eq_some_iff.mp h
    rw [(sends_of_reports hreports).control_eq, (sends_of_sendAck hack).control_eq]
    simp only [control, hreceiver, Option.map_some, Receiver.baseUid_timer htimer]

theorem control_stateBeat (h : s.stateBeat env = some s') :
    s'.control = s.control.stateBeat env.now := by
  have hsame : s.control.state = s.state := rfl
  rw [stateBeat] at h
  rw [Control.stateBeat, hsame]
  cases hstate : s.state with
  | idle =>
      rw [hstate] at h
      obtain rfl := Option.some.inj h
      rfl
  | connecting =>
      rw [hstate] at h
      exact control_stateTimer (fun _ _ => control_sendConnect) h
  | connected =>
      rw [hstate] at h
      dsimp only at h
      split at h
      · obtain rfl := Option.some.inj h
        rfl
      · exact control_calls h
  | disconnected =>
      rw [hstate] at h
      exact control_stateTimer (fun _ _ => control_sendDisconnect) h

theorem control_pingBeat (h : s.pingBeat env = some s') :
    s'.control = s.control.pingBeat env.now := by
  have hpaired : s.control.Paired ↔ s.sender.isSome ∨ s.receiver.isSome := by
    rw [Control.Paired, control, Option.isSome_map]
  rw [pingBeat] at h
  rw [Control.pingBeat]
  split at h
  · rename_i hthere
    rw [if_pos (hpaired.mpr hthere)]
    exact control_stateTimer (fun _ _ => control_sendPing) h
  · rename_i hgone
    obtain rfl := Option.some.inj h
    rw [if_neg fun h => hgone (hpaired.mp h)]

theorem control_heartbeat (h : s.heartbeat env = some s') :
    s'.control = s.control.heartbeat env.now := by
  obtain ⟨s₁, htimer, h⟩ := Option.bind_eq_some_iff.mp h
  obtain ⟨s₂, hstate, hping⟩ := Option.bind_eq_some_iff.mp h
  rw [control_pingBeat hping, control_stateBeat hstate, control_receiverTimer htimer,
    Control.heartbeat]

/-! ## Steps -/

theorem control_connect {ret : Int} {localUid : BitVec 32}
    (h : s.connect env localUid = some (ret, s')) : s'.control = s.control.connect env.now := by
  have hsame : s.control.state = s.state := rfl
  rw [connect] at h
  rw [Control.connect, hsame]
  split at h
  · rename_i hstate
    obtain ⟨-, rfl⟩ := Prod.mk.inj (Option.some.inj h)
    rw [if_pos hstate]
  · rename_i hstate
    obtain ⟨s₁, hsend, h⟩ := Option.bind_eq_some_iff.mp h
    obtain ⟨-, rfl⟩ := Prod.mk.inj (Option.some.inj h)
    rw [if_neg hstate, control_sendConnect hsend]
    rfl

theorem control_disconnect {ret : Int} (h : s.disconnect env = some (ret, s')) :
    s'.control = s.control.disconnect env.now := by
  have hsame : s.control.state = s.state := rfl
  rw [disconnect] at h
  rw [Control.disconnect, hsame]
  split at h
  · rename_i hstate
    obtain ⟨-, rfl⟩ := Prod.mk.inj (Option.some.inj h)
    rw [if_pos hstate]
  · rename_i hstate
    obtain ⟨s₁, hsend, h⟩ := Option.bind_eq_some_iff.mp h
    obtain ⟨-, rfl⟩ := Prod.mk.inj (Option.some.inj h)
    rw [if_neg hstate, control_sendDisconnect hsend]
    rfl

theorem control_sendVideo {payloadType ftype : BitVec 8} {data : List UInt8} {ret : Int}
    (h : s.sendVideo env payloadType ftype data = some (ret, s')) : s'.control = s.control := by
  rw [sendVideo] at h
  split at h
  · obtain ⟨-, rfl⟩ := Prod.mk.inj (Option.some.inj h)
    rfl
  · split at h
    · obtain ⟨-, rfl⟩ := Prod.mk.inj (Option.some.inj h)
      rfl
    · split at h
      · obtain ⟨-, rfl⟩ := Prod.mk.inj (Option.some.inj h)
        rfl
      · rename_i snd hsender
        obtain ⟨snd', -, h⟩ := Option.bind_eq_some_iff.mp h
        obtain ⟨-, rfl⟩ := Prod.mk.inj (Option.some.inj h)
        simp only [control, hsender, Option.isSome_some]

theorem control_recvVideo {bufferSize : Nat} {ret : Int}
    (h : s.recvVideo fl env bufferSize = some (ret, s')) : s'.control = s.control := by
  rw [recvVideo] at h
  split at h
  · obtain ⟨-, rfl⟩ := Prod.mk.inj (Option.some.inj h)
    rfl
  · rename_i r hreceiver
    obtain ⟨⟨r', out⟩, hget, h⟩ := Option.bind_eq_some_iff.mp h
    obtain ⟨-, rfl⟩ := Prod.mk.inj (Option.some.inj h)
    simp only [control, hreceiver, Option.map_some, Receiver.baseUid_get (ok_of_toOption hget)]

/-- **A call of a session** is a step of its control. -/
theorem control_of_step {e : Env × Input} (h : Step fl s e s') :
    s'.control = s.control.step e.1.now (e.2.control e.1) := by
  obtain ⟨env, e⟩ := e
  cases e with
  | connect localUid =>
      obtain ⟨result, hcall, rfl⟩ := Option.map_eq_some_iff.mp h
      exact control_connect hcall
  | disconnect =>
      obtain ⟨result, hcall, rfl⟩ := Option.map_eq_some_iff.mp h
      exact control_disconnect hcall
  | sendVideo payloadType ftype data =>
      obtain ⟨result, hcall, rfl⟩ := Option.map_eq_some_iff.mp h
      exact control_sendVideo hcall
  | recvVideo bufferSize =>
      obtain ⟨result, hcall, rfl⟩ := Option.map_eq_some_iff.mp h
      exact control_recvVideo hcall
  | receive datagram => exact control_receive h
  | heartbeat => exact control_heartbeat h

end SimSession

end SimTransport

end Razor
