import RmcatNs3.Razor.ControlRuns
import RmcatNs3.Razor.SessionWire

/-!
# What a session upholds

A rule for sessions: what holds of the window of the sender, of the receiver, and of the
segments and bases that go out, holds behind every call, if it is closed under what the sender
and the receiver do with the segments and bases that come in. The rule says nothing about the
bytes of a datagram; what has been sent by a session is what its peer handles. With nothing to
uphold it says that whatever comes in, everything that goes out is taken by a decoder.
-/

namespace Razor

namespace SimTransport

open Runs SimProto StructMemory BinStream

/-- The timer of a command starts no receiver. -/
theorem Control.isSome_of_stateTimer {c : Control} {now tickDelay : Int}
    {fn : Control → Control} {type : BitVec 32 → Notice}
    (hfn : (fn c).receiver = c.receiver) :
    (c.stateTimer now fn type tickDelay).receiver.isSome → c.receiver.isSome := by
  rcases stateTimer_cases now fn type tickDelay c with
    ⟨-, heq⟩ | ⟨-, ⟨-, heq⟩ | ⟨-, heq⟩⟩
  · rw [heq]
    exact id
  · rw [heq, hfn]
    exact id
  · rw [heq, giveUp_eq]
    exact fun h => absurd h Bool.false_ne_true

namespace SimSession

variable {fl : Floats} {env : Env} {s s' : SimSession}

/-- What is to be upheld: of each segment and each base that goes out, the latter with the
receiver, of the window of the sender, of the receiver, and of what has been played. -/
structure Rule where
  seg : SimSegment → Prop
  base : Option Receiver → BitVec 32 → Prop
  sender : Sender → Prop
  receiver : Receiver → Prop
  played : List VideoCache.Delivery → Prop

/-- A session that upholds a rule. -/
structure Upholds (ρ : Rule) (s : SimSession) : Prop where
  size : 0 < s.sstrm.size
  sender : ∀ snd ∈ s.sender, Sendable ρ.seg snd ∧ ρ.sender snd.toSender
  receiver : ∀ r ∈ s.receiver, ρ.receiver r
  said : ∀ m ∈ s.said, m.Sound ∧ Says ρ.seg (ρ.base s.receiver) m.body
  wire : s.sent = s.said.map Outgoing.wire
  played : ρ.played s.played

/-- What a session does on its own keeps the rule. -/
structure Rule.Closed (ρ : Rule) : Prop where
  resent : ∀ seg seg', ρ.seg seg → Resent seg seg' → ρ.seg seg'
  sameWindow : ∀ snd snd', ρ.sender snd → SameWindow snd snd' → ρ.sender snd'
  timer : ∀ clock r r' now ack, ρ.receiver r → r.timer clock now = some (r', ack) →
    ρ.receiver r' ∧ ∀ base, ρ.base (some r) base → ρ.base (some r') base
  base : ∀ r, ρ.receiver r → ρ.base (some r) r.baseSeq

/-- The receiver stays, or what it has said may stay without it. -/
def Rule.Keeps (ρ : Rule) (r r' : Option Receiver) : Prop :=
  (r.isSome → r'.isSome) ∨ ∀ r base, ρ.base r base → ρ.base none base

/-- What a message brings keeps the rule. -/
def Admits (ρ : Rule) (env : Env) (s : SimSession) : SimBody → Prop
  | .seg seg => ∀ r ∈ s.receiver, ρ.receiver r → ∀ r' ack,
      r.put (s.clock env.now) seg = .ok (r', ack) →
        ρ.receiver r' ∧ ∀ base, ρ.base (some r) base → ρ.base (some r') base
  | .segAck ack =>
      ∀ snd snd', ρ.sender snd → snd.updateBase ack.basePacketId = some snd' → ρ.sender snd'
  | .feedback feedback =>
      ∀ snd snd', ρ.sender snd → snd.updateBase feedback.basePacketId = some snd' → ρ.sender snd'
  | .connect _ | .connectAck _ | .disconnect _ | .ping _ => True

variable {ρ : Rule}

/-- What is upheld depends on these fields. -/
theorem Upholds.congr (h : Upholds ρ s) (hsstrm : s'.sstrm = s.sstrm)
    (hsender : s'.sender = s.sender) (hreceiver : s'.receiver = s.receiver)
    (hsaid : s'.said = s.said) (hsent : s'.sent = s.sent) (hplayed : s'.played = s.played) :
    Upholds ρ s' where
  size := by
    rw [hsstrm]
    exact h.size
  sender := by
    rw [hsender]
    exact h.sender
  receiver := by
    rw [hreceiver]
    exact h.receiver
  said := by
    rw [hsaid, hreceiver]
    exact h.said
  wire := by
    rw [hsent, hsaid]
    exact h.wire
  played := by
    rw [hplayed]
    exact h.played

theorem Upholds.sent (h : Upholds ρ s) :
    ∀ datagram ∈ s.sent, Spoken (Says ρ.seg (ρ.base s.receiver)) datagram := by
  rw [h.wire]
  intro datagram hmem
  obtain ⟨m, hm, rfl⟩ := List.mem_map.mp hmem
  exact ⟨m, rfl, h.said m hm⟩

theorem Upholds.talks (h : Upholds ρ s) (htalks : Talks (Says ρ.seg (ρ.base s.receiver)) s s') :
    Upholds ρ s' := by
  obtain ⟨sstrm, news, rfl, hsize, hnews⟩ := htalks
  refine ⟨hsize, h.sender, h.receiver, fun m hmem => ?_, ?_, h.played⟩
  · exact (List.mem_append.mp hmem).elim (h.said m) (hnews m)
  · rw [List.map_append, h.wire]

/-- A command, or an answer to one. -/
theorem Upholds.sendMsg (h : Upholds ρ s) {id : MsgId} {body : SimBody}
    (hfits : body.Fits id) (hrange : body.InRange) (hsaid : Says ρ.seg (ρ.base s.receiver) body)
    (hsend : s.sendMsg id body = some s') : Upholds ρ s' :=
  h.talks (talks_of_sendMsg h.size hfits hrange hsaid hsend)

theorem Upholds.withSender (h : Upholds ρ s) {snd : VideoSender}
    (hsnd : Sendable ρ.seg snd ∧ ρ.sender snd.toSender) : Upholds ρ { s with sender := some snd } :=
  ⟨h.size, fun _ hmem => Option.some.inj hmem ▸ hsnd, h.receiver, h.said, h.wire, h.played⟩

/-- Another receiver, for which everything that has been said still holds. -/
theorem Upholds.withReceiver (h : Upholds ρ s) {r : Option Receiver}
    (hr : ∀ r' ∈ r, ρ.receiver r') (hB : ∀ base, ρ.base s.receiver base → ρ.base r base) :
    Upholds ρ { s with receiver := r } :=
  ⟨h.size, h.sender, hr, fun m hmem => (h.said m hmem).imp_right fun hsaid =>
    hsaid.mono (fun _ => id) hB, h.wire, h.played⟩

theorem Upholds.withoutReceiver (h : Upholds ρ s)
    (hkeeps : ρ.Keeps s.receiver none) : Upholds ρ { s with receiver := none } := by
  refine h.withReceiver (fun _ hmem => absurd hmem (Option.not_mem_none _)) fun base hbase => ?_
  rcases hkeeps with hstays | hdrop
  · cases hreceiver : s.receiver with
    | none =>
        rw [hreceiver] at hbase
        exact hbase
    | some r =>
        rw [hreceiver] at hstays
        exact absurd (hstays rfl) Bool.false_ne_true
  · exact hdrop _ base hbase

theorem Upholds.reset (h : Upholds ρ s) (hkeeps : ρ.Keeps s.receiver none) (rand : BitVec 32)
    (now : Int) : Upholds ρ (s.reset rand now) where
  size := h.size
  sender _ hmem := absurd hmem (Option.not_mem_none _)
  receiver _ hmem := absurd hmem (Option.not_mem_none _)
  said := (h.withoutReceiver hkeeps).said
  wire := h.wire
  played := h.played

theorem Upholds.listen (h : Upholds ρ s) {uid : BitVec 32}
    (hlisten : ∀ r ∈ (s.listen env uid).receiver, ρ.receiver r)
    (hB : ∀ base, ρ.base s.receiver base → ρ.base (s.listen env uid).receiver base) :
    Upholds ρ (s.listen env uid) := by
  have hwith := h.withReceiver hlisten hB
  have hsame : (s.listen env uid).sstrm = s.sstrm ∧ (s.listen env uid).sender = s.sender ∧
      (s.listen env uid).said = s.said ∧ (s.listen env uid).sent = s.sent ∧
      (s.listen env uid).played = s.played := by
    rw [SimSession.listen]
    cases s.receiver <;> exact ⟨rfl, rfl, rfl, rfl, rfl⟩
  obtain ⟨hsstrm, hsender, hsaid, hsent, hplayed⟩ := hsame
  exact hwith.congr hsstrm hsender rfl hsaid hsent hplayed

theorem Upholds.answered (h : Upholds ρ s) {result : BitVec 32}
    (hkeeps : ρ.Keeps s.receiver (s.answered env result).receiver)
    (hnew : s.state = .connecting → ρ.sender .new) : Upholds ρ (s.answered env result) := by
  rw [SimSession.answered] at hkeeps ⊢
  split at hkeeps
  · rw [if_pos ‹_›]
    exact h
  · rename_i hstate
    rw [if_neg hstate]
    split at hkeeps
    · rw [if_pos ‹_›]
      exact (h.reset hkeeps env.rand env.now).congr rfl rfl rfl rfl rfl rfl
    · rw [if_neg ‹_›]
      refine ⟨h.size, fun snd hmem => ?_, h.receiver, h.said, h.wire, h.played⟩
      have hfresh : snd.toSender = .new := by
        obtain rfl := Option.some.inj hmem
        cases s.sender <;> rfl
      refine ⟨Sendable.fresh hfresh, ?_⟩
      rw [hfresh]
      exact hnew (not_not.mp hstate)

theorem receiver_giveUp (type : BitVec 32 → Notice) (s : SimSession) :
    (s.giveUp env type).receiver = none := by
  rw [SimSession.giveUp]
  cases s.receiver <;> rfl

theorem Upholds.giveUp (h : Upholds ρ s) {type : BitVec 32 → Notice}
    (hkeeps : ρ.Keeps s.receiver none) : Upholds ρ (s.giveUp env type) := by
  have hreset := h.reset hkeeps env.rand env.now
  rw [SimSession.giveUp]
  cases s.receiver with
  | none => exact hreset.congr rfl rfl rfl rfl rfl rfl
  | some r => exact hreset.congr rfl rfl rfl rfl rfl rfl

/-- The timer of a command. -/
theorem Upholds.stateTimer (h : Upholds ρ s) {fn : SimSession → Option SimSession}
    {type : BitVec 32 → Notice} {tickDelay : Int}
    (hfn : ∀ s s', Upholds ρ s → fn s = some s' → Upholds ρ s')
    (hkeeps : ρ.Keeps s.receiver s'.receiver)
    (hcall : s.stateTimer env fn type tickDelay = some s') : Upholds ρ s' := by
  obtain ⟨s₁, hstat, hcall⟩ := Option.bind_eq_some_iff.mp hcall
  have hs₁ : Upholds ρ s₁ ∧ s₁.receiver = s.receiver := by
    rw [statistics] at hstat
    split at hstat
    · split at hstat
      · cases hstat
      · obtain rfl := Option.some.inj hstat
        exact ⟨h.congr rfl rfl rfl rfl rfl rfl, rfl⟩
    · obtain rfl := Option.some.inj hstat
      exact ⟨h, rfl⟩
  split at hcall
  · split at hcall
    · exact hfn s₁ s' hs₁.1 hcall
    · obtain rfl := Option.some.inj hcall
      rw [← hs₁.2, receiver_giveUp] at hkeeps
      exact hs₁.1.giveUp hkeeps
  · obtain rfl := Option.some.inj hcall
    exact hs₁.1

theorem Upholds.sendConnect (h : Upholds ρ s) (hcall : s.sendConnect env = some s') :
    Upholds ρ s' := by
  obtain ⟨s₁, hsend, hcall⟩ := Option.bind_eq_some_iff.mp hcall
  obtain rfl := Option.some.inj hcall
  have hfits : SimBody.Fits (.connect ⟨s.cid, 0, env.connect.token⟩) .connect := trivial
  exact (h.sendMsg hfits (Nat.zero_le _) trivial hsend).congr rfl rfl rfl rfl rfl rfl

theorem Upholds.sendDisconnect (h : Upholds ρ s) (hcall : s.sendDisconnect env = some s') :
    Upholds ρ s' := by
  obtain ⟨s₁, hsend, hcall⟩ := Option.bind_eq_some_iff.mp hcall
  obtain rfl := Option.some.inj hcall
  have hfits : SimBody.Fits (.disconnect ⟨s.cid⟩) .disconnect := trivial
  exact (h.sendMsg hfits trivial trivial hsend).congr rfl rfl rfl rfl rfl rfl

theorem Upholds.sendPing (h : Upholds ρ s) (hcall : s.sendPing env = some s') :
    Upholds ρ s' := by
  obtain ⟨s₁, hsend, hcall⟩ := Option.bind_eq_some_iff.mp hcall
  obtain rfl := Option.some.inj hcall
  have hfits : SimBody.Fits (.ping ⟨BitVec.ofInt 64 env.now⟩) .ping := trivial
  have hs₁ := h.sendMsg hfits trivial trivial hsend
  dsimp only
  split
  · exact hs₁.congr rfl rfl rfl rfl rfl rfl
  · exact hs₁.congr rfl rfl rfl rfl rfl rfl

theorem Upholds.connect (h : Upholds ρ s) {localUid : BitVec 32} {ret : Int}
    (hcall : s.connect env localUid = some (ret, s')) : Upholds ρ s' := by
  rw [SimSession.connect] at hcall
  split at hcall
  · obtain ⟨-, rfl⟩ := Prod.mk.inj (Option.some.inj hcall)
    exact h
  · obtain ⟨s₁, hsend, hcall⟩ := Option.bind_eq_some_iff.mp hcall
    obtain ⟨-, rfl⟩ := Prod.mk.inj (Option.some.inj hcall)
    have hstart : Upholds ρ
        { s with uid := localUid, state := .connecting, resend := 0 } :=
      h.congr rfl rfl rfl rfl rfl rfl
    exact hstart.sendConnect hsend

theorem Upholds.disconnect (h : Upholds ρ s) {ret : Int}
    (hcall : s.disconnect env = some (ret, s')) : Upholds ρ s' := by
  rw [SimSession.disconnect] at hcall
  split at hcall
  · obtain ⟨-, rfl⟩ := Prod.mk.inj (Option.some.inj hcall)
    exact h
  · obtain ⟨s₁, hsend, hcall⟩ := Option.bind_eq_some_iff.mp hcall
    obtain ⟨-, rfl⟩ := Prod.mk.inj (Option.some.inj hcall)
    have hstart : Upholds ρ
        { s with resend := 0, commadTs := env.now, state := .disconnected } :=
      h.congr rfl rfl rfl rfl rfl rfl
    exact hstart.sendDisconnect hsend

/-- The calls of congestion control. -/
theorem Upholds.calls (hclosed : ρ.Closed) (h : Upholds ρ s) {now : Int} {calls : List CcCall}
    (hcalls : calls.foldlM (ccCall now) s = some s') : Upholds ρ s' := by
  cases hsnd : s.sender with
  | none =>
      rw [calls_of_none hsnd hcalls]
      exact h
  | some snd =>
      obtain ⟨hsendable, hS⟩ := h.sender snd hsnd
      have htalks : ∃ snd', SameWindow snd.toSender snd'.toSender ∧
          Talks (Says ρ.seg (ρ.base s.receiver)) { s with sender := some snd' } s' :=
        talks_of_calls h.size hsnd hclosed.resent hsendable (fun _ => id) hcalls
      obtain ⟨snd', hsame, htalks⟩ := htalks
      have hsnd' : Sendable ρ.seg snd' ∧ ρ.sender snd'.toSender :=
        ⟨hsendable.sameWindow hclosed.resent hsame, hclosed.sameWindow _ _ hS hsame⟩
      exact (h.withSender hsnd').talks htalks

theorem Upholds.receiverTimer (hclosed : ρ.Closed) (h : Upholds ρ s)
    (htimer : s.receiverTimer env = some s') : Upholds ρ s' := by
  cases hreceiver : s.receiver with
  | none =>
      rw [SimSession.receiverTimer, hreceiver] at htimer
      obtain rfl := Option.some.inj htimer
      exact h
  | some r =>
      obtain ⟨r', ack, hcall, htalks⟩ := talks_of_receiverTimer h.size hreceiver htimer
      obtain ⟨hr', hB⟩ := hclosed.timer _ _ _ _ _ (h.receiver r hreceiver) hcall
      have hbase := hclosed.base r' hr'
      have hwith : Upholds ρ { s with receiver := some r' } := by
        refine h.withReceiver (fun _ hmem => Option.some.inj hmem ▸ hr') ?_
        rw [hreceiver]
        exact hB
      exact hwith.talks (htalks _ (says_ack hbase) (says_feedback hbase))

theorem Upholds.onSeg (hclosed : ρ.Closed) (h : Upholds ρ s) {seg : SimSegment}
    (hseg : Admits ρ env s (.seg seg)) (hcall : s.onSeg env seg = some s') :
    Upholds ρ s' := by
  rw [SimSession.onSeg] at hcall
  split at hcall
  · obtain rfl := Option.some.inj hcall
    exact h
  · rename_i r hreceiver
    obtain ⟨⟨r', ack⟩, hput, hack⟩ := Option.bind_eq_some_iff.mp hcall
    have hput' := ok_of_toOption hput
    obtain ⟨hr', hB⟩ := hseg r hreceiver (h.receiver r hreceiver) r' ack hput'
    have hwith : Upholds ρ { s with receiver := some r' } := by
      refine h.withReceiver (fun _ hmem => Option.some.inj hmem ▸ hr') ?_
      rw [hreceiver]
      exact hB
    refine hwith.talks ?_
    refine talks_of_sendAck h.size (fun a ha => ?_) (says_ack (hclosed.base r' hr')) hack
    obtain rfl := ha
    exact Receiver.acks_of_put hput'

theorem Upholds.onSegAck (h : Upholds ρ s) {ack : SegmentAck}
    (hbase : ∀ snd snd', ρ.sender snd → snd.updateBase ack.basePacketId = some snd' → ρ.sender snd')
    (hcall : s.onSegAck fl env ack = some s') : Upholds ρ s' := by
  rw [SimSession.onSegAck] at hcall
  split at hcall
  · obtain rfl := Option.some.inj hcall
    exact h
  · rename_i snd hsender
    obtain ⟨snd', hsnd', hcall⟩ := Option.bind_eq_some_iff.mp hcall
    obtain rfl := Option.some.inj hcall
    have hsnd := h.sender snd hsender
    refine h.withSender ?_
    rcases VideoSender.ack_cases hsnd' with hsame | hupdate
    · rw [Sendable, hsame]
      exact hsnd
    · exact ⟨hsnd.1.updateBase hupdate, hbase _ _ hsnd.2 hupdate⟩

theorem Upholds.onFeedback (hclosed : ρ.Closed) (h : Upholds ρ s)
    {basePacketId : BitVec 32}
    (hbase : ∀ snd snd', ρ.sender snd → snd.updateBase basePacketId = some snd' → ρ.sender snd')
    (hcall : s.onFeedback env basePacketId = some s') : Upholds ρ s' := by
  rw [SimSession.onFeedback] at hcall
  split at hcall
  · obtain rfl := Option.some.inj hcall
    exact h
  · rename_i snd hsender
    obtain ⟨snd', hsnd', hcalls⟩ := Option.bind_eq_some_iff.mp hcall
    obtain ⟨window, hupdate, rfl⟩ := Option.map_eq_some_iff.mp hsnd'
    have hsnd := h.sender snd hsender
    refine (h.withSender ?_).calls hclosed hcalls
    exact ⟨hsnd.1.updateBase hupdate, hbase _ _ hsnd.2 hupdate⟩

theorem receiver_deafen (s : SimSession) : s.deafen.receiver = none := by
  rw [deafen]
  split
  · assumption
  · rfl

/-- **The handler of a message** upholds what it may. -/
theorem Upholds.handle (hclosed : ρ.Closed) (h : Upholds ρ s) {id : MsgId} {uid : BitVec 32}
    {body : SimBody} (hfits : body.Fits id) (hadmits : Admits ρ env s body)
    (hlisten : id = .connect → (∀ r ∈ (s.listen env uid).receiver, ρ.receiver r) ∧
      ∀ base, ρ.base s.receiver base → ρ.base (s.listen env uid).receiver base)
    (hnew : s.state = .connecting → ρ.sender .new) (hkeeps : ρ.Keeps s.receiver s'.receiver)
    (hcall : s.handle fl env uid id body = some s') : Upholds ρ s' := by
  cases id <;> cases body <;> first | exact absurd hfits not_false | skip
  case connect.connect body =>
    obtain ⟨s₁, hsend, hcall⟩ := Option.bind_eq_some_iff.mp hcall
    obtain rfl := Option.some.inj hcall
    have hack : SimBody.Fits (.connectAck ⟨body.cid, 0⟩) .connectAck := trivial
    have hs := h.listen (hlisten rfl).1 (hlisten rfl).2
    exact (hs.sendMsg hack trivial trivial hsend).congr rfl rfl rfl rfl rfl rfl
  case connectAck.connectAck ack =>
    obtain rfl := Option.some.inj hcall
    exact h.answered hkeeps hnew
  case disconnect.disconnect body =>
    obtain ⟨s₁, hsend, hcall⟩ := Option.bind_eq_some_iff.mp hcall
    obtain rfl := Option.some.inj hcall
    have hack : SimBody.Fits (.connectAck ⟨body.cid, 0⟩) .disconnectAck := trivial
    have htalks : Talks (Says ρ.seg (ρ.base s.receiver)) s s₁ :=
      talks_of_sendMsg h.size hack trivial trivial hsend
    rw [← htalks.receiver_eq, receiver_deafen] at hkeeps
    rw [deafen]
    split
    · exact h.talks htalks
    · exact ((h.talks htalks).withoutReceiver hkeeps).congr rfl rfl rfl rfl rfl rfl
  case disconnectAck.connectAck body =>
    obtain rfl := Option.some.inj hcall
    rw [processSimDisconnectAck] at hkeeps ⊢
    split at hkeeps
    · rw [if_pos ‹_›]
      exact (h.reset hkeeps env.rand env.now).congr rfl rfl rfl rfl rfl rfl
    · rw [if_neg ‹_›]
      exact h
  case ping.ping body =>
    have hpong : SimBody.Fits (.ping body) .pong := trivial
    exact h.sendMsg hpong trivial trivial hcall
  case pong.ping body =>
    obtain rfl := Option.some.inj hcall
    exact h.congr rfl rfl rfl rfl rfl rfl
  case seg.seg seg => exact h.onSeg hclosed hadmits hcall
  case segAck.segAck body =>
    have hbase : ∀ snd snd', ρ.sender snd →
        snd.updateBase (SegmentAck.ofBody body).basePacketId = some snd' → ρ.sender snd' := hadmits
    exact h.onSegAck hbase hcall
  case feedback.feedback body => exact h.onFeedback hclosed hadmits hcall

/-- A heartbeat starts no receiver, and neither does either part of it. -/
theorem isSome_of_stateBeat (h : s.stateBeat env = some s') (hsome : s'.receiver.isSome) :
    s.receiver.isSome := by
  have hcontrol := congrArg Control.receiver (control_stateBeat h)
  have hback : ((s.control.stateBeat env.now).receiver).isSome → s.control.receiver.isSome := by
    rw [Control.stateBeat]
    split
    · exact id
    · exact Control.isSome_of_stateTimer rfl
    · exact id
    · exact Control.isSome_of_stateTimer rfl
  rw [← hcontrol, control, control, Option.isSome_map, Option.isSome_map] at hback
  exact hback hsome

theorem isSome_of_pingBeat (h : s.pingBeat env = some s') (hsome : s'.receiver.isSome) :
    s.receiver.isSome := by
  have hcontrol := congrArg Control.receiver (control_pingBeat h)
  have hback : ((s.control.pingBeat env.now).receiver).isSome → s.control.receiver.isSome := by
    rw [Control.pingBeat]
    split
    · refine Control.isSome_of_stateTimer ?_
      rw [Control.ping]
      split <;> rfl
    · exact id
  rw [← hcontrol, control, control, Option.isSome_map, Option.isSome_map] at hback
  exact hback hsome

theorem isSome_receiverTimer (h : s.receiverTimer env = some s') :
    s'.receiver.isSome = s.receiver.isSome := by
  have hcontrol := congrArg (fun c : Control => c.receiver.isSome) (control_receiverTimer h)
  simpa only [control, Option.isSome_map] using hcontrol

/-- **The heartbeat** upholds everything. -/
theorem Upholds.heartbeat (hclosed : ρ.Closed) (h : Upholds ρ s)
    (hkeeps : ρ.Keeps s.receiver s'.receiver) (hcall : s.heartbeat env = some s') :
    Upholds ρ s' := by
  obtain ⟨s₁, htimer, hcall⟩ := Option.bind_eq_some_iff.mp hcall
  obtain ⟨s₂, hstate, hping⟩ := Option.bind_eq_some_iff.mp hcall
  have hs₁ := h.receiverTimer hclosed htimer
  have hsame := isSome_receiverTimer htimer
  have hkeeps₁ : ρ.Keeps s₁.receiver s₂.receiver := hkeeps.imp_left fun hstays hsome =>
    isSome_of_pingBeat hping (hstays (hsame ▸ hsome))
  have hkeeps₂ : ρ.Keeps s₂.receiver s'.receiver := hkeeps.imp_left fun hstays hsome =>
    hstays (hsame ▸ isSome_of_stateBeat hstate hsome)
  have hs₂ : Upholds ρ s₂ := by
    rw [stateBeat] at hstate
    split at hstate
    · obtain rfl := Option.some.inj hstate
      exact hs₁
    · exact hs₁.stateTimer (fun _ _ => Upholds.sendConnect) hkeeps₁ hstate
    · split at hstate
      · obtain rfl := Option.some.inj hstate
        exact hs₁
      · exact hs₁.calls hclosed hstate
    · exact hs₁.stateTimer (fun _ _ => Upholds.sendDisconnect) hkeeps₁ hstate
  rw [pingBeat] at hping
  split at hping
  · exact hs₂.stateTimer (fun _ _ => Upholds.sendPing) hkeeps₂ hping
  · obtain rfl := Option.some.inj hping
    exact hs₂

/-! ## Datagrams -/

/-- The message of a datagram, as a session handles it. -/
def Handles (env : Env) (datagram : List UInt8) (id : MsgId) (uid : BitVec 32) (body : SimBody) :
    Prop :=
  ∃ header strm, simDecodeHeader (udpRecv env.block datagram) env.header =
      some ((0, header), strm) ∧ MsgId.ofMid header.mid = some id ∧ header.uid = uid ∧
    Decoded env header strm id body

/-- A datagram is handled, or passed over. -/
theorem receive_cases {datagram : List UInt8} (h : s.receive fl env datagram = some s') :
    s' = s ∨ s' = s.heard ∨ ∃ id uid body, body.Fits id ∧ Handles env datagram id uid body ∧
      s.heard.handle fl env uid id body = some s' := by
  rw [receive] at h
  split at h
  · exact .inl (Option.some.inj h).symm
  · obtain ⟨⟨⟨ret, header⟩, strm⟩, hdec, h⟩ := Option.bind_eq_some_iff.mp h
    dsimp only at h
    split at h
    · exact .inl (Option.some.inj h).symm
    · rename_i hret
      obtain rfl := not_not.mp hret
      split at h
      · exact .inl (Option.some.inj h).symm
      · have hcases := processed_of_processMsg h
        cases hcases with
        | skipped => exact .inr (.inl rfl)
        | handled hid hfits hdecoded hcall =>
            exact .inr (.inr ⟨_, _, _, hfits, ⟨header, strm, hdec, hid, rfl, hdecoded⟩, hcall⟩)

theorem Upholds.heard (h : Upholds ρ s) : Upholds ρ s.heard := by
  rw [SimSession.heard]
  split
  · exact h.congr rfl rfl rfl rfl rfl rfl
  · exact h.congr rfl rfl rfl rfl rfl rfl

theorem receiver_heard (s : SimSession) : s.heard.receiver = s.receiver := by
  rw [SimSession.heard]
  split <;> rfl

/-- **A datagram** keeps what its message keeps. The receiver that a connect starts and the
sender that the answer starts have to be upheld anew. -/
theorem Upholds.receive (hclosed : ρ.Closed) (h : Upholds ρ s) {datagram : List UInt8}
    (hadmits : ∀ id uid body, body.Fits id → Handles env datagram id uid body →
      Admits ρ env s.heard body)
    (hlisten : ∀ uid body, Handles env datagram .connect uid body →
      (∀ r ∈ (s.heard.listen env uid).receiver, ρ.receiver r) ∧
        ∀ base, ρ.base s.receiver base → ρ.base (s.heard.listen env uid).receiver base)
    (hnew : s.heard.state = .connecting → ρ.sender .new)
    (hkeeps : ρ.Keeps s.receiver s'.receiver)
    (hcall : s.receive fl env datagram = some s') : Upholds ρ s' := by
  rcases receive_cases hcall with rfl | rfl | ⟨id, uid, body, hfits, hhandles, hhandle⟩
  · exact h
  · exact h.heard
  · rw [← receiver_heard s] at hkeeps hlisten
    refine h.heard.handle hclosed hfits (hadmits id uid body hfits hhandles) ?_ hnew hkeeps hhandle
    rintro rfl
    exact hlisten uid body hhandles

/-! ## What has been sent -/

theorem length_wireBody_le {body : SimBody} (h : body.InRange) : (wireBody body).length ≤ 1024 := by
  have hid : ∀ id, (wireId id).length ≤ 4 := by
    intro id
    rw [wireId]
    split <;> simp
  have hposition : ∀ index total, (wirePosition index total).length ≤ 4 := by
    intro index total
    rw [wirePosition]
    split <;> simp
  have hdata : ∀ {n : Nat} (str : Vector UInt8 n) (size : Nat),
      (wireData str size).length ≤ 2 + size := by
    intro n str size
    rw [wireData, List.length_append, Bytes.length_encode, List.length_take]
    omega
  cases body with
  | connect body =>
      have hlen := hdata body.token body.tokenSize.toNat
      have hsize : body.tokenSize.toNat ≤ 128 := h
      simp only [wireBody, List.length_append, Bytes.length_encode]
      omega
  | connectAck body => simp [wireBody]
  | disconnect body => simp [wireBody]
  | ping body => simp [wireBody]
  | seg body =>
      have hlen := hdata body.data body.dataSize.toNat
      have hsize : body.dataSize.toNat ≤ 1000 := h.2
      have hpacket := hid body.packetId
      have hfid := hid body.fid
      have htotal := hposition body.index body.total
      simp only [wireBody, wireSegment, List.length_append, Bytes.length_encode]
      omega
  | segAck body =>
      have hsize : body.nackNum.toNat ≤ 80 := h
      have hnack : (wireNack (nackFrom body 0 body.nackNum.toNat)).length ≤ 160 := by
        have hcount : (nackFrom body 0 body.nackNum.toNat).length ≤ 80 := by
          rw [nackFrom, List.length_take]
          exact Nat.le_trans (Nat.min_le_left _ _) hsize
        simp only [wireNack, List.length_flatMap, Bytes.length_encode, List.map_const',
          List.sum_replicate_nat]
        omega
      simp only [wireBody, wireSegmentAck, List.length_append, Bytes.length_encode]
      omega
  | feedback body =>
      have hlen := hdata body.feedback body.feedbackSize.toNat
      have hsize : body.feedbackSize.toNat ≤ 1000 := h
      simp only [wireBody, List.length_append, Bytes.length_encode]
      omega

theorem length_wireMsg (header : SimProto.SimHeader) (body : SimBody) :
    (wireMsg header body).length = (wireBody body).length + 10 := by
  simp only [wireMsg, wireContent, wireHeader, List.length_append, Bytes.length_encode]
  omega

/-- A message fits into the stream of the loop, which holds all of it. -/
theorem received_udpRecv {header : SimProto.SimHeader} {body : SimBody} (block : Mem)
    (h : body.InRange) :
    Received (udpRecv block (wireMsg header body)) (wireMsg header body) := by
  have hlen := length_wireMsg header body
  have hbody := length_wireBody_le h
  have htake : (wireMsg header body).take 2048 = wireMsg header body :=
    List.take_of_length_le (by omega)
  rw [udpRecv, htake]
  exact ⟨⟨rfl, Nat.zero_add _, by dsimp only; omega, bytesAt_writeBytes block 0 _⟩, rfl⟩

/-- A datagram that a session handles as the message that was sent, whatever its memory
holds. -/
structure Taken (m : Outgoing) (datagram : List UInt8) : Prop where
  long : simHeaderSize ≤ datagram.length
  known : minMsgId ≤ m.id.mid ∧ m.id.mid ≤ maxMsgId
  read : ∀ block oldHeader, ∃ strm,
    simDecodeHeader (udpRecv block datagram) oldHeader =
      some ((0, ⟨protocolVer, m.id.mid, m.uid⟩), strm) ∧
    ∀ old : SimBody, old.Fits m.id → ∃ body' strm',
      simDecodeMsg strm ⟨protocolVer, m.id.mid, m.uid⟩ old = some ((0, body'), strm') ∧
      Recovered m.body body'

theorem taken_wire {m : Outgoing} (h : m.Sound) : Taken m m.wire where
  long := by
    rw [Outgoing.wire, length_wireMsg]
    exact Nat.le_trans (by decide) (Nat.le_add_left 10 _)
  known := by
    have hknown : ∀ id : MsgId, minMsgId ≤ id.mid ∧ id.mid ≤ maxMsgId := by
      intro id
      cases id <;> decide
    exact hknown m.id
  read := by
    intro block oldHeader
    obtain ⟨strm, hheader, hreading⟩ :=
      simDecodeHeader_eq (received_udpRecv block h.inRange) oldHeader
    refine ⟨strm, hheader, fun old hold => ?_⟩
    obtain ⟨body', hdec, hrecovered⟩ :=
      @decodes_body m.id ⟨protocolVer, m.id.mid, m.uid⟩ m.body old rfl h.fits hold h.inRange
    obtain ⟨strm', hbody, -⟩ := hdec strm _ hreading
    exact ⟨body', strm', hbody, hrecovered⟩

/-- What is handled of a datagram is what was said. -/
theorem Spoken.handled {P : SimBody → Prop} {datagram : List UInt8} (h : Spoken P datagram)
    {id : MsgId} {uid : BitVec 32} {body : SimBody} (hfits : body.Fits id)
    (hhandles : Handles env datagram id uid body) :
    ∃ said, P said ∧ (id = .disconnectAck ∨ Recovered said body) := by
  obtain ⟨⟨id₀, uid₀, said⟩, rfl, ⟨hfits₀, hrange⟩, hP⟩ := h
  obtain ⟨header, strm, hheader, hid, -, hdecoded⟩ := hhandles
  obtain ⟨strm₀, hheader₀, hreading⟩ :=
    simDecodeHeader_eq (received_udpRecv env.block hrange) env.header
  obtain ⟨hleft, rfl⟩ := Prod.mk.inj (Option.some.inj (hheader.symm.trans hheader₀))
  obtain ⟨-, rfl⟩ := Prod.mk.inj hleft
  rw [ofMid_mid] at hid
  obtain rfl := Option.some.inj hid
  refine ⟨said, hP, hdecoded.imp_right ?_⟩
  rintro ⟨strm', hbody⟩
  have hold : (env.old id₀).Fits id₀ := by cases id₀ <;> trivial
  obtain ⟨body', hdec, hrecovered⟩ :=
    @decodes_body id₀ ⟨protocolVer, id₀.mid, uid₀⟩ said (env.old id₀) rfl hfits₀ hold hrange
  obtain ⟨strm₁, hbody₁, -⟩ := hdec strm _ hreading
  obtain ⟨hsame, -⟩ := Prod.mk.inj (Option.some.inj (hbody.symm.trans hbody₁))
  obtain ⟨-, rfl⟩ := Prod.mk.inj hsame
  exact hrecovered

/-! ## The application -/

/-- A frame that is sent goes into the cache. -/
theorem sendVideo_cases {payloadType ftype : BitVec 8} {data : List UInt8} {ret : Int}
    (h : s.sendVideo env payloadType ftype data = some (ret, s')) :
    s' = s ∧ ret ≠ 0 ∨ ∃ snd window, s.sender = some snd ∧
      snd.toSender.put payloadType ftype data env.now = some window ∧
      s' = { s with sender := some { snd with toSender := window } } ∧ ret = 0 := by
  have hfails : (-1 : Int) ≠ 0 := by decide
  rw [sendVideo] at h
  split at h
  · obtain ⟨rfl, rfl⟩ := Prod.mk.inj (Option.some.inj h)
    exact .inl ⟨rfl, hfails⟩
  · split at h
    · obtain ⟨rfl, rfl⟩ := Prod.mk.inj (Option.some.inj h)
      exact .inl ⟨rfl, hfails⟩
    · split at h
      · obtain ⟨rfl, rfl⟩ := Prod.mk.inj (Option.some.inj h)
        exact .inl ⟨rfl, hfails⟩
      · rename_i snd hsender
        obtain ⟨snd', hput, h⟩ := Option.bind_eq_some_iff.mp h
        obtain ⟨rfl, rfl⟩ := Prod.mk.inj (Option.some.inj h)
        obtain ⟨window, hwindow, rfl⟩ := Option.map_eq_some_iff.mp hput
        exact .inr ⟨snd, window, hsender, hwindow, rfl, rfl⟩

/-- A frame that is received comes from the receiver. -/
theorem recvVideo_cases {bufferSize : Nat} {ret : Int}
    (h : s.recvVideo fl env bufferSize = some (ret, s')) :
    s' = s ∧ s.receiver = none ∨ ∃ r r' out, s.receiver = some r ∧
      r.get fl.scaled (BitVec.ofInt 64 env.now) bufferSize = .ok (r', out) ∧
      s' = { s with receiver := some r', played := s.played ++ out.toList } := by
  rw [recvVideo] at h
  split at h
  · rename_i hreceiver
    obtain ⟨-, rfl⟩ := Prod.mk.inj (Option.some.inj h)
    exact .inl ⟨rfl, hreceiver⟩
  · rename_i r hreceiver
    obtain ⟨⟨r', out⟩, hget, h⟩ := Option.bind_eq_some_iff.mp h
    obtain ⟨-, rfl⟩ := Prod.mk.inj (Option.some.inj h)
    exact .inr ⟨r, r', out, hreceiver, ok_of_toOption hget, rfl⟩

/-! ## Whatever comes in -/

/-- The rule that asks for nothing: the cache and the stream of a session are in order. -/
def Rule.none : Rule :=
  ⟨fun _ => True, fun _ _ => True, fun _ => True, fun _ => True, fun _ => True⟩

theorem Rule.closed_none : Rule.none.Closed where
  resent _ _ _ _ := trivial
  sameWindow _ _ _ _ := trivial
  timer _ _ _ _ _ _ _ := ⟨trivial, fun _ _ => trivial⟩
  base _ _ := trivial

theorem Rule.keeps_none (r r' : Option Receiver) : Rule.none.Keeps r r' :=
  .inr fun _ _ _ => trivial

theorem admits_none (body : SimBody) : Admits .none env s body := by
  cases body with
  | seg seg => exact fun _ _ _ _ _ _ => ⟨trivial, fun _ _ => trivial⟩
  | segAck ack => exact fun _ _ _ _ => trivial
  | feedback feedback => exact fun _ _ _ _ => trivial
  | connect | connectAck | disconnect | ping => trivial

theorem upholds_create (rand : BitVec 32) (now : Int) (block : Mem) :
    Upholds .none (create rand now block) where
  size := Nat.succ_pos _
  sender _ hmem := absurd hmem (Option.not_mem_none _)
  receiver _ hmem := absurd hmem (Option.not_mem_none _)
  said _ hmem := absurd hmem List.not_mem_nil
  wire := rfl
  played := trivial

theorem Upholds.sendVideo (h : Upholds .none s) {payloadType ftype : BitVec 8} {data : List UInt8}
    {ret : Int} (hcall : s.sendVideo env payloadType ftype data = some (ret, s')) :
    Upholds .none s' := by
  rcases sendVideo_cases hcall with ⟨rfl, -⟩ | ⟨snd, window, hsender, hput, rfl, -⟩
  · exact h
  · exact h.withSender ⟨⟨(h.sender snd hsender).1.1.put hput, fun _ _ => trivial⟩, trivial⟩

theorem Upholds.recvVideo (h : Upholds .none s) {bufferSize : Nat} {ret : Int}
    (hcall : s.recvVideo fl env bufferSize = some (ret, s')) : Upholds .none s' := by
  rcases recvVideo_cases hcall with ⟨rfl, -⟩ | ⟨r, r', out, -, -, rfl⟩
  · exact h
  · exact ⟨h.size, h.sender, fun _ _ => trivial, h.said, h.wire, trivial⟩

/-- **A call leaves a session in order**, whatever comes in. -/
theorem Upholds.step {e : Env × Input} (h : Upholds .none s) (hstep : Step fl s e s') :
    Upholds .none s' := by
  obtain ⟨env, e⟩ := e
  cases e with
  | connect localUid =>
      obtain ⟨result, hcall, rfl⟩ := Option.map_eq_some_iff.mp hstep
      exact h.connect hcall
  | disconnect =>
      obtain ⟨result, hcall, rfl⟩ := Option.map_eq_some_iff.mp hstep
      exact h.disconnect hcall
  | sendVideo payloadType ftype data =>
      obtain ⟨result, hcall, rfl⟩ := Option.map_eq_some_iff.mp hstep
      exact h.sendVideo hcall
  | recvVideo bufferSize =>
      obtain ⟨result, hcall, rfl⟩ := Option.map_eq_some_iff.mp hstep
      exact h.recvVideo hcall
  | receive datagram =>
      exact h.receive Rule.closed_none (fun _ _ body _ _ => admits_none body)
        (fun _ _ _ => ⟨fun _ _ => trivial, fun _ _ => trivial⟩) (fun _ => trivial)
        (Rule.keeps_none _ _) hstep
  | heartbeat => exact h.heartbeat Rule.closed_none (Rule.keeps_none _ _) hstep

/-- **Everything that is sent can be taken**: after every run, whatever datagrams came in, the
datagrams that have gone out are those of the messages that were sent, one for each and in
their order, and the decoder of a peer accepts each of them and reads its message back. -/
theorem taken_of_run {rand : BitVec 32} {now : Int} {block : Mem} {es : List (Env × Input)}
    (h : Run (Step fl) (create rand now block) es s) : List.Forall₂ Taken s.said s.sent := by
  have hupholds : Upholds .none s :=
    h.stateInvariant (upholds_create rand now block) fun _ _ _ => Upholds.step
  rw [hupholds.wire, List.forall₂_map_right_iff, List.forall₂_same]
  exact fun m hm => taken_wire (hupholds.said m hm).1

/-- A session that has been answered sends the first segment of its first frame. -/
def firstPacket : List (Env × Input) :=
  [(quietEnv 10, .connect 5), (quietEnv 20, .receive (datagram .connectAck (.connectAck ⟨1, 0⟩))),
    (quietEnv 30, .sendVideo 3 1 [1, 2, 3]),
    ({ quietEnv 40 with calls := [.sendPacket 1] }, .heartbeat)]

theorem taken_firstPacket :
    ∃ s, Run (Step plainFloats) (create 1 1 fun _ => 0) firstPacket s ∧
      s.said.map (·.id) = [.connect, .seg] ∧ List.Forall₂ Taken s.said s.sent := by
  have hlast : (firstPacket.foldlM (fun (s : SimSession) e => s.call plainFloats e.1 e.2)
      (create 1 1 fun _ => 0)).map (·.said.map (·.id)) = some [.connect, .seg] := by
    decide +kernel
  obtain ⟨s, hs, hsent⟩ := Option.map_eq_some_iff.mp hlast
  have hrun : Run (Step plainFloats) (create 1 1 fun _ => 0) firstPacket s := .of_foldlM hs
  exact ⟨s, hrun, hsent, taken_of_run hrun⟩

end SimSession

end SimTransport

end Razor
