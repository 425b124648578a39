import RmcatNs3.Razor.SessionRules
import RmcatNs3.Razor.VideoFeed

/-!
# A call between two sessions

Two sessions, each of which gets datagrams that the other one has sent: in any order, more than
once, or never. As long as the call lasts, what either of them plays are frames that were given
to the other one, in their order, and a segment that the receiver has not got past is still in
the cache of its sender. The call asks for what the transport itself does not see to: that no
connect comes late, that the counters do not wrap, and that the window of the video cache
follows.
-/

namespace Razor

namespace SimTransport

open Runs SimProto StructMemory

/-! ## The window of the sender -/

namespace Sender

variable {s s' : Sender} {frames : List (List UInt8)}

theorem Cuts.sameWindow (hs : s.Cuts frames) (h : SameWindow s s') : s'.Cuts frames where
  frameIdSeed := by
    rw [h.frameIdSeed]
    exact hs.frameIdSeed
  packetIdSeed := by
    rw [h.packetIdSeed]
    exact hs.packetIdSeed
  cached b' hb' := by
    obtain ⟨b, hb, -, hre⟩ := h.resent b' hb'
    exact (hs.cached b hb).resent hre

theorem Windowed.sameWindow (hs : s.Windowed) (h : SameWindow s s') : s'.Windowed where
  base_le := by
    rw [h.basePacketId, h.packetIdSeed]
    exact hs.base_le
  keyed b' hb' := by
    obtain ⟨b, hb, hkey, _, _, hseg⟩ := h.resent b' hb'
    rw [hkey, hseg]
    exact hs.keyed b hb
  cached_iff id := by
    rw [h.basePacketId, h.packetIdSeed, ← hs.cached_iff id, SortedMap.isSome_find?_iff,
      SortedMap.isSome_find?_iff]
    have hkeys : (∃ b ∈ s'.cache, b.1 = id.toNat) ↔ id.toNat ∈ s'.cache.toList.map (·.1) :=
      List.mem_map.symm
    rw [hkeys, h.keys]
    exact List.mem_map

theorem Windowed.put (hs : s.Windowed) {payloadType ftype : BitVec 8} {data : List UInt8}
    {nowTs : Int} (hfits : s.packetIdSeed.toNat + (framePieces data).length < 2 ^ 32)
    (h : s.put payloadType ftype data nowTs = some s') : s'.Windowed := by
  rw [Sender.put] at h
  split at h
  · obtain rfl := Option.some.inj h
    have hstart : Windowed { s with
        firstTs := if s.firstTs = -1 then nowTs else s.firstTs
        frameIdSeed := s.frameIdSeed + 1 } := ⟨hs.base_le, hs.keyed, hs.cached_iff⟩
    rw [length_framePieces] at hfits
    exact hstart.putSegments hfits
  · cases h

theorem basePacketId_put {payloadType ftype : BitVec 8} {data : List UInt8} {nowTs : Int}
    (h : s.put payloadType ftype data nowTs = some s') : s'.basePacketId = s.basePacketId := by
  have hsegments : ∀ (timestamp : BitVec 32) (total : BitVec 16) (splits : List (BitVec 16))
      (i : Nat) (s : Sender) (pos : List UInt8),
      (putSegments timestamp payloadType ftype total i s pos splits).basePacketId =
        s.basePacketId := by
    intro timestamp total splits
    induction splits with
    | nil => exact fun _ _ _ => rfl
    | cons split rest ih =>
        intro i s pos
        rw [putSegments, ih]
  rw [Sender.put] at h
  split at h
  · obtain rfl := Option.some.inj h
    rw [hsegments]
  · cases h

/-- The sender of a call: its cache is a window over the packets of its frames, and begins no
later than what the peer has got past. -/
structure Serves (given : List (List UInt8)) (received : Nat) (s : Sender) : Prop where
  cuts : s.Cuts given
  windowed : s.Windowed
  base : s.basePacketId.toNat ≤ received

theorem serves_new (received : Nat) : new.Serves [] received :=
  ⟨cuts_new, .new, Nat.zero_le _⟩

theorem Serves.mono {received received' : Nat} (hs : s.Serves frames received)
    (hle : received ≤ received') : s.Serves frames received' :=
  ⟨hs.cuts, hs.windowed, Nat.le_trans hs.base hle⟩

theorem Serves.sameWindow {received : Nat} (hs : s.Serves frames received)
    (h : SameWindow s s') : s'.Serves frames received := by
  refine ⟨hs.cuts.sameWindow h, hs.windowed.sameWindow h, ?_⟩
  rw [h.basePacketId]
  exact hs.base

/-- The base moves up to one that the peer has got past. -/
theorem Serves.updateBase {received : Nat} (hs : s.Serves frames received)
    {basePacketId : BitVec 32} (hbase : basePacketId.toNat ≤ received)
    (hreceived : received ≤ packetCount frames)
    (h : s.updateBase basePacketId = some s') : s'.Serves frames received := by
  have hseed := hs.cuts.packetIdSeed
  refine ⟨hs.cuts.updateBase h, hs.windowed.updateBase h ?_, ?_⟩
  · rw [BitVec.le_def, hseed]
    exact Nat.le_trans hbase hreceived
  · rw [updateBase_eq h]
    dsimp only
    split
    · exact hbase
    · exact hs.base

theorem Serves.put {received : Nat} (hs : s.Serves frames received)
    {payloadType ftype : BitVec 8} {data : List UInt8} {nowTs : Int}
    (hframes : frames.length + 1 < 2 ^ 31) (hpackets : packetCount (frames ++ [data]) < 2 ^ 32)
    (h : s.put payloadType ftype data nowTs = some s') :
    data.length / simVideoSize < splitNumber ∧ s'.Serves (frames ++ [data]) received := by
  obtain ⟨hsize, hcuts⟩ := hs.cuts.put (by omega) hpackets h
  refine ⟨hsize, hcuts, ?_, ?_⟩
  · refine hs.windowed.put ?_ h
    have hseed := hs.cuts.packetIdSeed
    have hcount := packetCount_append frames [data]
    rw [packetCount_cons] at hcount
    omega
  · rw [basePacketId_put h]
    exact hs.base

end Sender

/-! ## Control -/

namespace Control

variable {now : Int} {c : Control}

/-- Only a session that is connected, or has been, has a sender. -/
def Lawful (c : Control) : Prop := c.sender = true → c.state = .connected ∨ c.state = .disconnected

theorem lawful_of_not_sender (h : c.sender = false) : c.Lawful := by
  intro hsender
  rw [h] at hsender
  cases hsender

theorem Lawful.congr {c' : Control} (h : c.Lawful) (hsender : c'.sender = c.sender)
    (hstate : c'.state = c.state) : c'.Lawful := by
  rw [Lawful, hsender, hstate]
  exact h

theorem Lawful.stateTimer {fn : Control → Control} {type : BitVec 32 → Notice} {tickDelay : Int}
    (h : c.Lawful) (hfn : (fn c).Lawful) : (c.stateTimer now fn type tickDelay).Lawful := by
  rcases stateTimer_cases now fn type tickDelay c with
    ⟨-, heq⟩ | ⟨-, ⟨-, heq⟩ | ⟨-, heq⟩⟩
  · rw [heq]
    exact h
  · rw [heq]
    exact hfn
  · rw [heq, giveUp_eq]
    exact lawful_of_not_sender rfl

theorem Lawful.ping (h : c.Lawful) : (c.ping now).Lawful := by
  rw [Control.ping]
  split <;> exact h.congr rfl rfl

theorem Lawful.heartbeat (h : c.Lawful) : (c.heartbeat now).Lawful := by
  have hstate : (c.stateBeat now).Lawful := by
    rw [stateBeat]
    split
    · exact h
    · exact h.stateTimer (h.congr rfl rfl)
    · exact h
    · exact h.stateTimer (h.congr rfl rfl)
  rw [Control.heartbeat, pingBeat]
  split
  · exact hstate.stateTimer hstate.ping
  · exact hstate

theorem Lawful.process (h : c.Lawful) (message : Message) : (c.process now message).Lawful := by
  cases message with
  | ignored => exact h
  | other => exact h
  | connect uid =>
      rw [Control.process, listen]
      cases c.receiver <;> exact h.congr rfl rfl
  | connectAck result =>
      rw [Control.process, answered]
      split
      · exact h
      · split
        · exact lawful_of_not_sender rfl
        · exact fun _ => .inl rfl
  | disconnect =>
      rw [Control.process, deafen]
      cases c.receiver <;> exact h.congr rfl rfl
  | disconnectAck =>
      rw [Control.process, released]
      split
      · exact lawful_of_not_sender rfl
      · exact h

/-- **A step** keeps the sender to the states that it belongs to. -/
theorem Lawful.step (h : c.Lawful) (call : Call) : (c.step now call).Lawful := by
  cases call with
  | connect =>
      rw [Control.step, connect]
      split
      · exact h
      · rename_i hstate
        have hidle := not_not.mp hstate
        have hnone : c.sender = false := by
          by_contra hsender
          rcases h (Bool.eq_true_of_not_eq_false hsender) with hother | hother
          · rw [hidle] at hother
            cases hother
          · rw [hidle] at hother
            cases hother
        exact lawful_of_not_sender hnone
  | disconnect =>
      rw [Control.step, disconnect]
      split
      · exact h
      · exact fun _ => .inr rfl
  | video => exact h
  | receive message =>
      rw [Control.step, receive]
      split
      · exact h
      · obtain ⟨hstate, hsender, -⟩ := heard_eq c
        exact (h.congr hsender hstate).process message
  | heartbeat => exact h.heartbeat

end Control

namespace SimSession

variable {fl : Floats} {env : Env} {s s' : SimSession}

/-! ## One end -/

/-- The last packet that a session has got past. -/
def received (s : SimSession) : Nat := (s.receiver.map (·.baseSeq.toNat)).getD 0

/-- What an end of a call upholds when it has got `given` and its peer `theirs`, and the peer has
got past `past` and the end itself past `least`. -/
def callRule (given theirs : List (List UInt8)) (past least : Nat)
    (played : List VideoCache.Delivery) : Rule where
  seg := Cut given
  base := fun r base => ∃ r' ∈ r, base.toNat ≤ r'.baseSeq.toNat
  sender := Sender.Serves given past
  receiver := fun r => r.Fed theirs played ∧ least ≤ r.baseSeq.toNat
  played := (· = played)

section

variable {given theirs : List (List UInt8)} {past least : Nat}
  {played : List VideoCache.Delivery}

theorem base_mono {r r' : Receiver} (hle : r.baseSeq.toNat ≤ r'.baseSeq.toNat)
    (base : BitVec 32) (h : (callRule given theirs past least played).base (some r) base) :
    (callRule given theirs past least played).base (some r') base := by
  obtain ⟨r₁, hr₁, hbase⟩ := h
  obtain rfl := Option.some.inj hr₁
  exact ⟨r', rfl, Nat.le_trans hbase hle⟩

theorem closed_callRule : (callRule given theirs past least played).Closed where
  resent _ _ := Cut.resent
  sameWindow _ _ := Sender.Serves.sameWindow
  timer _ r r' now ack hr htimer := by
    obtain ⟨hfed, hle⟩ := hr.1.timer htimer
    exact ⟨⟨hfed, Nat.le_trans hr.2 hle⟩, base_mono hle⟩
  base r _ := ⟨r, rfl, Nat.le_refl _⟩

/-- What a session upholds for a shorter past, it upholds for a longer one. -/
theorem Upholds.call_mono {theirs' : List (List UInt8)} {past' least' : Nat}
    (h : s.Upholds (callRule given theirs past least played)) (htheirs : theirs <+: theirs')
    (hpast : past ≤ past') (hleast : ∀ r ∈ s.receiver, least' ≤ r.baseSeq.toNat) :
    s.Upholds (callRule given theirs' past' least' played) where
  size := h.size
  sender snd hsnd := ⟨(h.sender snd hsnd).1, (h.sender snd hsnd).2.mono hpast⟩
  receiver r hr := ⟨(h.receiver r hr).1.mono htheirs, hleast r hr⟩
  said := h.said
  wire := h.wire
  played := h.played

end

end SimSession

/-- One end of a call, and the frames that it has taken from the application. -/
structure Party where
  session : SimSession
  given : List (List UInt8)

namespace Party

open SimSession

variable {fl : Floats} {p p' q : Party} {e : Env × SimSession.Input}

/-- The frames that a call of the application gives. -/
def takes (p : Party) (e : Env × SimSession.Input) : List (List UInt8) :=
  match e.2 with
  | .sendVideo payloadType ftype data =>
      if (p.session.sendVideo e.1 payloadType ftype data).map (·.1) = some 0 then [data] else []
  | .connect _ | .disconnect | .recvVideo _ | .receive _ | .heartbeat => []

/-- A call of one end that returns. -/
structure Step (fl : Floats) (p : Party) (e : Env × SimSession.Input) (p' : Party) : Prop where
  session : SimSession.Step fl p.session e p'.session
  given : p'.given = p.given ++ p.takes e

/-- What a call asks for of a step of its end `p` with the peer `q`: datagrams come from the peer,
connects come before the first segment, the window of the cache follows, a buffer has room for
every frame, the counters do not wrap, and neither the sender nor the receiver is lost. -/
structure Smooth (p q : Party) (e : Env × SimSession.Input) (p' : Party) : Prop where
  network : ∀ datagram, e.2 = .receive datagram → datagram ∈ q.session.sent
  connects : ∀ datagram uid body, e.2 = .receive datagram →
    Handles e.1 datagram .connect uid body → ∀ r ∈ p.session.receiver, r.maxSeq = 0
  follows : ∀ datagram uid seg, e.2 = .receive datagram →
    Handles e.1 datagram .seg uid (.seg seg) →
    ∀ r ∈ p.session.receiver, r.cache.Fits seg.fid
  room : ∀ bufferSize, e.2 = .recvVideo bufferSize → ∀ data ∈ q.given, data.length ≤ bufferSize
  counters : p'.given.length < 2 ^ 31 ∧ packetCount p'.given < 2 ^ 32
  sender : p.session.sender.isSome → p'.session.sender.isSome
  receiver : p.session.receiver.isSome → p'.session.receiver.isSome

/-- What holds of an end `p` of a call with the peer `q`. -/
structure Sound (p q : Party) : Prop where
  upholds : p.session.Upholds (callRule p.given q.given q.session.received 0 p.session.played)
  unsent : p.session.sender = none → p.given = []
  unplayed : p.session.receiver = none → p.session.played = []
  lawful : p.session.control.Lawful
  sizes : ∀ data ∈ p.given, data.length / simVideoSize < splitNumber
  counters : p.given.length < 2 ^ 31

theorem received_eq {s : SimSession} {r : Receiver} (h : s.receiver = some r) :
    s.received = r.baseSeq.toNat := by
  rw [received, h]
  rfl

theorem received_none {s : SimSession} (h : s.receiver = none) : s.received = 0 := by
  rw [received, h]
  rfl

/-- An end has not got past more packets than its peer has. -/
theorem Sound.received_le (h : p.Sound q) : p.session.received ≤ packetCount q.given := by
  cases hreceiver : p.session.receiver with
  | none =>
      rw [received_none hreceiver]
      exact Nat.zero_le _
  | some r =>
      rw [received_eq hreceiver]
      exact (h.upholds.receiver r hreceiver).1.baseSeq

/-- An end that has got past some packets stays past them. -/
theorem Sound.upholds_received (h : p.Sound q) : p.session.Upholds
    (callRule p.given q.given q.session.received p.session.received p.session.played) := by
  refine h.upholds.call_mono (List.prefix_refl _) (Nat.le_refl _) fun r hr => ?_
  rw [received_eq hr]

/-- What is handled of a datagram of the peer. -/
theorem Sound.says (h : q.Sound p) {env : Env} {datagram : List UInt8}
    (hmem : datagram ∈ q.session.sent) {id : MsgId} {uid : BitVec 32} {body : SimBody}
    (hfits : body.Fits id) (hhandles : Handles env datagram id uid body) :
    Says (Cut q.given) (fun base => base.toNat ≤ q.session.received) body := by
  obtain ⟨said, hsaid, hrecovered⟩ := Spoken.handled (h.upholds.sent datagram hmem) hfits hhandles
  have hbase : ∀ base : BitVec 32, (∃ r ∈ q.session.receiver, base.toNat ≤ r.baseSeq.toNat) →
      base.toNat ≤ q.session.received := by
    rintro base ⟨r, hr, hle⟩
    rw [received_eq hr]
    exact hle
  rcases hrecovered with rfl | hrecovered
  · cases body <;> first | exact absurd hfits not_false | trivial
  · cases said <;> cases body <;> first | exact absurd hrecovered not_false | trivial | skip
    case seg.seg seg seg' => exact Cut.recovered hsaid hrecovered
    case segAck.segAck ack ack' =>
      rw [hrecovered.2]
      exact hbase _ hsaid
    case feedback.feedback feedback feedback' =>
      show feedback'.basePacketId.toNat ≤ q.session.received
      rw [hrecovered.1]
      exact hbase _ hsaid

/-- A message of the peer keeps what an end of a call upholds. -/
theorem Sound.admits (hq : q.Sound p) (hsmooth : p.Smooth q e p')
    {datagram : List UInt8} (hreceive : e.2 = .receive datagram) {id : MsgId} {uid : BitVec 32}
    {body : SimBody} (hfits : body.Fits id) (hhandles : Handles e.1 datagram id uid body) :
    Admits (callRule p.given q.given q.session.received p.session.received p.session.played) e.1
      p.session.heard body := by
  have hsaid := hq.says (hsmooth.network datagram hreceive) hfits hhandles
  have hreceived := hq.received_le
  cases body with
  | seg seg =>
      cases id <;> first | exact absurd hfits not_false | skip
      intro r hr hfed r' ack hput
      rw [receiver_heard] at hr
      obtain ⟨hfed', hle⟩ := hfed.1.put hsaid hq.counters
        (hsmooth.follows datagram uid seg hreceive hhandles r hr) hput
      exact ⟨⟨hfed', Nat.le_trans hfed.2 hle⟩, base_mono hle⟩
  | segAck ack => exact fun snd snd' hsnd hbase => hsnd.updateBase hsaid hreceived hbase
  | feedback feedback => exact fun snd snd' hsnd hbase => hsnd.updateBase hsaid hreceived hbase
  | connect | connectAck | disconnect | ping => trivial

/-- A connect starts a receiver, or starts one anew that has got nothing yet. -/
theorem Sound.listens (hp : p.Sound q) (hsmooth : p.Smooth q e p') {datagram : List UInt8}
    (hreceive : e.2 = .receive datagram) {uid : BitVec 32} {body : SimBody}
    (hhandles : Handles e.1 datagram .connect uid body) :
    (∀ r ∈ (p.session.heard.listen e.1 uid).receiver, r.Fed q.given p.session.played ∧
        p.session.received ≤ r.baseSeq.toNat) ∧
      ∀ base : BitVec 32, (∃ r ∈ p.session.receiver, base.toNat ≤ r.baseSeq.toNat) →
        ∃ r ∈ (p.session.heard.listen e.1 uid).receiver, base.toNat ≤ r.baseSeq.toNat := by
  have hsame := receiver_heard p.session
  rw [SimSession.listen, hsame]
  cases hreceiver : p.session.receiver with
  | none =>
      refine ⟨fun r hr => ?_, fun base hold => ?_⟩
      case refine_2 =>
        obtain ⟨r, hr, -⟩ := hold
        exact absurd hr (Option.not_mem_none _)
      obtain rfl := Option.some.inj hr
      rw [hp.unplayed hreceiver, received_none hreceiver]
      exact ⟨Receiver.fed_new _ _ _, Nat.zero_le _⟩
  | some r₀ =>
      have hunused := hsmooth.connects datagram uid body hreceive hhandles r₀ hreceiver
      have hfed := (hp.upholds.receiver r₀ hreceiver).1
      have hzero : r₀.baseSeq.toNat = 0 := by
        rw [(hfed.unused hunused).1]
        rfl
      refine ⟨fun r hr => ?_, fun base hold => ?_⟩
      · obtain rfl := Option.some.inj hr
        rw [received_eq hreceiver, hzero]
        exact ⟨hfed.reset hunused _ _, Nat.zero_le _⟩
      · obtain ⟨r, hr, hle⟩ := hold
        refine ⟨_, rfl, ?_⟩
        obtain rfl := Option.some.inj hr
        rw [hzero] at hle
        exact Nat.le_trans hle (Nat.zero_le _)

/-- A frame is taken exactly if it goes into the cache. -/
theorem takes_sendVideo {env : Env} {payloadType ftype : BitVec 8} {data : List UInt8} {ret : Int}
    {s' : SimSession}
    (h : p.session.sendVideo env payloadType ftype data = some (ret, s')) :
    p.takes (env, .sendVideo payloadType ftype data) = if ret = 0 then [data] else [] := by
  rw [takes]
  dsimp only
  rw [h, Option.map_some]
  by_cases hret : ret = 0
  · rw [if_pos hret, if_pos (congrArg some hret)]
  · rw [if_neg hret, if_neg fun h => hret (Option.some.inj h)]

theorem Sound.not_sender (hp : p.Sound q) (h : p.session.state = .connecting) :
    p.session.sender = none := by
  cases hsender : p.session.sender with
  | none => rfl
  | some snd =>
      have hthere : p.session.sender.isSome = true := by
        rw [hsender]
        rfl
      have hstate : p.session.control.state = .connecting := h
      rcases hp.lawful hthere with hother | hother
      · rw [hstate] at hother
        cases hother
      · rw [hstate] at hother
        cases hother

/-- **One step** of an end of a call upholds what a call upholds. -/
theorem Sound.upholds_step (hp : p.Sound q) (hq : q.Sound p) (hstep : p.Step fl e p')
    (hsmooth : p.Smooth q e p') :
    p'.session.Upholds (callRule p'.given q.given q.session.received p.session.received
      p'.session.played) ∧
    (p.session.receiver = none → p'.session.played = p.session.played) := by
  obtain ⟨env, e⟩ := e
  obtain ⟨hsession, hgiven⟩ := hstep
  have hup := hp.upholds_received
  have hkeeps : (callRule p.given q.given q.session.received p.session.received
      p.session.played).Keeps p.session.receiver p'.session.receiver := .inl hsmooth.receiver
  cases e with
  | connect localUid =>
      obtain ⟨⟨ret, s'⟩, hcall, hs'⟩ := Option.map_eq_some_iff.mp hsession
      obtain rfl : s' = p'.session := hs'
      have hup' := hup.connect hcall
      rw [hgiven, takes, List.append_nil, hup'.played]
      exact ⟨hup', fun _ => rfl⟩
  | disconnect =>
      obtain ⟨⟨ret, s'⟩, hcall, hs'⟩ := Option.map_eq_some_iff.mp hsession
      obtain rfl : s' = p'.session := hs'
      have hup' := hup.disconnect hcall
      rw [hgiven, takes, List.append_nil, hup'.played]
      exact ⟨hup', fun _ => rfl⟩
  | sendVideo payloadType ftype data =>
      obtain ⟨⟨ret, s'⟩, hcall, hs'⟩ := Option.map_eq_some_iff.mp hsession
      obtain rfl : s' = p'.session := hs'
      have htakes := takes_sendVideo hcall
      rcases sendVideo_cases hcall with ⟨hsame, hret⟩ | ⟨snd, window, hsender, hput, hsame, hret⟩
      · rw [hgiven, htakes, if_neg hret, List.append_nil, hsame]
        exact ⟨hup, fun _ => rfl⟩
      · rw [htakes, if_pos hret] at hgiven
        have hcounters := hsmooth.counters
        rw [hgiven] at hcounters
        rw [hgiven, hsame]
        obtain ⟨hsendable, hserves⟩ := hup.sender snd hsender
        obtain ⟨-, hserves'⟩ := hserves.put (by simpa using hcounters.1) hcounters.2 hput
        refine ⟨⟨hup.size, fun snd' hsnd' => ?_, hup.receiver, fun m hmem => ?_, hup.wire, rfl⟩,
          fun _ => rfl⟩
        · obtain rfl := Option.some.inj hsnd'
          exact ⟨⟨hsendable.1.put hput, hserves'.cuts.cached⟩, hserves'⟩
        · exact (hup.said m hmem).imp_right fun hsaid =>
            hsaid.mono (fun _ hcut => hcut.mono (List.prefix_append _ _)) fun _ => id
  | recvVideo bufferSize =>
      obtain ⟨⟨ret, s'⟩, hcall, hs'⟩ := Option.map_eq_some_iff.mp hsession
      obtain rfl : s' = p'.session := hs'
      rw [hgiven, takes, List.append_nil]
      rcases recvVideo_cases hcall with ⟨hsame, -⟩ | ⟨r, r', out, hreceiver, hget, hsame⟩
      · rw [hsame]
        exact ⟨hup, fun _ => rfl⟩
      · obtain ⟨hfed, hleast⟩ := hup.receiver r hreceiver
        obtain ⟨hfed', hbase⟩ := hfed.get (hfed.room (hsmooth.room bufferSize rfl)) hget
        have hle : r.baseSeq.toNat ≤ r'.baseSeq.toNat := by rw [hbase]
        rw [hsame]
        refine ⟨⟨hup.size, hup.sender, fun r₁ hr₁ => ?_, fun m hmem => ?_, hup.wire, rfl⟩,
          fun hnone => ?_⟩
        · obtain rfl := Option.some.inj hr₁
          exact ⟨hfed', Nat.le_trans hleast hle⟩
        · have hsaid := hup.said m hmem
          rw [hreceiver] at hsaid
          exact hsaid.imp_right fun h => h.mono (fun _ => id) (base_mono hle)
        · rw [hreceiver] at hnone
          cases hnone
  | receive datagram =>
      have hup' := hup.receive closed_callRule
        (fun _ _ _ hfits hhandles => hq.admits hsmooth rfl hfits hhandles)
        (fun _ _ hhandles => hp.listens hsmooth rfl hhandles) ?_ hkeeps hsession
      · rw [hgiven, takes, List.append_nil, hup'.played]
        exact ⟨hup', fun _ => rfl⟩
      · intro hconnecting
        -- a session that waits for the answer has no sender yet
        have hstate : p.session.state = .connecting := by
          rw [← hconnecting, heard]
          split <;> rfl
        rw [hp.unsent (hp.not_sender hstate)]
        exact Sender.serves_new _
  | heartbeat =>
      have hup' := hup.heartbeat closed_callRule hkeeps hsession
      rw [hgiven, takes, List.append_nil, hup'.played]
      exact ⟨hup', fun _ => rfl⟩

/-- Without a sender no frame is taken. -/
theorem takes_of_sender_none {s' : SimSession} (hsession : SimSession.Step fl p.session e s')
    (h : p.session.sender = none) : p.takes e = [] := by
  obtain ⟨env, e⟩ := e
  cases e with
  | sendVideo payloadType ftype data =>
      obtain ⟨⟨ret, s₁⟩, hcall, -⟩ := Option.map_eq_some_iff.mp hsession
      rcases sendVideo_cases hcall with ⟨-, hret⟩ | ⟨snd, -, hsender, -⟩
      · rw [takes_sendVideo hcall, if_neg hret]
      · rw [h] at hsender
        cases hsender
  | connect | disconnect | recvVideo | receive | heartbeat => rfl

/-- The frames that are taken are those that the assertion of `sim_sender_put` lets through. -/
theorem takes_sizes {s' : SimSession} (hsession : SimSession.Step fl p.session e s') :
    ∀ data ∈ p.takes e, data.length / simVideoSize < splitNumber := by
  obtain ⟨env, e⟩ := e
  cases e with
  | sendVideo payloadType ftype data =>
      obtain ⟨⟨ret, s₁⟩, hcall, -⟩ := Option.map_eq_some_iff.mp hsession
      rw [takes_sendVideo hcall]
      intro data' hdata'
      rcases sendVideo_cases hcall with ⟨-, hret⟩ | ⟨snd, window, -, hput, -, hret⟩
      · rw [if_neg hret] at hdata'
        exact absurd hdata' List.not_mem_nil
      · rw [if_pos hret] at hdata'
        obtain rfl := List.mem_singleton.mp hdata'
        rw [Sender.put] at hput
        split at hput
        · assumption
        · cases hput
  | connect | disconnect | recvVideo | receive | heartbeat =>
      exact fun _ hdata => absurd hdata List.not_mem_nil

/-- **A step** of one end leaves both ends sound. -/
theorem Sound.step (hp : p.Sound q) (hq : q.Sound p) (hstep : p.Step fl e p')
    (hsmooth : p.Smooth q e p') : p'.Sound q ∧ q.Sound p' := by
  obtain ⟨hup, hplayed⟩ := hp.upholds_step hq hstep hsmooth
  obtain ⟨hsession, hgiven⟩ := hstep
  have hfront : p.given <+: p'.given := ⟨_, hgiven.symm⟩
  have hreceived : p.session.received ≤ p'.session.received := by
    cases hreceiver : p.session.receiver with
    | none =>
        rw [received_none hreceiver]
        exact Nat.zero_le _
    | some r =>
        have hstays := hsmooth.receiver (by rw [hreceiver]; rfl)
        obtain ⟨r', hr'⟩ := Option.isSome_iff_exists.mp hstays
        rw [received_eq hr']
        exact (hup.receiver r' hr').2
  refine ⟨⟨?_, ?_, ?_, ?_, ?_, hsmooth.counters.1⟩, ⟨?_, hq.unsent, hq.unplayed, hq.lawful,
    hq.sizes, hq.counters⟩⟩
  · exact hup.call_mono (List.prefix_refl _) (Nat.le_refl _) fun _ _ => Nat.zero_le _
  · intro hnone
    have hbefore : p.session.sender = none := by
      by_contra hsome
      have hstays := hsmooth.sender (Option.isSome_iff_ne_none.mpr hsome)
      rw [hnone] at hstays
      cases hstays
    rw [hgiven, hp.unsent hbefore, takes_of_sender_none hsession hbefore]
    rfl
  · intro hnone
    have hbefore : p.session.receiver = none := by
      by_contra hsome
      have hstays := hsmooth.receiver (Option.isSome_iff_ne_none.mpr hsome)
      rw [hnone] at hstays
      cases hstays
    rw [hplayed hbefore, hp.unplayed hbefore]
  · rw [control_of_step hsession]
    exact hp.lawful.step _
  · intro data hdata
    rw [hgiven] at hdata
    exact (List.mem_append.mp hdata).elim (hp.sizes data) (takes_sizes hsession data)
  · exact hq.upholds.call_mono hfront hreceived fun _ _ => Nat.zero_le _

end Party

/-! ## Runs -/

open Party SimSession

variable {fl : Floats} {p q : Party}

/-- A call between two ends that take steps in any order; an event says whether it is one of the
first end. -/
inductive CallStep (fl : Floats) :
    Party × Party → Bool × Env × SimSession.Input → Party × Party → Prop
  | first {p p' q : Party} {e : Env × SimSession.Input} (hstep : p.Step fl e p')
      (hsmooth : p.Smooth q e p') : CallStep fl (p, q) (true, e) (p', q)
  | second {p q q' : Party} {e : Env × SimSession.Input} (hstep : q.Step fl e q')
      (hsmooth : q.Smooth p e q') : CallStep fl (p, q) (false, e) (p, q')

/-- An end that has just been created. -/
def Party.create (rand : BitVec 32) (now : Int) (block : Mem) : Party :=
  ⟨.create rand now block, []⟩

theorem sound_create (rand rand' : BitVec 32) (now now' : Int) (block block' : Mem) :
    (Party.create rand now block).Sound (Party.create rand' now' block') where
  upholds := {
    size := Nat.succ_pos _
    sender := fun _ hmem => absurd hmem (Option.not_mem_none _)
    receiver := fun _ hmem => absurd hmem (Option.not_mem_none _)
    said := fun _ hmem => absurd hmem List.not_mem_nil
    wire := rfl
    played := rfl }
  unsent _ := rfl
  unplayed _ := rfl
  lawful := Control.lawful_of_not_sender rfl
  sizes _ hmem := absurd hmem List.not_mem_nil
  counters := Nat.two_pow_pos 31

/-- Both ends are sound after every run. -/
theorem sound_of_run {rand rand' : BitVec 32} {now now' : Int} {block block' : Mem}
    {es : List (Bool × Env × SimSession.Input)}
    (h : Run (CallStep fl) (Party.create rand now block, Party.create rand' now' block')
      es (p, q)) :
    p.Sound q ∧ q.Sound p := by
  have hboth : ∀ l : Party × Party,
      Run (CallStep fl) (Party.create rand now block, Party.create rand' now' block') es l →
        l.1.Sound l.2 ∧ l.2.Sound l.1 := by
    intro l hrun
    refine hrun.stateInvariant (I := fun l => l.1.Sound l.2 ∧ l.2.Sound l.1)
      ⟨sound_create .., sound_create ..⟩ ?_
    intro l e l' hsound hstep
    cases hstep with
    | first hstep hsmooth => exact hsound.1.step hsound.2 hstep hsmooth
    | second hstep hsmooth => exact (hsound.2.step hsound.1 hstep hsmooth).symm
  exact hboth (p, q) h

/-! ## Calls that can be run -/

/-- A message that may come in a call. -/
def Party.mayHear (env : Env) (r : Receiver) (header : SimProto.SimHeader)
    (strm : BinStream) : Bool :=
  match MsgId.ofMid header.mid with
  | some .connect => decide (r.maxSeq = 0)
  | some .seg =>
      match simDecodeMsg strm header (.seg env.seg) with
      | some ((_, .seg seg), _) => decide (r.cache.Fits seg.fid)
      | _ => true
  | _ => true

/-- What a call asks for, checked. -/
def Party.smooth? (p q : Party) (e : Env × SimSession.Input) (p' : Party) : Bool :=
  (match e.2 with
    | .receive datagram => decide (datagram ∈ q.session.sent) &&
        (simDecodeHeader (udpRecv e.1.block datagram) e.1.header).all fun heard =>
          p.session.receiver.all fun r => mayHear e.1 r heard.1.2 heard.2
    | .recvVideo bufferSize => q.given.all fun data => decide (data.length ≤ bufferSize)
    | _ => true) &&
  decide (p'.given.length < 2 ^ 31) && decide (packetCount p'.given < 2 ^ 32) &&
  (!p.session.sender.isSome || p'.session.sender.isSome) &&
  (!p.session.receiver.isSome || p'.session.receiver.isSome)

theorem Party.mayHear_of_handles {p : Party} {env : Env} {datagram : List UInt8} {id : MsgId}
    {uid : BitVec 32} {body : SimBody} (hhandles : Handles env datagram id uid body)
    (h : (simDecodeHeader (udpRecv env.block datagram) env.header).all fun heard =>
      p.session.receiver.all fun r => mayHear env r heard.1.2 heard.2)
    {r : Receiver} (hr : r ∈ p.session.receiver) :
    ∃ header strm, MsgId.ofMid header.mid = some id ∧ Decoded env header strm id body ∧
      mayHear env r header strm = true := by
  obtain ⟨header, strm, hheader, hid, -, hdecoded⟩ := hhandles
  rw [hheader] at h
  have hreceiver : p.session.receiver.all fun r => mayHear env r header strm := h
  rw [hr] at hreceiver
  exact ⟨header, strm, hid, hdecoded, hreceiver⟩

theorem Party.smooth_of_smooth? {e : Env × SimSession.Input} {p' : Party}
    (h : p.smooth? q e p' = true) : p.Smooth q e p' := by
  rw [smooth?, Bool.and_eq_true, Bool.and_eq_true, Bool.and_eq_true, Bool.and_eq_true] at h
  obtain ⟨⟨⟨⟨hinput, hgiven⟩, hpackets⟩, hsender⟩, hreceiver⟩ := h
  refine ⟨?_, ?_, ?_, ?_, ⟨of_decide_eq_true hgiven, of_decide_eq_true hpackets⟩, ?_, ?_⟩
  · intro datagram heq
    rw [heq] at hinput
    exact of_decide_eq_true (Bool.and_eq_true_iff.mp hinput).1
  · intro datagram uid body heq hhandles r hr
    rw [heq] at hinput
    obtain ⟨header, strm, hid, -, hmay⟩ :=
      mayHear_of_handles hhandles (Bool.and_eq_true_iff.mp hinput).2 hr
    rw [mayHear, hid] at hmay
    have hunused : decide (r.maxSeq = 0) = true := hmay
    exact of_decide_eq_true hunused
  · intro datagram uid seg heq hhandles r hr
    rw [heq] at hinput
    obtain ⟨header, strm, hid, hdecoded, hmay⟩ :=
      mayHear_of_handles hhandles (Bool.and_eq_true_iff.mp hinput).2 hr
    rcases hdecoded with hother | ⟨strm', hdecoded⟩
    · cases hother
    · have hdecoded' : simDecodeMsg strm header (.seg e.1.seg) = some ((0, .seg seg), strm') :=
        hdecoded
      rw [mayHear, hid] at hmay
      dsimp only at hmay
      rw [hdecoded'] at hmay
      exact of_decide_eq_true hmay
  · intro bufferSize heq data hdata
    rw [heq] at hinput
    exact of_decide_eq_true (List.all_eq_true.mp hinput data hdata)
  · intro hsome
    rw [hsome] at hsender
    exact hsender
  · intro hsome
    rw [hsome] at hreceiver
    exact hreceiver

/-- A step of one end, if the call is smooth. -/
def Party.step? (fl : Floats) (p q : Party) (e : Env × SimSession.Input) : Option Party := do
  let s ← p.session.call fl e.1 e.2
  let p' : Party := ⟨s, p.given ++ p.takes e⟩
  if p.smooth? q e p' then some p' else none

def callStep? (fl : Floats) (l : Party × Party) (e : Bool × Env × SimSession.Input) :
    Option (Party × Party) :=
  if e.1 then (l.1.step? fl l.2 e.2).map fun p => (p, l.2)
  else (l.2.step? fl l.1 e.2).map fun q => (l.1, q)

theorem Party.step_of_step? {e : Env × SimSession.Input} {p' : Party}
    (h : p.step? fl q e = some p') : p.Step fl e p' ∧ p.Smooth q e p' := by
  obtain ⟨s, hcall, h⟩ := Option.bind_eq_some_iff.mp h
  dsimp only at h
  split at h
  · rename_i hsmooth
    obtain rfl := Option.some.inj h
    exact ⟨⟨hcall, rfl⟩, smooth_of_smooth? hsmooth⟩
  · cases h

theorem callStep_of_callStep? {l l' : Party × Party} {e : Bool × Env × SimSession.Input}
    (h : callStep? fl l e = some l') : CallStep fl l e l' := by
  obtain ⟨p, q⟩ := l
  obtain ⟨side, e⟩ := e
  rw [callStep?] at h
  cases side with
  | true =>
      obtain ⟨p', hstep, rfl⟩ := Option.map_eq_some_iff.mp h
      obtain ⟨hstep, hsmooth⟩ := step_of_step? hstep
      exact .first hstep hsmooth
  | false =>
      obtain ⟨q', hstep, rfl⟩ := Option.map_eq_some_iff.mp h
      obtain ⟨hstep, hsmooth⟩ := step_of_step? hstep
      exact .second hstep hsmooth

/-- A segment with a whole frame as it goes out of the first end. -/
def wholeFrame (fid timestamp : BitVec 32) (ftype : BitVec 8) (sendTs : BitVec 16)
    (data : List UInt8) : List UInt8 :=
  wireMsg ⟨protocolVer, MsgId.seg.mid, 5⟩ (.seg
    { packetId := fid, fid, timestamp, index := 0, total := 1, ftype, payloadType := 3, remb := 1
      sendTs, transportSeq := (fid - 1).setWidth 16, dataSize := BitVec.ofNat 16 data.length
      data := Sender.segmentData data })

/-- Two frames are sent, and received in the wrong order, one of them twice. -/
def shortCall : List (Bool × Env × SimSession.Input) :=
  [(true, quietEnv 10, .connect 5),
    (false, quietEnv 11, .receive (wireMsg ⟨protocolVer, MsgId.connect.mid, 5⟩
      (.connect ⟨1, 0, Vector.replicate _ 0⟩))),
    (true, quietEnv 12, .receive (wireMsg ⟨protocolVer, MsgId.connectAck.mid, 0⟩
      (.connectAck ⟨1, 0⟩))),
    (true, quietEnv 20, .sendVideo 3 1 [1, 2, 3]), (true, quietEnv 220, .sendVideo 3 0 [4, 5]),
    (true, { quietEnv 230 with calls := [.sendPacket 1, .sendPacket 2] }, .heartbeat),
    (false, quietEnv 240, .receive (wholeFrame 1 0 1 210 [1, 2, 3])),
    (false, quietEnv 241, .receive (wholeFrame 2 200 0 10 [4, 5])),
    (false, quietEnv 242, .receive (wholeFrame 1 0 1 210 [1, 2, 3])),
    (false, quietEnv 300, .recvVideo 100), (false, quietEnv 400, .recvVideo 100),
    (false, quietEnv 500, .recvVideo 100)]

/-! ## What a call keeps -/

/-- Values at rising places of a list, one after the other. -/
theorem map_sublist_drop {α β : Type} {xs : List α} {ds : List β} {place : β → Nat}
    {value : β → α} (hrising : ds.Pairwise fun d d' => place d < place d') {n : Nat}
    (hvalue : ∀ d ∈ ds, n ≤ place d ∧ xs[place d]? = some (value d)) :
    (ds.map value).Sublist (xs.drop n) := by
  induction ds generalizing n with
  | nil => exact List.nil_sublist _
  | cons d ds ih =>
      obtain ⟨hbefore, hrest⟩ := List.pairwise_cons.mp hrising
      obtain ⟨hle, hplace⟩ := hvalue d List.mem_cons_self
      obtain ⟨hlt, hget⟩ := List.getElem?_eq_some_iff.mp hplace
      have htail : (ds.map value).Sublist (xs.drop (place d + 1)) :=
        ih hrest fun d' hd' => ⟨hbefore d' hd', (hvalue d' (List.mem_cons_of_mem _ hd')).2⟩
      have hcons : xs.drop (place d) = value d :: xs.drop (place d + 1) := by
        rw [List.drop_eq_getElem_cons hlt, hget]
      rw [List.map_cons]
      refine List.Sublist.trans ?_ (List.drop_sublist_drop_left xs hle)
      rw [hcons]
      exact htail.cons_cons (value d)

/-- What an end plays is what its peer was given: some of the frames, in their order and in
full. -/
structure Party.Plays (p q : Party) : Prop where
  sublist : (p.session.played.map (·.data)).Sublist q.given
  rising : p.session.played.Pairwise (·.fid < ·.fid)
  frame : ∀ d ∈ p.session.played, q.given[d.fid.toNat - 1]? = some d.data

theorem Party.Sound.plays (hp : p.Sound q) (hq : q.Sound p) : p.Plays q := by
  have hplayed : p.session.played.Pairwise (·.fid < ·.fid) ∧ ∀ d ∈ p.session.played,
      0 < d.fid.toNat ∧ q.given[d.fid.toNat - 1]? = some d.data := by
    cases hreceiver : p.session.receiver with
    | none =>
        rw [hp.unplayed hreceiver]
        exact ⟨List.Pairwise.nil, fun _ hmem => absurd hmem List.not_mem_nil⟩
    | some r => exact (hp.upholds.receiver r hreceiver).1.played_eq hq.sizes
  obtain ⟨hrising, hframe⟩ := hplayed
  refine ⟨?_, hrising, fun d hd => (hframe d hd).2⟩
  have hplaces : p.session.played.Pairwise fun d d' => d.fid.toNat - 1 < d'.fid.toNat - 1 := by
    refine hrising.imp_of_mem fun {d d'} hd hd' hlt => ?_
    have hpos := (hframe d hd).1
    rw [BitVec.lt_def] at hlt
    omega
  exact map_sublist_drop (n := 0) hplaces fun d hd => ⟨Nat.zero_le _, (hframe d hd).2⟩

/-- **What is played is what was given**: in every run of a call, with datagrams lost, repeated
and out of order, each end plays frames that its peer was given, in full and in their order. -/
theorem plays_of_run {rand rand' : BitVec 32} {now now' : Int} {block block' : Mem}
    {es : List (Bool × Env × SimSession.Input)}
    (h : Run (CallStep fl) (Party.create rand now block, Party.create rand' now' block')
      es (p, q)) :
    p.Plays q ∧ q.Plays p := by
  obtain ⟨hp, hq⟩ := sound_of_run h
  exact ⟨hp.plays hq, hq.plays hp⟩

theorem plays_shortCall :
    ∃ p q, Run (CallStep plainFloats) (Party.create 1 1 fun _ => 0, Party.create 2 1 fun _ => 0)
        shortCall (p, q) ∧
      q.session.played.map (·.data) = [[1, 2, 3], [4, 5]] ∧ p.Plays q ∧ q.Plays p := by
  have hlast : (shortCall.foldlM (callStep? plainFloats)
      (Party.create 1 1 fun _ => 0, Party.create 2 1 fun _ => 0)).map
        (fun l => l.2.session.played.map (·.data)) = some [[1, 2, 3], [4, 5]] := by
    decide +kernel
  obtain ⟨⟨p, q⟩, hl, hplayed⟩ := Option.map_eq_some_iff.mp hlast
  have hrun : Run (CallStep plainFloats)
      (Party.create 1 1 fun _ => 0, Party.create 2 1 fun _ => 0) shortCall (p, q) :=
    (Run.of_foldlM hl).mono fun _ _ _ => callStep_of_callStep?
  exact ⟨p, q, hrun, hplayed, plays_of_run hrun⟩

/-- **What may be missed can be sent again**: in every run of a call, a packet that the peer has
not got past is still in the cache of its sender, as the segment of the frame that it was cut
from. -/
theorem resendable_of_run {rand rand' : BitVec 32} {now now' : Int} {block block' : Mem}
    {es : List (Bool × Env × SimSession.Input)}
    (h : Run (CallStep fl) (Party.create rand now block, Party.create rand' now' block') es (p, q))
    {snd : VideoSender} (hsnd : p.session.sender = some snd) {packetId : BitVec 32}
    (hmissed : q.session.received < packetId.toNat)
    (hnumbered : packetId.toNat ≤ packetCount p.given) :
    ∃ seg, snd.cache.lookup packetId.toNat = some seg ∧ seg.packetId = packetId ∧
      Cut p.given seg := by
  obtain ⟨hp, -⟩ := sound_of_run h
  obtain ⟨hcuts, hwindowed, hbase⟩ := (hp.upholds.sender snd hsnd).2
  have hfind : (snd.cache.find? packetId.toNat).isSome := by
    rw [hwindowed.cached_iff, BitVec.lt_def, BitVec.le_def, hcuts.packetIdSeed]
    exact ⟨Nat.lt_of_le_of_lt hbase hmissed, hnumbered⟩
  obtain ⟨b, hb, hkey⟩ := SortedMap.isSome_find?_iff.mp hfind
  refine ⟨b.2, ?_, ?_, hcuts.cached b hb⟩
  · rw [SortedMap.lookup_eq_some_iff, ← hkey]
    exact hb
  · exact BitVec.eq_of_toNat_eq ((hwindowed.keyed b hb).trans hkey)

/-- Both frames have been sent, and nothing has come in yet. -/
theorem resendable_shortCall :
    ∃ p q snd, Run (CallStep plainFloats)
        (Party.create 1 1 fun _ => 0, Party.create 2 1 fun _ => 0) (shortCall.take 6) (p, q) ∧
      p.session.sender = some snd ∧ ∃ seg, snd.cache.lookup 2 = some seg ∧ seg.packetId = 2 ∧
        Cut p.given seg := by
  have hlast : ((shortCall.take 6).foldlM (callStep? plainFloats)
      (Party.create 1 1 fun _ => 0, Party.create 2 1 fun _ => 0)).map
        (fun l => (l.1.session.sender.isSome, l.2.session.received, packetCount l.1.given)) =
          some (true, 0, 2) := by
    decide +kernel
  obtain ⟨⟨p, q⟩, hl, hview⟩ := Option.map_eq_some_iff.mp hlast
  obtain ⟨hsome, hview⟩ := Prod.mk.inj hview
  obtain ⟨hreceived, hcount⟩ := Prod.mk.inj hview
  obtain ⟨snd, hsnd⟩ := Option.isSome_iff_exists.mp hsome
  have hrun : Run (CallStep plainFloats)
      (Party.create 1 1 fun _ => 0, Party.create 2 1 fun _ => 0) (shortCall.take 6) (p, q) :=
    (Run.of_foldlM hl).mono fun _ _ _ => callStep_of_callStep?
  have hmissed : q.session.received < (2 : BitVec 32).toNat := by
    rw [show q.session.received = 0 from hreceived]
    decide
  have hnumbered : (2 : BitVec 32).toNat ≤ packetCount p.given := by
    rw [show packetCount p.given = 2 from hcount]
    decide
  exact ⟨p, q, snd, hrun, hsnd, resendable_of_run hrun hsnd hmissed hnumbered⟩

end SimTransport

end Razor
