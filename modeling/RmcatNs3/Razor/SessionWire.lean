import RmcatNs3.Razor.FrameCut
import RmcatNs3.Razor.SessionControl

/-!
# What a session says

A datagram that goes out of a session is a message as its decoder takes it: a command, an
answer, an ack with the base of the receiver, or a segment of the cache. Congestion control
decides when segments go, and leaves the window as it is.
-/

namespace Razor

namespace SimTransport

open Runs SimProto StructMemory BinStream

/-- The datagram of a message. -/
def Outgoing.wire (m : Outgoing) : List UInt8 :=
  wireMsg ⟨protocolVer, m.id.mid, m.uid⟩ m.body

/-- A message that has the body of its kind, with its sizes in range. -/
structure Outgoing.Sound (m : Outgoing) : Prop where
  fits : m.body.Fits m.id
  inRange : m.body.InRange

/-- A datagram with a message of which something is known. -/
def Spoken (P : SimBody → Prop) (datagram : List UInt8) : Prop :=
  ∃ m : Outgoing, datagram = m.wire ∧ m.Sound ∧ P m.body

/-- What may be known of a message: `K` of a segment, `B` of the base of an ack or a report. -/
def Says (K : SimSegment → Prop) (B : BitVec 32 → Prop) : SimBody → Prop
  | .seg seg => K seg
  | .segAck ack => B ack.basePacketId
  | .feedback feedback => B feedback.basePacketId
  | .connect _ | .connectAck _ | .disconnect _ | .ping _ => True

/-- A segment as it is sent: `sim_send_packet` fills in two of its fields. -/
def Resent (seg seg' : SimSegment) : Prop :=
  ∃ sendTs transportSeq, seg' = { seg with sendTs, transportSeq }

/-- The entries of a cache are those of another one, sent or not. -/
def ResentFrom (cache cache' : SortedMap Nat SimSegment) : Prop :=
  ∀ b' ∈ cache', ∃ b ∈ cache, b'.1 = b.1 ∧ Resent b.2 b'.2

theorem Spoken.mono {P Q : SimBody → Prop} {datagram : List UInt8} (h : Spoken P datagram)
    (hle : ∀ body, P body → Q body) : Spoken Q datagram := by
  obtain ⟨m, hwire, hm, hP⟩ := h
  exact ⟨m, hwire, hm, hle m.body hP⟩

theorem Says.mono {K K' : SimSegment → Prop} {B B' : BitVec 32 → Prop} {body : SimBody}
    (h : Says K B body) (hseg : ∀ seg, K seg → K' seg) (hbase : ∀ base, B base → B' base) :
    Says K' B' body := by
  cases body with
  | seg seg => exact hseg seg h
  | segAck ack => exact hbase _ h
  | feedback feedback => exact hbase _ h
  | connect | connectAck | disconnect | ping => trivial

theorem Resent.refl (seg : SimSegment) : Resent seg seg := ⟨seg.sendTs, seg.transportSeq, rfl⟩

theorem Resent.trans {seg₁ seg₂ seg₃ : SimSegment} (h : Resent seg₁ seg₂)
    (h' : Resent seg₂ seg₃) : Resent seg₁ seg₃ := by
  obtain ⟨_, _, rfl⟩ := h
  obtain ⟨sendTs, transportSeq, rfl⟩ := h'
  exact ⟨sendTs, transportSeq, rfl⟩

theorem ResentFrom.refl (cache : SortedMap Nat SimSegment) : ResentFrom cache cache :=
  fun b hb => ⟨b, hb, rfl, .refl _⟩

theorem ResentFrom.trans {c₁ c₂ c₃ : SortedMap Nat SimSegment} (h : ResentFrom c₁ c₂)
    (h' : ResentFrom c₂ c₃) : ResentFrom c₁ c₃ := by
  intro b₃ hb₃
  obtain ⟨b₂, hb₂, hkey, hseg⟩ := h' b₃ hb₃
  obtain ⟨b₁, hb₁, hkey', hseg'⟩ := h b₂ hb₂
  exact ⟨b₁, hb₁, hkey.trans hkey', hseg'.trans hseg⟩

/-! ## Segments of the cache -/

/-- The segment lies within its frame. -/
def SegInRange (seg : SimSegment) : Prop :=
  seg.index.toNat < seg.total.toNat ∧ seg.dataSize.toNat ≤ simVideoSize

theorem SegInRange.resent {seg seg' : SimSegment} (h : SegInRange seg) (hre : Resent seg seg') :
    SegInRange seg' := by
  obtain ⟨_, _, rfl⟩ := hre
  exact h

/-- Two windows that differ in what was sent only. -/
structure SameWindow (s s' : Sender) : Prop where
  resent : ResentFrom s.cache s'.cache
  keys : s'.cache.toList.map (·.1) = s.cache.toList.map (·.1)
  basePacketId : s'.basePacketId = s.basePacketId
  packetIdSeed : s'.packetIdSeed = s.packetIdSeed
  frameIdSeed : s'.frameIdSeed = s.frameIdSeed

theorem SameWindow.refl (s : Sender) : SameWindow s s := ⟨.refl _, rfl, rfl, rfl, rfl⟩

theorem SameWindow.trans {s₁ s₂ s₃ : Sender} (h : SameWindow s₁ s₂) (h' : SameWindow s₂ s₃) :
    SameWindow s₁ s₃ :=
  ⟨h.resent.trans h'.resent, h'.keys.trans h.keys, h'.basePacketId.trans h.basePacketId,
    h'.packetIdSeed.trans h.packetIdSeed, h'.frameIdSeed.trans h.frameIdSeed⟩

/-- The segments of the cache lie within their frames. -/
def Sender.InRange (s : Sender) : Prop := ∀ b ∈ s.cache, SegInRange b.2

theorem Sender.InRange.sameWindow {s s' : Sender} (hs : s.InRange) (h : SameWindow s s') :
    s'.InRange := by
  intro b' hb'
  obtain ⟨b, hb, -, hre⟩ := h.resent b' hb'
  exact (hs b hb).resent hre

theorem Sender.InRange.updateBase {s s' : Sender} (hs : s.InRange) {basePacketId : BitVec 32}
    (h : s.updateBase basePacketId = some s') : s'.InRange :=
  fun b hb => hs b ((mem_updateBase h).mp hb).1

/-- The loop of `sim_sender_put`. -/
theorem Sender.InRange.putSegments {s : Sender} (hs : s.InRange) {timestamp : BitVec 32}
    {payloadType ftype : BitVec 8} {total : BitVec 16} {i : Nat} {pos : List UInt8}
    {splits : List (BitVec 16)} (hend : i + splits.length ≤ total.toNat)
    (hsplits : ∀ split ∈ splits, split.toNat ≤ simVideoSize) :
    (Sender.putSegments timestamp payloadType ftype total i s pos splits).InRange := by
  induction splits generalizing i s pos with
  | nil => exact hs
  | cons split rest ih =>
      rw [List.length_cons] at hend
      rw [Sender.putSegments]
      refine ih ?_ (by omega) fun split hmem => hsplits split (List.mem_cons_of_mem _ hmem)
      intro b hb
      rcases SortedMap.mem_insert.mp hb with hb | ⟨_, rfl⟩
      · exact hs b hb
      · refine ⟨?_, hsplits split List.mem_cons_self⟩
        have hlt := total.isLt
        dsimp only
        rw [BitVec.toNat_ofNat, Nat.mod_eq_of_lt (by omega)]
        omega

theorem Sender.InRange.put {s s' : Sender} (hs : s.InRange) {payloadType ftype : BitVec 8}
    {data : List UInt8} {nowTs : Int} (h : s.put payloadType ftype data nowTs = some s') :
    s'.InRange := by
  rw [Sender.put] at h
  split at h
  · rename_i hsize
    obtain rfl := Option.some.inj h
    have hlt := length_framePieces_lt hsize
    rw [length_framePieces] at hlt
    have hstart : Sender.InRange { s with
        firstTs := if s.firstTs = -1 then nowTs else s.firstTs
        frameIdSeed := s.frameIdSeed + 1 } := hs
    refine hstart.putSegments ?_ fun split hmem => le_of_mem_simSplitFrame hmem
    rw [BitVec.toNat_ofNat, Nat.mod_eq_of_lt hlt, Nat.zero_add]
  · cases h

theorem VideoSender.packet_eq {snd snd' : VideoSender} {now : Int} {packetId : BitVec 32}
    {seg : SimSegment} (h : snd.packet now packetId = some (seg, snd')) :
    (∃ b ∈ snd.cache, Resent b.2 seg) ∧ SameWindow snd.toSender snd'.toSender := by
  obtain ⟨old, hlookup, hresult⟩ := Option.map_eq_some_iff.mp h
  obtain ⟨rfl, rfl⟩ := Prod.mk.inj hresult
  have hmem : (packetId.toNat, old) ∈ snd.cache := SortedMap.lookup_eq_some_iff.mp hlookup
  refine ⟨⟨_, hmem, _, _, rfl⟩, ?_, SortedMap.keys_modify _ _ _, rfl, rfl, rfl⟩
  intro b' hb'
  obtain ⟨b, hb, rfl⟩ := List.mem_map.mp hb'
  by_cases hkey : b.1 = packetId.toNat
  · refine ⟨(packetId.toNat, old), hmem, ?_, ?_⟩
    · rw [if_pos hkey]
      exact hkey
    · rw [if_pos hkey]
      exact ⟨_, _, rfl⟩
  · rw [if_neg hkey]
    exact ⟨b, hb, rfl, .refl _⟩

/-- An ack moves the base, or is rejected. -/
theorem VideoSender.ack_cases {snd snd' : VideoSender} {measure : Int → Int → Int}
    {addPacket : SimSegment → Bool} {now : Int} {ack : SegmentAck}
    (h : snd.ack measure addPacket now ack = some snd') :
    snd'.toSender = snd.toSender ∨
      snd.toSender.updateBase ack.basePacketId = some snd'.toSender := by
  obtain ⟨⟨window, segs⟩, hack, h⟩ := Option.bind_eq_some_iff.mp h
  obtain ⟨⟨_, limiter⟩, -, h⟩ := Option.bind_eq_some_iff.mp h
  obtain rfl := Option.some.inj h
  rw [Sender.ack] at hack
  split at hack
  · obtain ⟨rfl, -⟩ := Prod.mk.inj (Option.some.inj hack)
    exact .inl rfl
  · split at hack
    · cases hack
    · rename_i hbase
      obtain ⟨rfl, -⟩ := Prod.mk.inj (Option.some.inj hack)
      exact .inr hbase

/-! ## Acks -/

namespace Receiver

variable {clock : Clock} {r r' : Receiver} {ack : SegmentAck}

/-- The base of an ack is the one of the receiver that sends it, and its entries fit. -/
structure Acks (r : Receiver) (ack : SegmentAck) : Prop where
  base : ack.basePacketId = r.baseSeq
  fits : ack.nack.length ≤ SimProto.nackNum

theorem acks_of_videoRealAck {hb : Bool} {seq : BitVec 32}
    (h : r.videoRealAck clock hb seq = some (r', some ack)) : r'.Acks ack := by
  obtain ⟨-, hbase, hnack, -⟩ := ack_of_videoRealAck h
  rcases videoRealAck_cases h with ⟨-, -, hnone⟩ | ⟨-, r₁, scan, -, -, -, hseq, -, -⟩
  · cases hnone
  · refine ⟨hbase.trans hseq.symm, ?_⟩
    rw [hnack, List.length_map, requests, List.length_map, List.length_take]
    exact Nat.min_le_left _ _

theorem acks_of_put {seg : SimSegment} (h : r.put clock seg = .ok (r', some ack)) :
    r'.Acks ack := by
  have hresult := put_result clock r seg
  rw [h] at hresult
  generalize hout : (Except.ok (r', some ack) : Except Fault _) = out at hresult
  cases hresult with
  | ignored => cases (Prod.mk.inj (Except.ok.inj hout)).2
  | fault => cases hout
  | rejected => cases (Prod.mk.inj (Except.ok.inj hout)).2
  | endless => cases hout
  | taken _ _ _ htaken =>
      obtain rfl := Except.ok.inj hout
      exact acks_of_videoRealAck htaken

theorem baseSeq_lowerWait (nowTs : BitVec 64) (r : Receiver) :
    (r.lowerWait clock nowTs).baseSeq = r.baseSeq := by
  rw [lowerWait]
  split <;> rfl

theorem acks_of_timer {nowTs : BitVec 64} (h : r.timer clock nowTs = some (r', some ack)) :
    r'.Acks ack := by
  obtain ⟨⟨r₁, out⟩, hack, hresult⟩ := Option.map_eq_some_iff.mp h
  obtain ⟨rfl, rfl⟩ := Prod.mk.inj hresult
  have hacks := acks_of_videoRealAck hack
  exact ⟨hacks.base.trans (baseSeq_lowerWait nowTs r₁).symm, hacks.fits⟩

end Receiver

theorem SegmentAck.inRange_body {ack : SegmentAck} (h : ack.nack.length ≤ SimProto.nackNum) :
    SimBody.InRange (.segAck ack.body) := by
  show (BitVec.ofNat 8 ack.nack.length).toNat ≤ SimProto.nackNum
  rw [BitVec.toNat_ofNat]
  exact Nat.le_trans (Nat.mod_le _ _) h

namespace SimSession

variable {fl : Floats} {env : Env} {s s' : SimSession} {P Q : SimBody → Prop}
  {K : SimSegment → Prop} {B : BitVec 32 → Prop}

/-! ## Talking -/

/-- Messages of which something is known have gone out, and nothing else has changed. -/
def Talks (P : SimBody → Prop) (s s' : SimSession) : Prop :=
  ∃ sstrm news, s' = { s with
      sstrm
      said := s.said ++ news
      sent := s.sent ++ news.map Outgoing.wire } ∧ 0 < sstrm.size ∧
    ∀ m ∈ news, m.Sound ∧ P m.body

theorem Talks.refl (hsize : 0 < s.sstrm.size) : Talks P s s :=
  ⟨s.sstrm, [], by rw [List.map_nil, List.append_nil, List.append_nil], hsize,
    fun _ hmem => absurd hmem List.not_mem_nil⟩

theorem Talks.trans {s₁ s₂ s₃ : SimSession} (h : Talks P s₁ s₂) (h' : Talks P s₂ s₃) :
    Talks P s₁ s₃ := by
  obtain ⟨sstrm, news, rfl, -, hnews⟩ := h
  obtain ⟨sstrm', news', rfl, hsize, hnews'⟩ := h'
  refine ⟨sstrm', news ++ news', ?_, hsize, fun m hmem => ?_⟩
  · rw [List.map_append, List.append_assoc, List.append_assoc]
  · exact (List.mem_append.mp hmem).elim (hnews m) (hnews' m)

theorem Talks.size (h : Talks P s s') : 0 < s'.sstrm.size := by
  obtain ⟨sstrm, news, rfl, hsize, -⟩ := h
  exact hsize

theorem Talks.sender_eq (h : Talks P s s') : s'.sender = s.sender := by
  obtain ⟨sstrm, news, rfl, -⟩ := h
  rfl

theorem Talks.receiver_eq (h : Talks P s s') : s'.receiver = s.receiver := by
  obtain ⟨sstrm, news, rfl, -⟩ := h
  rfl

/-- **A message goes out** as it is. -/
theorem talks_of_sendMsg {id : MsgId} {body : SimBody} (hsize : 0 < s.sstrm.size)
    (hfits : body.Fits id) (hrange : body.InRange) (hP : P body)
    (h : s.sendMsg id body = some s') : Talks P s s' := by
  obtain ⟨sstrm, hencode, h⟩ := Option.bind_eq_some_iff.mp h
  obtain rfl := Option.some.inj h
  obtain ⟨sstrm', hencode', hwriting⟩ := @simEncodeMsg_eq id ⟨protocolVer, id.mid, s.uid⟩ body
    s.sstrm hsize rfl hfits hrange
  obtain rfl := Option.some.inj (hencode.symm.trans hencode')
  have hlong : sstrm.used ≠ 0 := by
    rw [hwriting.used, wireMsg, List.length_append, Bytes.length_encode]
    omega
  rw [networkSend, if_neg hlong]
  refine ⟨sstrm, [⟨id, s.uid, body⟩], ?_, hwriting.pos, ?_⟩
  · rw [hwriting.used, hwriting.data]
    rfl
  · intro m hmem
    obtain rfl := List.mem_singleton.mp hmem
    exact ⟨⟨hfits, hrange⟩, hP⟩

theorem talks_of_sendAck {ack : Option SegmentAck} {r : Receiver} (hsize : 0 < s.sstrm.size)
    (hack : ∀ a ∈ ack, r.Acks a) (hP : ∀ a, r.Acks a → P (.segAck a.body))
    (h : s.sendAck ack = some s') : Talks P s s' := by
  cases ack with
  | none =>
      obtain rfl := Option.some.inj h
      exact .refl hsize
  | some ack =>
      have hacks := hack ack rfl
      have hfits : SimBody.Fits (.segAck ack.body) .segAck := trivial
      exact talks_of_sendMsg hsize hfits (SegmentAck.inRange_body hacks.fits) (hP ack hacks) h

theorem talks_of_sendSimFeedback {report : List UInt8} {r : Receiver}
    (hsize : 0 < s.sstrm.size) (hr : s.receiver = some r)
    (hP : ∀ feedback : SimFeedback, feedback.basePacketId = r.baseSeq → P (.feedback feedback))
    (h : s.sendSimFeedback report = some s') : Talks P s s' := by
  rw [sendSimFeedback, hr] at h
  dsimp only at h
  split at h
  · obtain rfl := Option.some.inj h
    exact .refl hsize
  · rename_i hlong
    have hfits : ∀ feedback, SimBody.Fits (.feedback feedback) .feedback := fun _ => trivial
    refine talks_of_sendMsg hsize (hfits _) ?_ (hP _ ?_) h
    · show (BitVec.ofNat 16 report.length).toNat ≤ simFeedbackSize
      rw [BitVec.toNat_ofNat]
      exact Nat.le_trans (Nat.mod_le _ _) (Nat.not_lt.mp hlong)
    · rfl

theorem talks_of_reports {reports : List (List UInt8)} {r : Receiver}
    (hsize : 0 < s.sstrm.size) (hr : s.receiver = some r)
    (hP : ∀ feedback : SimFeedback, feedback.basePacketId = r.baseSeq → P (.feedback feedback))
    (h : reports.foldlM sendSimFeedback s = some s') : Talks P s s' := by
  induction reports generalizing s with
  | nil =>
      obtain rfl := Option.some.inj h
      exact .refl hsize
  | cons report rest ih =>
      rw [List.foldlM_cons] at h
      obtain ⟨s₁, hfirst, hrest⟩ := Option.bind_eq_some_iff.mp h
      have htalks : Talks P s s₁ := talks_of_sendSimFeedback hsize hr hP hfirst
      exact htalks.trans (ih htalks.size (htalks.receiver_eq.trans hr) hrest)

/-- **The receiver's timer** sends an ack and the reports of its congestion control. -/
theorem talks_of_receiverTimer {r : Receiver} (hsize : 0 < s.sstrm.size)
    (hr : s.receiver = some r) (h : s.receiverTimer env = some s') :
    ∃ r' ack, r.timer (s.clock env.now) (BitVec.ofInt 64 env.now) = some (r', ack) ∧
      ∀ P, (∀ a, r'.Acks a → P (.segAck a.body)) →
        (∀ feedback : SimFeedback, feedback.basePacketId = r'.baseSeq → P (.feedback feedback)) →
          Talks P { s with receiver := some r' } s' := by
  rw [receiverTimer, hr] at h
  dsimp only at h
  obtain ⟨⟨r', ack⟩, hcall, h⟩ := Option.bind_eq_some_iff.mp h
  obtain ⟨s₁, hack, hreports⟩ := Option.bind_eq_some_iff.mp h
  refine ⟨r', ack, hcall, fun P hacks hfeedback => ?_⟩
  have htalks : Talks P { s with receiver := some r' } s₁ := by
    refine talks_of_sendAck hsize (fun a ha => ?_) hacks hack
    obtain rfl := ha
    exact Receiver.acks_of_timer hcall
  exact htalks.trans (talks_of_reports htalks.size htalks.receiver_eq hfeedback hreports)

theorem says_ack {r : Receiver} (hB : B r.baseSeq) (a : SegmentAck) (ha : r.Acks a) :
    Says K B (.segAck a.body) := by
  show B a.basePacketId
  rw [ha.base]
  exact hB

theorem says_feedback {r : Receiver} (hB : B r.baseSeq) (feedback : SimFeedback)
    (h : feedback.basePacketId = r.baseSeq) : Says K B (.feedback feedback) := by
  show B feedback.basePacketId
  rw [h]
  exact hB

/-! ## Segments -/

/-- What a sender may send: every segment of its cache lies within its frame, and `K` holds
of it. -/
def Sendable (K : SimSegment → Prop) (snd : VideoSender) : Prop :=
  snd.toSender.InRange ∧ ∀ b ∈ snd.cache, K b.2

theorem Sendable.sameWindow {snd snd' : VideoSender}
    (hK : ∀ seg seg', K seg → Resent seg seg' → K seg') (h : Sendable K snd)
    (hsame : SameWindow snd.toSender snd'.toSender) : Sendable K snd' := by
  refine ⟨h.1.sameWindow hsame, fun b' hb' => ?_⟩
  obtain ⟨b, hb, -, hre⟩ := hsame.resent b' hb'
  exact hK _ _ (h.2 b hb) hre

/-- A sender that has just been created or reset has nothing to send. -/
theorem Sendable.fresh {snd : VideoSender} (h : snd.toSender = .new) : Sendable K snd := by
  have hempty : ∀ b, b ∉ snd.cache := by
    intro b hb
    rw [h] at hb
    exact List.not_mem_nil hb
  exact ⟨fun b hb => absurd hb (hempty b), fun b hb => absurd hb (hempty b)⟩

theorem Sendable.updateBase {snd snd' : VideoSender} (h : Sendable K snd)
    {basePacketId : BitVec 32} (hbase : snd.toSender.updateBase basePacketId = some snd'.toSender) :
    Sendable K snd' :=
  ⟨h.1.updateBase hbase, fun b hb => h.2 b ((Sender.mem_updateBase hbase).mp hb).1⟩

/-- `sim_send_packet` sends a segment of the cache, or nothing. -/
theorem talks_of_simSendPacket {now : Int} {packetId : BitVec 32} {snd : VideoSender}
    (hsize : 0 < s.sstrm.size) (hsnd : s.sender = some snd)
    (hK : ∀ seg seg', K seg → Resent seg seg' → K seg') (hsendable : Sendable K snd)
    (hP : ∀ seg, K seg → P (.seg seg)) (h : s.simSendPacket now packetId = some s') :
    ∃ snd', SameWindow snd.toSender snd'.toSender ∧
      Talks P { s with sender := some snd' } s' := by
  rw [simSendPacket, hsnd] at h
  dsimp only at h
  split at h
  · obtain rfl := Option.some.inj h
    refine ⟨snd, .refl _, ?_⟩
    rw [← hsnd]
    exact .refl hsize
  · rename_i seg snd' hpacket
    obtain ⟨⟨b, hb, hre⟩, hsame⟩ := VideoSender.packet_eq hpacket
    have hfits : SimBody.Fits (.seg seg) .seg := trivial
    refine ⟨snd', hsame, ?_⟩
    refine talks_of_sendMsg ?_ hfits ?_ ?_ h
    · exact hsize
    · exact (hsendable.1 b hb).resent hre
    · exact hP _ (hK _ _ (hsendable.2 b hb) hre)

/-- The calls of congestion control change only what is sent. -/
theorem talks_of_calls {now : Int} {calls : List CcCall} {snd : VideoSender}
    (hsize : 0 < s.sstrm.size) (hsnd : s.sender = some snd)
    (hK : ∀ seg seg', K seg → Resent seg seg' → K seg') (hsendable : Sendable K snd)
    (hP : ∀ seg, K seg → P (.seg seg)) (h : calls.foldlM (ccCall now) s = some s') :
    ∃ snd', SameWindow snd.toSender snd'.toSender ∧
      Talks P { s with sender := some snd' } s' := by
  induction calls generalizing s snd with
  | nil =>
      obtain rfl := Option.some.inj h
      refine ⟨snd, .refl _, ?_⟩
      rw [← hsnd]
      exact .refl hsize
  | cons call rest ih =>
      rw [List.foldlM_cons] at h
      obtain ⟨s₁, hfirst, hrest⟩ := Option.bind_eq_some_iff.mp h
      have hone : ∃ snd₁, SameWindow snd.toSender snd₁.toSender ∧
          Talks P { s with sender := some snd₁ } s₁ := by
        cases call with
        | sendPacket packetId => exact talks_of_simSendPacket hsize hsnd hK hsendable hP hfirst
        | changeBitrate bitrateKbps =>
            obtain rfl := Option.some.inj hfirst
            refine ⟨{ snd with limiter := snd.limiter.setMaxBitrate (bitrateKbps * 1000) },
              .refl _, ?_⟩
            rw [hsnd]
            exact .refl hsize
      obtain ⟨snd₁, hsame₁, htalks₁⟩ := hone
      obtain ⟨snd', hsame, htalks⟩ := ih htalks₁.size htalks₁.sender_eq
        (hsendable.sameWindow hK hsame₁) hrest
      refine ⟨snd', hsame₁.trans hsame, Talks.trans ?_ htalks⟩
      obtain ⟨sstrm, news, rfl, hsize₁, hnews⟩ := htalks₁
      exact ⟨sstrm, news, rfl, hsize₁, hnews⟩

/-- Without a sender there is nothing to call. -/
theorem calls_of_none {now : Int} {calls : List CcCall} (hsnd : s.sender = none)
    (h : calls.foldlM (ccCall now) s = some s') : s' = s := by
  induction calls with
  | nil => exact (Option.some.inj h).symm
  | cons call rest ih =>
      have hfirst : ccCall now s call = some s := by
        cases call with
        | sendPacket packetId => rw [ccCall, simSendPacket, hsnd]
        | changeBitrate bitrateKbps => rw [ccCall, hsnd, Option.map_none, ← hsnd]
      rw [List.foldlM_cons, hfirst] at h
      exact ih h

end SimSession

end SimTransport

end Razor
