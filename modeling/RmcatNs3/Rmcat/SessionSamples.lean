import RmcatNs3.Rmcat.RmcatSession

/-!
# What the controller of a session measures

Every record in the history of the controller stands for a packet that was sent, and its
one-way delay is the time until the receiver has read that very packet, whatever the network
has lost, repeated or reordered in both directions.
-/

namespace Rmcat

open SerialNumber Runs

/-! ## Calls of the controller -/

theorem dist_zero {w : Nat} (a : BitVec w) : dist 0 a = a.toNat :=
  congrArg BitVec.toNat (BitVec.sub_zero a)

section Calls

variable {F : Type}

/-- What feedback does to the history: it drops some records, and may file a packet that is in
transit under the number of the feedback. -/
theorem SenderBasedController.packetHistory_of_feedback {s s' : SenderBasedController F}
    {now rx : BitVec 64} {sequence : BitVec 32} {ecn : BitVec 8} {res : Bool}
    (h : s.processFeedback now sequence rx ecn = .ok (res, s')) :
    s'.packetHistory.Sublist s.packetHistory ∨
      ∃ packet ∈ s.inTransitPackets, packet.sequence = sequence ∧
        s'.packetHistory.Sublist (s.packetHistory ++ [filed packet now rx]) := by
  rcases processFeedback_ok h with ⟨k, rfl⟩ | ⟨k, packet, rest, hdrop, hseq, -, hrecord⟩
  · exact .inl (List.Sublist.refl _)
  · obtain ⟨il, history, sum, hcollect, rfl⟩ := recordFeedback_ok hrecord
    obtain ⟨j, -, -, rfl, -⟩ := collectHistory_ok hcollect
    have hmem : packet ∈ s.inTransitPackets :=
      List.mem_of_mem_drop (hdrop ▸ List.mem_cons_self)
    have hobsolete : (({ s with inTransitPackets := rest } :
        SenderBasedController F).dropObsolete packet).packetHistory.Sublist s.packetHistory := by
      unfold dropObsolete
      split
      · exact List.Sublist.refl _
      · split
        · exact List.nil_sublist _
        · exact List.Sublist.refl _
    refine .inr ⟨packet, hmem, hseq, ?_⟩
    exact (List.drop_sublist j _).trans (hobsolete.append (List.Sublist.refl _))

theorem NadaController.processSendPacket_ok {s s' : NadaController F} {tx : BitVec 64}
    {sequence size : BitVec 32} {res : Bool}
    (h : s.processSendPacket tx sequence size = .ok (res, s')) :
    ∃ base, s.base.processSendPacket tx sequence size = .ok (res, base) ∧
      s' = { s with base } := by
  obtain ⟨⟨res', base⟩, hbase, h⟩ := bind_eq_ok.mp h
  cases h
  exact ⟨base, hbase, rfl⟩

theorem SenderBasedController.packetHistory_of_send {s s' : SenderBasedController F}
    {tx : BitVec 64} {sequence size : BitVec 32} {res : Bool}
    (h : s.processSendPacket tx sequence size = .ok (res, s')) :
    s'.packetHistory = s.packetHistory := by
  unfold processSendPacket at h
  have hfirst : (if s.firstSend then
      { s with lastSequence := sequence - 1, firstSend := false } else s).packetHistory =
        s.packetHistory := by
    split <;> rfl
  generalize (if s.firstSend then
    { s with lastSequence := sequence - 1, firstSend := false } else s) = s₁ at hfirst h
  dsimp only at h
  split at h
  · cases h
    exact hfirst
  · split at h
    · cases h
    · cases h
      exact hfirst

variable [FloatOps F]

theorem NadaController.updateRate_ok {s s' : NadaController F} {now : BitVec 64}
    (h : s.updateRate now = .ok s') :
    s'.base = s.base ∧ (s'.lastTimeCalc = now ∨ s'.lastTimeCalc = s.lastTimeCalc ∧
      s'.lastTimeCalcValid = s.lastTimeCalcValid) := by
  unfold updateRate at h
  split at h
  · cases h
    exact ⟨rfl, .inl rfl⟩
  · obtain ⟨-, -, h⟩ := bind_eq_ok.mp h
    dsimp only at h
    split at h
    · obtain ⟨s₁, hmetrics, h⟩ := bind_eq_ok.mp h
      cases h
      exact ⟨(updateBw_base s₁ _).trans (updateMetrics_base hmetrics), .inl rfl⟩
    · cases h
      exact ⟨rfl, .inr ⟨rfl, rfl⟩⟩

theorem NadaController.processFeedback_ok {s s' : NadaController F} {now rx : BitVec 64}
    {sequence : BitVec 32} {ecn : BitVec 8} {res : Bool}
    (h : s.processFeedback now sequence rx ecn = .ok (res, s')) :
    s.base.processFeedback now sequence rx ecn = .ok (res, s'.base) ∧
      (s'.lastTimeCalc = now ∨ s'.lastTimeCalc = s.lastTimeCalc ∧
        s'.lastTimeCalcValid = s.lastTimeCalcValid) := by
  obtain ⟨⟨res', base⟩, hbase, h⟩ := bind_eq_ok.mp h
  obtain ⟨s₁, hrate, h⟩ := bind_eq_ok.mp h
  cases h
  obtain ⟨hsame, hcalc⟩ := updateRate_ok hrate
  exact ⟨by rw [hsame]; exact hbase, hcalc⟩

end Calls

namespace RmcatSession

variable {F : Type}

/-! ## What a session keeps -/

/-- The answer to the packet at a position that was read at a time. -/
def answer (s : RmcatSession F) (report : Nat × Nat) : InetSocketAddress × List UInt8 :=
  (s.host, (FeedbackHeader.mk s.flowId (BitVec.ofNat 32 report.1)
    (BitVec.ofNat 64 report.2)).serialize)

/-- A media packet that the sender has handed to the network. -/
def IsMedia (s : RmcatSession F) (packet : List UInt8) : Prop :=
  ∃ i p ts size payload, s.sent[i]? = some p ∧ p.txTimestamp.toNat ≤ ts ∧ ts ≤ s.now ∧
    packet = (MediaHeader.mk s.flowId (BitVec.ofNat 32 i) (BitVec.ofNat 64 ts) size).serialize ++
      payload

/-- A position whose packet was sent before the time that is reported. -/
def IsReport (s : RmcatSession F) (report : Nat × Nat) : Prop :=
  ∃ p, s.sent[report.1]? = some p ∧ p.txTimestamp.toNat ≤ report.2 ∧ report.2 ≤ s.now

/-- A record that has been filed for a report. -/
def Samples (s : RmcatSession F) (report : Nat × Nat) (r : PacketRecord) : Prop :=
  Stands 0 s.sent report.1 r ∧ r.owd = BitVec.ofNat 64 report.2 - r.txTimestamp ∧
    ∃ t, report.2 ≤ t ∧ t ≤ s.now ∧ r.rtt = BitVec.ofNat 64 t - r.txTimestamp

/-- A packet whose `SendOverSleep` is to come. -/
def IsOversleeping (s : RmcatSession F) (packet : BitVec 32 × BitVec 32) : Prop :=
  ∃ i p, s.sent[i]? = some p ∧ p.txTimestamp.toNat ≤ s.now ∧ packet.1 = BitVec.ofNat 32 i

/-- The joint invariant of both ends and the network. -/
structure Sound (s : RmcatSession F) (reports : List (Nat × Nat)) (k : Nat) (ids : List Nat) :
    Prop where
  now_lt : s.now < maxMilliSeconds
  history : HistoryInv 0 defaultHistoryLength 0 s.sent s.controller.base k ids
  sequence : s.sequence = BitVec.ofNat 32 s.sent.length
  sent : ∀ p ∈ s.sent, p.txTimestamp.toNat ≤ s.now
  oversleeping : ∀ packet ∈ s.oversleeping, s.IsOversleeping packet
  media : ∀ packet ∈ s.media, s.IsMedia packet
  socket : ∀ packet ∈ s.socket, s.IsMedia packet
  receiver : s.receiver.waiting = false → s.receiver.srcId = s.flowId ∧ s.receiver.src = s.host
  feedback : s.feedback = reports.map s.answer
  reported : ∀ report ∈ reports, s.IsReport report
  samples : ∀ r ∈ s.controller.base.packetHistory, ∃ report ∈ reports, s.Samples report r
  delays : ∀ gap ∈ s.delays, gap.toNat ≤ s.now

variable {s s' : RmcatSession F} {reports : List (Nat × Nat)} {k : Nat} {ids : List Nat}

theorem Sound.now_lt_two_pow (h : Sound s reports k ids) : s.now < 2 ^ 63 :=
  Nat.lt_of_lt_of_le h.now_lt (by decide)

theorem Sound.toNat_nowMs (h : Sound s reports k ids) : s.nowMs.toNat = s.now := by
  have hlt := h.now_lt_two_pow
  exact Nat.mod_eq_of_lt (by omega)

/-- What has been sent stays, and the clock does not go back. -/
structure Later (s s' : RmcatSession F) : Prop where
  flowId : s'.flowId = s.flowId
  host : s'.host = s.host
  now : s.now ≤ s'.now
  sent : s.sent <+: s'.sent

theorem Later.sent_eq (h : Later s s') {i : Nat} {p : Sent} (hp : s.sent[i]? = some p) :
    s'.sent[i]? = some p := by
  obtain ⟨more, hmore⟩ := h.sent
  rw [← hmore, List.getElem?_append_left (List.getElem?_eq_some_iff.mp hp).1, hp]

theorem IsMedia.later {packet : List UInt8} (hm : s.IsMedia packet) (h : Later s s') :
    s'.IsMedia packet := by
  obtain ⟨i, p, ts, size, payload, hp, htx, hts, rfl⟩ := hm
  exact ⟨i, p, ts, size, payload, h.sent_eq hp, htx, Nat.le_trans hts h.now, by rw [h.flowId]⟩

theorem IsReport.later {report : Nat × Nat} (hr : s.IsReport report) (h : Later s s') :
    s'.IsReport report := by
  obtain ⟨p, hp, htx, hrx⟩ := hr
  exact ⟨p, h.sent_eq hp, htx, Nat.le_trans hrx h.now⟩

theorem Samples.later {report : Nat × Nat} {r : PacketRecord} (hr : s.Samples report r)
    (h : Later s s') : s'.Samples report r := by
  obtain ⟨⟨p, hp, hstands⟩, howd, t, hrx, ht, hrtt⟩ := hr
  exact ⟨⟨p, h.sent_eq hp, hstands⟩, howd, t, hrx, Nat.le_trans ht h.now, hrtt⟩

theorem IsOversleeping.later {packet : BitVec 32 × BitVec 32} (hw : s.IsOversleeping packet)
    (h : Later s s') : s'.IsOversleeping packet := by
  obtain ⟨i, p, hp, htx, hseq⟩ := hw
  exact ⟨i, p, h.sent_eq hp, Nat.le_trans htx h.now, hseq⟩

/-! ## One turn -/

theorem Sound.advance (h : Sound s reports k ids) {t : Nat} (hle : s.now ≤ t)
    (hlt : t < maxMilliSeconds) : Sound { s with now := t } reports k ids := by
  have hlater : Later s { s with now := t } := ⟨rfl, rfl, hle, List.prefix_refl _⟩
  exact { h with
    now_lt := hlt
    sent := fun p hp => Nat.le_trans (h.sent p hp) hle
    oversleeping := fun packet hp => (h.oversleeping packet hp).later hlater
    media := fun packet hp => (h.media packet hp).later hlater
    socket := fun packet hp => (h.socket packet hp).later hlater
    reported := fun report hr => (h.reported report hr).later hlater
    samples := fun r hr => by
      obtain ⟨report, hmem, hsample⟩ := h.samples r hr
      exact ⟨report, hmem, hsample.later hlater⟩
    delays := fun gap hgap => Nat.le_trans (h.delays gap hgap) hle }

theorem enqueuePacket_ok {size : BitVec 32} (hcall : s.enqueuePacket size = .ok s') :
    s' = { s with
      rateShapingBuf := s.rateShapingBuf ++ [size]
      rateShapingBytes := s.rateShapingBytes + size } := by
  rw [RmcatSession.enqueuePacket] at hcall
  split at hcall
  · exact (Except.ok.inj hcall).symm
  · cases hcall

/-- A packet that is sent was the first one in the buffer. -/
theorem sendPacket_ok (hcall : s.sendPacket = .ok s') :
    ∃ size rateShapingBuf, s.rateShapingBuf = size :: rateShapingBuf ∧
      { s with
        rateShapingBuf
        rateShapingBytes := s.rateShapingBytes - size }.handOver size = .ok s' := by
  rw [RmcatSession.sendPacket] at hcall
  split at hcall
  · cases hcall
  · rename_i size rateShapingBuf hbuf
    split at hcall
    · cases hcall
    · split at hcall
      · cases hcall
      · split at hcall
        · cases hcall
        · exact ⟨size, rateShapingBuf, hbuf, hcall⟩

theorem Sound.handOver (h : Sound s reports k ids) {size : BitVec 32}
    (hcall : s.handOver size = .ok s') : ∃ k', Sound s' reports k' ids := by
  rw [RmcatSession.handOver] at hcall
  split at hcall
  · cases hcall
  · rename_i res controller hsend
    have hs' := Except.ok.inj hcall
    have hlater : Later s s' := by
      rw [← hs']
      exact ⟨rfl, rfl, Nat.le_refl _, List.prefix_append _ _⟩
    subst hs'
    obtain ⟨base, hbase, rfl⟩ := NadaController.processSendPacket_ok hsend
    have hnow := h.toNat_nowMs
    have htx : ∀ p ∈ s.sent, p.txTimestamp ≤ s.nowMs := by
      intro p hp
      rw [BitVec.le_def, hnow]
      exact h.sent p hp
    have hnumber : s.sequence = 0 + BitVec.ofNat 32 s.sent.length := by
      rw [h.sequence]
      exact (BitVec.zero_add _).symm
    rw [hnumber] at hbase
    obtain ⟨k', hhistory⟩ := h.history.send htx hbase
    have hkept := SenderBasedController.packetHistory_of_send hbase
    refine ⟨k', { h with
      history := hhistory
      sequence := ?_
      sent := ?_
      oversleeping := ?_
      media := fun packet hp => (h.media packet hp).later hlater
      socket := fun packet hp => (h.socket packet hp).later hlater
      reported := fun report hr => (h.reported report hr).later hlater
      samples := ?_ }⟩
    · show s.sequence + 1 = BitVec.ofNat 32 (s.sent ++ [_]).length
      rw [h.sequence, List.length_append, List.length_singleton, BitVec.ofNat_add]
      rfl
    · intro p hp
      rcases List.mem_append.mp hp with hp | hp
      · exact h.sent p hp
      · obtain rfl := List.mem_singleton.mp hp
        exact Nat.le_of_eq hnow
    · intro packet hp
      rcases List.mem_append.mp hp with hp | hp
      · exact (h.oversleeping packet hp).later hlater
      · obtain rfl := List.mem_singleton.mp hp
        refine ⟨s.sent.length, ⟨s.nowMs, size⟩, ?_, Nat.le_of_eq hnow, h.sequence⟩
        exact List.getElem?_concat_length
    · intro r hr
      obtain ⟨report, hmem, hsample⟩ := h.samples r (hkept ▸ hr)
      exact ⟨report, hmem, hsample.later hlater⟩

/-- Nothing is said of the buffer, from which a packet is taken. -/
theorem Sound.take (h : Sound s reports k ids) (size : BitVec 32)
    (rateShapingBuf : List (BitVec 32)) :
    Sound { s with
      rateShapingBuf
      rateShapingBytes := s.rateShapingBytes - size } reports k ids :=
  { h with }

theorem Sound.sendPacket (h : Sound s reports k ids) (hcall : s.sendPacket = .ok s') :
    ∃ k', Sound s' reports k' ids := by
  obtain ⟨size, rateShapingBuf, -, hover⟩ := sendPacket_ok hcall
  exact (h.take size rateShapingBuf).handOver hover

theorem Sound.sendOverSleep (h : Sound s reports k ids) (i : Nat) :
    Sound (s.sendOverSleep i) reports k ids := by
  rw [RmcatSession.sendOverSleep]
  split
  · exact h
  · rename_i seq size hget
    obtain ⟨j, p, hp, htx, rfl⟩ := h.oversleeping _ (List.mem_of_getElem? hget)
    refine { h with
      oversleeping := fun packet hmem => h.oversleeping packet (List.mem_of_mem_eraseIdx hmem)
      media := fun packet hmem => ?_ }
    rcases List.mem_append.mp hmem with hmem | hmem
    · exact h.media packet hmem
    · obtain rfl := List.mem_singleton.mp hmem
      exact ⟨j, p, s.now, size, _, hp, htx, Nat.le_refl _, rfl⟩

/-- What the receiver makes of a media packet of the session. -/
theorem Sound.takePacket (h : Sound s reports k ids) {packet : List UInt8}
    (hmedia : s.IsMedia packet) :
    ∃ i ts r, s.IsReport (i, s.now) ∧ ts ≤ s.now ∧
      r.waiting = false ∧ r.srcId = s.flowId ∧ r.src = s.host ∧
      s.receiver.takePacket s.nowMs s.host packet =
        .ok (r, (s.answer (i, s.now)).2, s.host, s.nowMs - BitVec.ofNat 64 ts) := by
  obtain ⟨i, p, ts, size, payload, hp, htx, hts, rfl⟩ := hmedia
  have haccept : ∃ r, s.receiver.accept s.host s.flowId = .ok r ∧ r.waiting = false ∧
      r.srcId = s.flowId ∧ r.src = s.host := by
    rw [RmcatReceiver.accept]
    cases hwaiting : s.receiver.waiting with
    | true => exact ⟨_, rfl, rfl, rfl, rfl⟩
    | false =>
        obtain ⟨hid, hsrc⟩ := h.receiver hwaiting
        rw [if_neg Bool.false_ne_true, if_neg (not_not.mpr hid), if_neg (not_not.mpr hsrc)]
        exact ⟨_, rfl, hwaiting, hid, hsrc⟩
  obtain ⟨r, hr, hwaiting, hid, hsrc⟩ := haccept
  refine ⟨i, ts, r, ⟨p, hp, Nat.le_trans htx hts, Nat.le_refl _⟩, hts, hwaiting, hid, hsrc, ?_⟩
  rw [RmcatReceiver.takePacket, MediaHeader.deserialize_serialize]
  simp only [bind, Except.bind, hr]
  rw [RmcatReceiver.sendFeedback, hid, hsrc]
  rfl

/-- A media packet arrives at the socket of the receiver. -/
theorem Sound.arrive (h : Sound s reports k ids) (i : Nat) :
    Sound { s with socket := s.socket ++ s.media[i]?.toList } reports k ids := by
  refine { h with socket := fun packet hp => ?_ }
  rcases List.mem_append.mp hp with hp | hp
  · exact h.socket packet hp
  · exact h.media packet (List.mem_of_getElem? (Option.mem_toList.mp hp))

/-- The receiver reads a packet, if it runs, and answers it. -/
theorem Sound.recvMedia (h : Sound s reports k ids) (hcall : s.recvMedia = .ok s') :
    ∃ more, (∀ report ∈ more, report.2 = s'.now) ∧ Sound s' (reports ++ more) k ids := by
  rw [RmcatSession.recvMedia] at hcall
  split at hcall
  · obtain rfl := Except.ok.inj hcall
    exact ⟨[], fun _ hmem => absurd hmem List.not_mem_nil, by rwa [List.append_nil]⟩
  · split at hcall
    · cases hcall
    · rename_i packet socket hsocket
      have hmedia : s.IsMedia packet := h.socket packet (hsocket ▸ List.mem_cons_self)
      obtain ⟨i, ts, r, hreport, hts, -, hid, hsrc, htake⟩ := h.takePacket hmedia
      rw [htake] at hcall
      obtain rfl := Except.ok.inj hcall
      refine ⟨[(i, s.now)], fun _ hmem => congrArg Prod.snd (List.mem_singleton.mp hmem), ?_⟩
      refine { h with
        socket := fun packet hp => h.socket packet (hsocket ▸ List.mem_cons_of_mem _ hp)
        receiver := fun _ => ⟨hid, hsrc⟩
        feedback := ?_
        reported := fun report hr => ?_
        samples := fun r hr => ?_
        delays := fun gap hgap => ?_ }
      · show s.feedback ++ [_] = _
        rw [h.feedback, List.map_append]
        rfl
      · rcases List.mem_append.mp hr with hr | hr
        · exact h.reported report hr
        · obtain rfl := List.mem_singleton.mp hr
          exact hreport
      · obtain ⟨report, hmem, hsample⟩ := h.samples r hr
        exact ⟨report, List.mem_append_left _ hmem, hsample⟩
      · rcases List.mem_append.mp hgap with hgap | hgap
        · exact h.delays gap hgap
        · obtain rfl := List.mem_singleton.mp hgap
          have hnow := h.toNat_nowMs
          have hlt := h.now_lt_two_pow
          show (s.nowMs - BitVec.ofNat 64 ts).toNat ≤ s.now
          have hts' : (BitVec.ofNat 64 ts).toNat = ts := Nat.mod_eq_of_lt (by omega)
          rw [BitVec.toNat_sub, hnow, hts']
          omega

/-- The position whose number feedback carries is that of its report. -/
theorem Sound.position_eq (h : Sound s reports k ids) (hfew : s.sent.length ≤ 2 ^ 32)
    {report : Nat × Nat} (hreport : report ∈ reports) {packet : PacketRecord}
    (hpacket : packet ∈ s.controller.base.inTransitPackets)
    (hseq : packet.sequence = BitVec.ofNat 32 report.1) :
    ∃ p, s.sent[report.1]? = some p ∧ packet = sentRecord 0 report.1 p ∧ k ≤ report.1 := by
  obtain ⟨p, hp, -, -⟩ := h.reported report hreport
  rw [h.history.queue] at hpacket
  obtain ⟨n, hn⟩ := List.mem_iff_getElem?.mp hpacket
  rw [List.getElem?_drop, getElem?_sentRecords, Option.map_eq_some_iff] at hn
  obtain ⟨q, hq, rfl⟩ := hn
  have hlt := (List.getElem?_eq_some_iff.mp hp).1
  have hlt' := (List.getElem?_eq_some_iff.mp hq).1
  have hsame : BitVec.ofNat 32 (k + n) = BitVec.ofNat 32 report.1 :=
    (BitVec.zero_add _).symm.trans hseq
  have hpos : k + n = report.1 := by
    have hnat := congrArg BitVec.toNat hsame
    rw [BitVec.toNat_ofNat, BitVec.toNat_ofNat, Nat.mod_eq_of_lt (by omega),
      Nat.mod_eq_of_lt (by omega)] at hnat
    exact hnat
  rw [hpos] at hq ⊢
  exact ⟨q, hq, rfl, by omega⟩

theorem deserialize_answer (s : RmcatSession F) (report : Nat × Nat) :
    FeedbackHeader.deserialize (s.answer report).2 =
      .ok (⟨s.flowId, BitVec.ofNat 32 report.1, BitVec.ofNat 64 report.2⟩, []) := by
  have hback := FeedbackHeader.deserialize_serialize
    ⟨s.flowId, BitVec.ofNat 32 report.1, BitVec.ofNat 64 report.2⟩ []
  rwa [List.append_nil] at hback

theorem Sound.toNat_report (h : Sound s reports k ids) {report : Nat × Nat}
    (hreport : report ∈ reports) : (BitVec.ofNat 64 report.2).toNat = report.2 := by
  obtain ⟨-, -, -, hrx⟩ := h.reported report hreport
  have hlt := h.now_lt_two_pow
  exact Nat.mod_eq_of_lt (by omega)

/-- The delay that a report gives to a packet in transit has not wrapped. -/
theorem Sound.delay_lt (h : Sound s reports k ids) (hfew : s.sent.length ≤ 2 ^ 32)
    {report : Nat × Nat} (hreport : report ∈ reports) :
    ∀ packet ∈ s.controller.base.inTransitPackets, packet.sequence = BitVec.ofNat 32 report.1 →
      dist 0 (BitVec.ofNat 64 report.2 - packet.txTimestamp) < 2 ^ 63 := by
  intro packet hpacket hseq
  obtain ⟨p, hp, rfl, -⟩ := h.position_eq hfew hreport hpacket hseq
  obtain ⟨q, hq, htx, hrx⟩ := h.reported report hreport
  obtain rfl := Option.some.inj (hp.symm.trans hq)
  have hlt := h.now_lt_two_pow
  have htime := h.toNat_report hreport
  show dist 0 (BitVec.ofNat 64 report.2 - p.txTimestamp) < 2 ^ 63
  rw [dist_zero, BitVec.toNat_sub, htime]
  omega

/-- The packet that a report files keeps its delay. -/
theorem samples_filed {report : Nat × Nat} {p : Sent}
    (hrx : report.2 ≤ s.now) (hp : s.sent[report.1]? = some p) :
    s.Samples report (SenderBasedController.filed (sentRecord 0 report.1 p) s.nowMs
      (BitVec.ofNat 64 report.2)) :=
  ⟨⟨p, hp, rfl, rfl, rfl⟩, rfl, s.now, hrx, Nat.le_refl _, rfl⟩

theorem sent_recvMedia (hcall : s.recvMedia = .ok s') : s'.sent = s.sent := by
  rw [RmcatSession.recvMedia] at hcall
  split at hcall
  · rw [Except.ok.inj hcall]
  · split at hcall
    · cases hcall
    · split at hcall
      · cases hcall
      · rw [← Except.ok.inj hcall]

theorem sent_sendOverSleep (i : Nat) : (s.sendOverSleep i).sent = s.sent := by
  rw [RmcatSession.sendOverSleep]
  split <;> rfl

variable [FloatOps F]

/-- Feedback of the session passes the assertions of the sender. -/
theorem Sound.recvFeedback_ok_iff (h : Sound s reports k ids) {report : Nat × Nat}
    (hreport : report ∈ reports) :
    s.recvFeedback (s.answer report).2 = .ok s' ↔
      ∃ res controller, s.controller.processFeedback s.nowMs (BitVec.ofNat 32 report.1)
        (BitVec.ofNat 64 report.2) 0 = .ok (res, controller) ∧ s' = { s with controller } := by
  obtain ⟨-, -, -, hrx⟩ := h.reported report hreport
  have hearly : ¬s.nowMs < BitVec.ofNat 64 report.2 := by
    rw [BitVec.lt_def, h.toNat_nowMs, h.toNat_report hreport]
    omega
  rw [RmcatSession.recvFeedback, deserialize_answer]
  dsimp only
  rw [if_neg (not_not.mpr rfl), if_neg hearly]
  split
  · rename_i e hcall
    constructor
    · intro hs
      cases hs
    · rintro ⟨res, controller, hcall', -⟩
      rw [hcall] at hcall'
      cases hcall'
  · rename_i res controller hcall
    constructor
    · intro hs
      exact ⟨res, controller, hcall, (Except.ok.inj hs).symm⟩
    · rintro ⟨res', controller', hcall', rfl⟩
      rw [hcall] at hcall'
      cases hcall'
      rfl

/-- **The feedback turn**: the controller files the packet that was answered, and none else. -/
theorem Sound.recvFeedback (h : Sound s reports k ids) (hfew : s.sent.length ≤ 2 ^ 32)
    {report : Nat × Nat} (hreport : report ∈ reports)
    (hcall : s.recvFeedback (s.answer report).2 = .ok s') :
    ∃ k' ids', Sound s' reports k' ids' := by
  obtain ⟨res, controller, hfeedback, rfl⟩ := (h.recvFeedback_ok_iff hreport).mp hcall
  obtain ⟨hbase, -⟩ := NadaController.processFeedback_ok hfeedback
  obtain ⟨-, -, -, hrx⟩ := h.reported report hreport
  obtain ⟨k', ids', hhistory⟩ :=
    h.history.feedback (by decide) (h.delay_lt hfew hreport) hbase
  refine ⟨k', ids', { h with history := hhistory, samples := fun r hr => ?_ }⟩
  rcases SenderBasedController.packetHistory_of_feedback hbase with
    hsub | ⟨packet, hpacket, hseq, hsub⟩
  · exact h.samples r (hsub.subset hr)
  · rcases List.mem_append.mp (hsub.subset hr) with hr | hr
    · exact h.samples r hr
    · obtain rfl := List.mem_singleton.mp hr
      obtain ⟨p, hp, rfl, -⟩ := h.position_eq hfew hreport hpacket hseq
      exact ⟨report, hreport, samples_filed hrx hp⟩

/-- What the network brings to the sender is an answer. -/
theorem Sound.turn_feedback (h : Sound s reports k ids) {i : Nat}
    (henabled : s.Enabled (.feedback i)) :
    ∃ report, reports[i]? = some report ∧
      s.turn (.feedback i) = { s with heard := i + 1 }.recvFeedback (s.answer report).2 := by
  obtain ⟨packet, hget, -⟩ := Option.map_eq_some_iff.mp henabled
  have hanswer := hget
  rw [h.feedback, List.getElem?_map, Option.map_eq_some_iff] at hanswer
  obtain ⟨report, hreport, rfl⟩ := hanswer
  exact ⟨report, hreport, by rw [turn, hget]⟩

/-! ## Runs -/

theorem Sound.start (flowId : BitVec 32) (host : InetSocketAddress) (minBw initBw maxBw : F) :
    Sound (RmcatSession.start flowId host minBw initBw maxBw) [] 0 [] where
  now_lt := show 0 < maxMilliSeconds by decide
  history := { HistoryInv.init (F := F) 0 defaultHistoryLength 0 with }
  sequence := rfl
  sent _ hp := absurd hp List.not_mem_nil
  oversleeping _ hp := absurd hp List.not_mem_nil
  media _ hp := absurd hp List.not_mem_nil
  socket _ hp := absurd hp List.not_mem_nil
  receiver hwaiting := Bool.noConfusion hwaiting
  feedback := rfl
  reported _ hp := absurd hp List.not_mem_nil
  samples _ hp := absurd hp List.not_mem_nil
  delays _ hp := absurd hp List.not_mem_nil

/-- **One turn** keeps both ends and the network sound. -/
theorem Sound.step (h : Sound s reports k ids) {e : Turn} (hfew : s.sent.length ≤ 2 ^ 32)
    (hstep : Step s e s') : ∃ more k' ids', (∀ report ∈ more, report.2 = s'.now) ∧
      Sound s' (reports ++ more) k' ids' := by
  obtain ⟨henabled, hturn⟩ := hstep
  have hnone : ∀ {k' ids'}, Sound s' reports k' ids' → ∃ more k' ids',
      (∀ report ∈ more, report.2 = s'.now) ∧ Sound s' (reports ++ more) k' ids' := by
    intro k' ids' hs'
    exact ⟨[], k', ids', fun _ hmem => absurd hmem List.not_mem_nil, by rwa [List.append_nil]⟩
  cases e with
  | advance t =>
      obtain rfl := Except.ok.inj hturn
      exact hnone (h.advance henabled.1 henabled.2)
  | startReceiver =>
      obtain rfl := Except.ok.inj hturn
      exact hnone { h with }
  | stopReceiver =>
      obtain rfl := Except.ok.inj hturn
      exact hnone { h with }
  | enqueuePacket size =>
      obtain rfl := enqueuePacket_ok hturn
      exact hnone { h with }
  | sendPacket =>
      obtain ⟨k', hs'⟩ := h.sendPacket hturn
      exact hnone hs'
  | sendOverSleep i =>
      obtain rfl := Except.ok.inj hturn
      exact hnone (h.sendOverSleep i)
  | media i =>
      obtain ⟨more, hmore, hs'⟩ := (h.arrive i).recvMedia hturn
      exact ⟨more, k, ids, hmore, hs'⟩
  | feedback i =>
      obtain ⟨report, hreport, hanswer⟩ := h.turn_feedback henabled
      rw [hanswer] at hturn
      have hheard : Sound { s with heard := i + 1 } reports k ids := { h with }
      obtain ⟨k', ids', hs'⟩ := hheard.recvFeedback hfew (List.mem_of_getElem? hreport) hturn
      exact hnone hs'

theorem sent_recvFeedback {packet : List UInt8} (hcall : s.recvFeedback packet = .ok s') :
    s'.sent = s.sent := by
  rw [RmcatSession.recvFeedback] at hcall
  split at hcall
  · cases hcall
  · split at hcall
    · cases hcall
    · split at hcall
      · cases hcall
      · split at hcall
        · cases hcall
        · rw [← Except.ok.inj hcall]

/-- What has been sent is not forgotten. -/
theorem sent_of_step {e : Turn} (hstep : Step s e s') : s.sent <+: s'.sent := by
  obtain ⟨-, hturn⟩ := hstep
  cases e with
  | advance t =>
      rw [← Except.ok.inj hturn]
  | startReceiver =>
      rw [← Except.ok.inj hturn]
  | stopReceiver =>
      rw [← Except.ok.inj hturn]
  | enqueuePacket size => rw [enqueuePacket_ok hturn]
  | sendPacket =>
      obtain ⟨size, rateShapingBuf, -, hover⟩ := sendPacket_ok hturn
      rw [RmcatSession.handOver] at hover
      split at hover
      · cases hover
      · rw [← Except.ok.inj hover]
        exact List.prefix_append _ _
  | sendOverSleep i =>
      rw [← Except.ok.inj hturn, sent_sendOverSleep]
  | media i => rw [sent_recvMedia hturn]
  | feedback i =>
      rw [turn] at hturn
      split at hturn
      · rw [← Except.ok.inj hturn]
      · rw [sent_recvFeedback hturn]

theorem sound_of_run {flowId : BitVec 32} {host : InetSocketAddress} {minBw initBw maxBw : F}
    {es : List Turn} (h : Run Step (start flowId host minBw initBw maxBw) es s)
    (hfew : s.sent.length ≤ 2 ^ 32) : ∃ reports k ids, Sound s reports k ids := by
  induction h with
  | nil => exact ⟨[], 0, [], Sound.start flowId host minBw initBw maxBw⟩
  | snoc _ hstep ih =>
      have hbefore := Nat.le_trans (sent_of_step hstep).length_le hfew
      obtain ⟨reports, k, ids, hsound⟩ := ih hbefore
      obtain ⟨more, k', ids', -, hsound'⟩ := hsound.step hbefore hstep
      exact ⟨reports ++ more, k', ids', hsound'⟩

/-- **The samples are of real packets**: in every run of a session over a network that loses,
repeats and reorders in both directions, with at most `2 ^ 32` packets, a record in the history
of the controller is a packet that was sent at that time with that size; its one-way delay is
the time until the receiver has answered that packet, is not above its round trip, and is not
below the base delay. No delay that the receiver reports has wrapped. -/
theorem samples_of_run {flowId : BitVec 32} {host : InetSocketAddress} {minBw initBw maxBw : F}
    {es : List Turn} (h : Run Step (start flowId host minBw initBw maxBw) es s)
    (hfew : s.sent.length ≤ 2 ^ 32) :
    (∀ r ∈ s.controller.base.packetHistory, ∃ i p rx, s.sent[i]? = some p ∧
      r.sequence = BitVec.ofNat 32 i ∧ r.txTimestamp = p.txTimestamp ∧ r.size = p.size ∧
      s.answer (i, rx) ∈ s.feedback ∧ p.txTimestamp.toNat + r.owd.toNat = rx ∧
      r.owd ≤ r.rtt ∧ p.txTimestamp.toNat + r.rtt.toNat ≤ s.now ∧
      s.controller.base.baseDelay ≤ r.owd) ∧
    ∀ gap ∈ s.delays, gap.toNat ≤ s.now := by
  obtain ⟨reports, k, ids, hsound⟩ := sound_of_run h hfew
  refine ⟨fun r hr => ?_, hsound.delays⟩
  obtain ⟨⟨i, rx⟩, hmem, ⟨p, hp, hseq, htx, hsize⟩, howd, t, hrx, ht, hrtt⟩ :=
    hsound.samples r hr
  obtain ⟨q, hq, hsent, -⟩ := hsound.reported _ hmem
  obtain rfl := Option.some.inj (hp.symm.trans hq)
  have hlt := hsound.now_lt_two_pow
  have htime : (BitVec.ofNat 64 rx).toNat = rx := hsound.toNat_report hmem
  have hlast : (BitVec.ofNat 64 t).toNat = t := Nat.mod_eq_of_lt (by omega)
  have howd' : r.owd.toNat = rx - p.txTimestamp.toNat := by
    rw [howd, htx, BitVec.toNat_sub, htime]
    omega
  have hrtt' : r.rtt.toNat = t - p.txTimestamp.toNat := by
    rw [hrtt, htx, BitVec.toNat_sub, hlast]
    omega
  have hbase := (hsound.history.owd r hr).1
  rw [dist_zero, dist_zero] at hbase
  refine ⟨i, p, rx, hp, hseq.trans (BitVec.zero_add _), htx, hsize, ?_, ?_, ?_, ?_, hbase⟩
  · rw [hsound.feedback]
    exact List.mem_map_of_mem hmem
  · omega
  · rw [BitVec.le_def, howd', hrtt']
    omega
  · omega

/-- A turn that can happen and does not fail. -/
def turn? (s : RmcatSession F) (e : Turn) : Option (RmcatSession F) :=
  if s.Enabled e then (s.turn e).toOption else none

theorem step_of_turn? {e : Turn} (h : s.turn? e = some s') : Step s e s' := by
  rw [turn?] at h
  split at h
  · rename_i henabled
    refine ⟨henabled, ?_⟩
    cases hturn : s.turn e with
    | error e => rw [hturn] at h; cases h
    | ok s₁ => rw [hturn] at h; rw [Option.some.inj h]
  · cases h

/-- The second packet overtakes the first one, which comes twice. -/
def overtaking : List Turn :=
  [.startReceiver, .enqueuePacket 100, .sendPacket, .advance 5, .enqueuePacket 200, .sendPacket,
    .sendOverSleep 1, .sendOverSleep 0, .advance 20, .media 0, .advance 30, .media 1, .media 1,
    .advance 45, .feedback 1, .feedback 0, .feedback 2]

/-- Both packets are in the history, with their own delays. -/
theorem samples_overtaking : ∃ s : RmcatSession Float32,
    Run Step (start 7 ⟨1, 2⟩ 150000.0 150000.0 3000000.0) overtaking s ∧
      s.controller.base.packetHistory.map (fun r => (r.sequence, r.owd)) = [(0, 30), (1, 15)] ∧
      ∀ r ∈ s.controller.base.packetHistory, ∃ i p rx, s.sent[i]? = some p ∧
        r.sequence = BitVec.ofNat 32 i ∧ s.answer (i, rx) ∈ s.feedback ∧
        p.txTimestamp.toNat + r.owd.toNat = rx := by
  have hlast : (overtaking.foldlM turn?
      (start (F := Float32) 7 ⟨1, 2⟩ 150000.0 150000.0 3000000.0)).map (fun s =>
        (s.controller.base.packetHistory.map (fun r => (r.sequence, r.owd)), s.sent.length)) =
      some ([(0, 30), (1, 15)], 2) := by
    decide +kernel
  obtain ⟨s, hs, hview⟩ := Option.map_eq_some_iff.mp hlast
  obtain ⟨hhistory, hlength⟩ := Prod.mk.inj hview
  have hrun : Run Step (start 7 ⟨1, 2⟩ 150000.0 150000.0 3000000.0) overtaking s :=
    (Run.of_foldlM hs).mono fun _ _ _ => step_of_turn?
  have hfew : s.sent.length ≤ 2 ^ 32 := by
    rw [show s.sent.length = 2 from hlength]
    decide
  refine ⟨s, hrun, hhistory, fun r hr => ?_⟩
  obtain ⟨i, p, rx, hp, hseq, -, -, hanswer, htime, -⟩ := (samples_of_run hrun hfew).1 r hr
  exact ⟨i, p, rx, hp, hseq, hanswer, htime⟩

end RmcatSession

end Rmcat
