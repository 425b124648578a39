import RmcatNs3.Rmcat.AbortFreedom
import RmcatNs3.Rmcat.SessionSamples
import RmcatNs3.Rmcat.ShapingRuns

/-!
# When a session goes on

The assertions of the sender, of the receiver and of the controller hold in every session whose
feedback arrives in the order in which it was sent, if at all, and whose shaping buffer keeps to
its limit, which nothing enforces. The media packets may arrive in any order, and more than
once.
-/

namespace Rmcat

open SerialNumber Runs

/-! ## Records in order -/

section Records

variable {F : Type} {len : BitVec 64} {sent : List Sent} {c : SenderBasedController F} {k : Nat}
  {ids : List Nat}

theorem toNat_number {n : Nat} (h : n < 2 ^ 32) : (0 + BitVec.ofNat 32 n).toNat = n := by
  rw [show (0 : BitVec 32) + BitVec.ofNat 32 n = BitVec.ofNat 32 n from BitVec.zero_add _]
  exact Nat.mod_eq_of_lt h

/-- The records are not more than the numbers that they span. -/
theorem HistoryInv.length_le_span (hI : HistoryInv 0 len 0 sent c k ids)
    (hfew : sent.length ≤ 2 ^ 31) {front back : PacketRecord}
    (hf : c.packetHistory.head? = some front) (hb : c.packetHistory.getLast? = some back) :
    c.packetHistory.length ≤ (1 + back.sequence - front.sequence).toNat := by
  obtain ⟨i, j, hi, hj, hij, ⟨-, -, hseqi, -⟩, pj, hpj, hseqj, -⟩ := hI.ends hf hb
  have hcard := card_lostPositions hI.ids_sorted hi hj
  rw [hI.history.length_eq] at hcard
  have hlt := (List.getElem?_eq_some_iff.mp hpj).1
  have hfirst : front.sequence.toNat = i := by
    rw [hseqi, toNat_number (by omega)]
  have hlast : back.sequence.toNat = j := by
    rw [hseqj, toNat_number (by omega)]
  have hone : (1 : BitVec 32).toNat = 1 := rfl
  rw [BitVec.toNat_sub, BitVec.toNat_add, hfirst, hlast, hone]
  omega

/-- A history whose records were received in order can be measured. -/
theorem HistoryInv.measurable (hI : HistoryInv 0 len 0 sent c k ids)
    (hfew : sent.length ≤ 2 ^ 31)
    (hordered : c.packetHistory.Pairwise fun r r' => r.rxTimestamp ≤ r'.rxTimestamp)
    (hearly : ∀ r ∈ c.packetHistory, r.rxTimestamp.toNat < maxMilliSeconds) :
    Measurable c.packetHistory := by
  intro _ front hf back hb
  refine ⟨?_, hI.length_le_span hfew hf hb⟩
  have hle : front.rxTimestamp ≤ back.rxTimestamp := by
    obtain ⟨before, hbefore⟩ := List.getLast?_eq_some_iff.mp hb
    rw [hbefore] at hf hordered
    cases before with
    | nil =>
        obtain rfl := Option.some.inj hf
        exact BitVec.le_refl _
    | cons first rest =>
        obtain rfl := Option.some.inj hf
        exact (List.pairwise_append.mp hordered).2.2 _ List.mem_cons_self _
          (List.mem_singleton_self _)
  have hmax : maxMilliSeconds < 2 ^ 44 := by decide
  have hback := hearly back (List.mem_of_getLast? hb)
  have hone : (1 : BitVec 64).toNat = 1 := rfl
  rw [lessThan, decide_eq_true_iff, BitVec.lt_def, BitVec.toNat_sub, BitVec.toNat_sub,
    BitVec.toNat_add, hone]
  rw [BitVec.le_def] at hle
  omega

/-- The packet that feedback matches is in transit under its number. -/
theorem SenderBasedController.mem_of_matched {sequence : BitVec 32} {packet : PacketRecord}
    (h : packet ∈ c.matched sequence) :
    packet ∈ c.inTransitPackets ∧ packet.sequence = sequence ∧
      c.decreasingTimestamp packet = false := by
  rw [Option.mem_def, matched, Option.filter_eq_some_iff] at h
  obtain ⟨hreached, hfilter⟩ := h
  rw [Bool.and_eq_true, decide_eq_true_iff, Bool.not_eq_true'] at hfilter
  exact ⟨List.mem_of_find?_eq_some (reached_eq_some hreached).2, hfilter.1, hfilter.2⟩

/-- The records that stay and a packet that was sent after them carry less than `2 ^ 32` bytes. -/
theorem HistoryInv.bytes_lt (hI : HistoryInv 0 len 0 sent c k ids)
    (hwin : WindowBounded 1001 sent) {m : Nat} {p : Sent} (hp : sent[m]? = some p) (hm : k ≤ m)
    (hwindow : len.toNat ≤ 500)
    (hdec : c.decreasingTimestamp (sentRecord 0 m p) = false) :
    totalSize (c.dropObsolete (sentRecord 0 m p)).packetHistory + p.size.toNat < 2 ^ 32 := by
  have hsingle : sentBytes sent m = p.size.toNat := by
    rw [sentBytes, hp]
    rfl
  cases hhistory : (c.dropObsolete (sentRecord 0 m p)).packetHistory with
  | nil =>
      rw [totalSize_nil]
      have := p.size.isLt
      omega
  | cons front rest =>
      obtain ⟨newest, hnewest⟩ := Option.isSome_iff_exists.mp
        (List.getLast?_isSome.mpr (hhistory ▸ List.cons_ne_nil front rest))
      have hclose := dist_le_of_dropObsolete hdec newest hnewest
      obtain ⟨hlast, -⟩ := not_obsolete hnewest
      have hsame : (c.dropObsolete (sentRecord 0 m p)).packetHistory = c.packetHistory := by
        unfold SenderBasedController.dropObsolete at hhistory ⊢
        split at hhistory
        · rfl
        · split at hhistory
          · cases hhistory
          · rw [if_neg ‹_›]
      rw [← hhistory, hsame]
      have hhead : c.packetHistory.head? = some front := by
        rw [← hsame, hhistory]
        rfl
      obtain ⟨i, j, hi, hj, hij, ⟨pi, hpi, -, htx, -⟩, pj, hpj, -, htxj, -⟩ := hI.ends hhead hlast
      have hlt := hI.ids_lt j (List.mem_of_getLast? hj)
      have hspan := hI.window newest hlast front (List.mem_of_head? hhead)
      have hsorted : pj.txTimestamp ≤ p.txTimestamp := by
        obtain ⟨hj', rfl⟩ := List.getElem?_eq_some_iff.mp hpj
        obtain ⟨hm', rfl⟩ := List.getElem?_eq_some_iff.mp hp
        exact List.pairwise_iff_getElem.mp hI.sorted j m hj' hm' (by omega)
      have hnear : p.txTimestamp.toNat - pj.txTimestamp.toNat ≤ 500 := by
        have hdist : (p.txTimestamp - newest.txTimestamp).toNat ≤ 500 := hclose
        rw [htxj, BitVec.toNat_sub] at hdist
        rw [BitVec.le_def] at hsorted
        omega
      obtain ⟨-, hbytes⟩ := hwin i m pi p (by omega) hpi hp (by
        rw [← htx]
        rw [htxj] at hspan
        have hlen : (1001 : BitVec 64).toNat = 1001 := rfl
        omega)
      refine Nat.lt_of_le_of_lt ?_ hbytes
      have hmem : m ∉ ids.toFinset := by
        rw [List.mem_toFinset]
        intro hmem
        have := hI.ids_lt m hmem
        omega
      have hsubset : insert m ids.toFinset ⊆ Finset.Icc i m := by
        intro n hn
        rw [Finset.mem_insert, List.mem_toFinset] at hn
        rw [Finset.mem_Icc]
        rcases hn with rfl | hn
        · omega
        · have hbounds := mem_bounds hI.ids_sorted hi hj hn
          omega
      calc totalSize c.packetHistory + p.size.toNat
          = ∑ n ∈ insert m ids.toFinset, sentBytes sent n := by
            rw [Finset.sum_insert hmem, List.sum_toFinset _ (nodup_of_increasing hI.ids_sorted),
              hsingle, sum_size_eq hI.history, Nat.add_comm]
        _ ≤ ∑ n ∈ Finset.Icc i m, sentBytes sent n := Finset.sum_le_sum_of_subset hsubset

end Records

theorem sentBytes_of_prefix {sent sent' : List Sent} (h : sent <+: sent') {n : Nat}
    (hn : n < sent.length) : sentBytes sent n = sentBytes sent' n := by
  obtain ⟨more, rfl⟩ := h
  rw [sentBytes, sentBytes, List.getElem?_append_left hn]

theorem WindowBounded.of_prefix {len : BitVec 64} {sent sent' : List Sent}
    (h : WindowBounded len sent') (hfront : sent <+: sent') : WindowBounded len sent := by
  intro i j p q hij hp hq hlt
  have hj := (List.getElem?_eq_some_iff.mp hq).1
  have hsame : ∀ n < sent.length, sent'[n]? = sent[n]? := by
    obtain ⟨more, rfl⟩ := hfront
    exact fun n hn => List.getElem?_append_left hn
  obtain ⟨hnum, hbytes⟩ := h i j p q hij (by rw [hsame i (by omega), hp])
    (by rw [hsame j hj, hq]) hlt
  refine ⟨hnum, ?_⟩
  rwa [Finset.sum_congr rfl fun n hn => sentBytes_of_prefix hfront (by
    rw [Finset.mem_Icc] at hn
    omega)]

namespace RmcatSession

variable {F : Type} {s s' : RmcatSession F} {reports : List (Nat × Nat)} {k : Nat}
  {ids : List Nat}

/-! ## What the assertions need -/

/-- Feedback that comes in the order in which it was sent. -/
def InTurn (s : RmcatSession F) : Turn → Prop
  | .feedback i => s.heard ≤ i
  | .advance _ | .startReceiver | .stopReceiver | .enqueuePacket _ | .sendPacket
  | .sendOverSleep _ | .media _ => True

instance (s : RmcatSession F) (e : Turn) : Decidable (s.InTurn e) :=
  match e with
  | .feedback _ => inferInstanceAs (Decidable (_ ≤ _))
  | .advance _ | .startReceiver | .stopReceiver | .enqueuePacket _ | .sendPacket
  | .sendOverSleep _ | .media _ => inferInstanceAs (Decidable True)

/-- At most `2 ^ 31` packets, and less than `2 ^ 32` bytes in a second. -/
structure Modest (s : RmcatSession F) : Prop where
  few : s.sent.length ≤ 2 ^ 31
  rate : WindowBounded 1001 s.sent

theorem Modest.of_prefix (h : s'.Modest) (hfront : s.sent <+: s'.sent) : s.Modest :=
  ⟨Nat.le_trans hfront.length_le h.few, h.rate.of_prefix hfront⟩

/-- What the assertions rely on besides: the buffer is counted and holds packets of the codec,
and the records were received in order, and before all that is still to be heard. -/
structure Orderly (s : RmcatSession F) (reports : List (Nat × Nat)) : Prop where
  bytes : s.rateShapingBytes = BitVec.ofNat 32 (RmcatSender.bytesOf s.rateShapingBuf)
  sizes : ∀ size ∈ s.rateShapingBuf, 0 < size.toNat ∧ size.toNat ≤ defaultPacketSize
  calls : CallInv s.controller.base
  calc_le : s.controller.lastTimeCalcValid = true → s.controller.lastTimeCalc.toNat ≤ s.now
  heard : reports.Pairwise fun report report' => report.2 ≤ report'.2
  ordered : s.controller.base.packetHistory.Pairwise fun r r' => r.rxTimestamp ≤ r'.rxTimestamp
  later : ∀ r ∈ s.controller.base.packetHistory, ∀ report ∈ reports.drop s.heard,
    r.rxTimestamp.toNat ≤ report.2

theorem rxTimestamp_of_samples {report : Nat × Nat} {r : PacketRecord}
    (h : s.Samples report r) : r.rxTimestamp = BitVec.ofNat 64 report.2 := by
  rw [PacketRecord.rxTimestamp, h.2.1, BitVec.add_comm, BitVec.sub_add_cancel]

/-- No record was received after the present. -/
theorem Sound.rxTimestamp_le (h : Sound s reports k ids) {r : PacketRecord}
    (hr : r ∈ s.controller.base.packetHistory) : r.rxTimestamp.toNat ≤ s.now := by
  obtain ⟨report, hreport, hsample⟩ := h.samples r hr
  obtain ⟨-, -, -, hrx⟩ := h.reported report hreport
  rw [rxTimestamp_of_samples hsample, h.toNat_report hreport]
  exact hrx

/-- More reports of the present keep the order. -/
theorem Orderly.append (ho : Orderly s reports) {more : List (Nat × Nat)}
    (h : Sound s (reports ++ more) k ids) (hmore : ∀ report ∈ more, report.2 = s.now) :
    Orderly s (reports ++ more) := by
  refine { ho with heard := ?_, later := fun r hr report hmem => ?_ }
  · refine List.pairwise_append.mpr ⟨ho.heard, ?_, fun report hreport report' hreport' => ?_⟩
    · refine List.pairwise_of_forall_mem_list fun report hreport report' hreport' => ?_
      exact Nat.le_of_eq ((hmore report hreport).trans (hmore report' hreport').symm)
    · obtain ⟨-, -, -, hrx⟩ := h.reported report (List.mem_append_left _ hreport)
      rw [hmore report' hreport']
      exact hrx
  · rw [List.drop_append] at hmem
    rcases List.mem_append.mp hmem with hmem | hmem
    · exact ho.later r hr report hmem
    · rw [hmore report (List.mem_of_mem_drop hmem)]
      exact h.rxTimestamp_le hr

/-- Feedback of the session is safe for the controllers. -/
theorem Sound.feedbackSafe (h : Sound s reports k ids) (hmodest : s.Modest)
    {report : Nat × Nat} (hreport : report ∈ reports) :
    s.controller.base.FeedbackSafe (BitVec.ofNat 32 report.1) := by
  have hfew := hmodest.few
  have hfew' : s.sent.length ≤ 2 ^ 32 := by omega
  obtain ⟨q, hq, -, -⟩ := h.reported report hreport
  have hposition := (List.getElem?_eq_some_iff.mp hq).1
  have hnumber : (BitVec.ofNat 32 report.1).toNat = report.1 := Nat.mod_eq_of_lt (by omega)
  refine ⟨fun packet hpacket heq => ?_, fun packet hpacket newest hnewest => ?_,
    fun packet hpacket => ?_⟩
  · -- less than half of the circle is in use
    have hmem := List.mem_of_find?_eq_some (reached_eq_some hpacket).2
    rw [h.history.queue] at hmem
    obtain ⟨n, hn⟩ := List.mem_iff_getElem?.mp (List.mem_of_mem_drop hmem)
    rw [getElem?_sentRecords, Option.map_eq_some_iff] at hn
    obtain ⟨p, hp, rfl⟩ := hn
    have hn := (List.getElem?_eq_some_iff.mp hp).1
    have hnat := congrArg BitVec.toNat heq
    rw [sentRecord, toNat_number (by omega), BitVec.toNat_add, hnumber] at hnat
    have hhalf : (0x80000000 : BitVec 32).toNat = 2 ^ 31 := rfl
    omega
  · obtain ⟨hmem, hseq, -⟩ := SenderBasedController.mem_of_matched hpacket
    obtain ⟨p, -, rfl, hk⟩ := h.position_eq hfew' hreport hmem hseq
    obtain ⟨hlast, -⟩ := not_obsolete hnewest
    obtain ⟨n, hn, -, -, hnewestseq, -⟩ := Aligned.getLast?_right h.history.history hlast
    have hlt := h.history.ids_lt n (List.mem_of_getLast? hn)
    have hone : (1 : BitVec 32).toNat = 1 := rfl
    rw [BitVec.le_def, BitVec.toNat_add, hnewestseq, toNat_number (by omega), hnumber, hone]
    omega
  · obtain ⟨hmem, hseq, hdec⟩ := SenderBasedController.mem_of_matched hpacket
    obtain ⟨p, hp, rfl, hk⟩ := h.position_eq hfew' hreport hmem hseq
    exact h.history.bytes_lt hmodest.rate hp hk (by decide) hdec

/-- After feedback that comes in turn the records are in order, and before what is to come. -/
theorem Orderly.history_feedback (ho : Orderly s reports) (h : Sound s reports k ids)
    (hfew : s.sent.length ≤ 2 ^ 32) {i : Nat} {report : Nat × Nat}
    (hget : reports[i]? = some report) (hturn : s.heard ≤ i) {res : Bool}
    {base : SenderBasedController F}
    (hcall : s.controller.base.processFeedback s.nowMs (BitVec.ofNat 32 report.1)
      (BitVec.ofNat 64 report.2) 0 = .ok (res, base)) :
    base.packetHistory.Pairwise (fun r r' => r.rxTimestamp ≤ r'.rxTimestamp) ∧
      ∀ r ∈ base.packetHistory, r.rxTimestamp.toNat ≤ report.2 := by
  have hreport := List.mem_of_getElem? hget
  have hheard : report ∈ reports.drop s.heard := by
    obtain ⟨hi, rfl⟩ := List.getElem?_eq_some_iff.mp hget
    exact List.mem_drop_iff_getElem.mpr ⟨i - s.heard, by omega, by simp [Nat.add_sub_cancel' hturn]⟩
  have hlater : ∀ r ∈ s.controller.base.packetHistory, r.rxTimestamp.toNat ≤ report.2 :=
    fun r hr => ho.later r hr report hheard
  have htime := h.toNat_report hreport
  rcases SenderBasedController.packetHistory_of_feedback hcall with
    hsub | ⟨packet, hpacket, hseq, hsub⟩
  · exact ⟨ho.ordered.sublist hsub, fun r hr => hlater r (hsub.subset hr)⟩
  · obtain ⟨-, -, -, hrx⟩ := h.reported report hreport
    obtain ⟨p, hp, rfl, -⟩ := h.position_eq hfew hreport hpacket hseq
    have hfiled := rxTimestamp_of_samples (samples_filed (s := s) hrx hp)
    refine ⟨List.Pairwise.sublist hsub ?_, fun r hr => ?_⟩
    · refine List.pairwise_append.mpr ⟨ho.ordered, List.pairwise_singleton _ _, ?_⟩
      intro r hr r' hr'
      obtain rfl := List.mem_singleton.mp hr'
      rw [hfiled, BitVec.le_def, htime]
      exact hlater r hr
    · rcases List.mem_append.mp (hsub.subset hr) with hr | hr
      · exact hlater r hr
      · obtain rfl := List.mem_singleton.mp hr
        rw [hfiled, htime]

/-- Feedback that comes in turn is safe for NADA. -/
theorem Orderly.nadaSafe (ho : Orderly s reports) (h : Sound s reports k ids)
    (hmodest : s.Modest) {i : Nat} {report : Nat × Nat} (hget : reports[i]? = some report)
    (hturn : s.heard ≤ i) :
    s.controller.FeedbackSafe s.nowMs (BitVec.ofNat 32 report.1) (BitVec.ofNat 64 report.2) := by
  have hreport := List.mem_of_getElem? hget
  have hsafe := h.feedbackSafe hmodest hreport
  have hfew : s.sent.length ≤ 2 ^ 32 := Nat.le_trans hmodest.few (by decide)
  refine ⟨hsafe, fun hvalid => ?_, fun _ _ => ?_⟩
  · have hcalc := ho.calc_le hvalid
    have hnow := h.toNat_nowMs
    have hlt := h.now_lt
    have hmax : maxMilliSeconds < 2 ^ 44 := by decide
    have hone : (1 : BitVec 64).toNat = 1 := rfl
    rw [lessThan, decide_eq_true_iff, BitVec.lt_def, BitVec.toNat_sub, BitVec.toNat_sub,
      BitVec.toNat_add, hone, hnow]
    omega
  · obtain ⟨res, base, hcall, -, hhistory⟩ :=
      ho.calls.feedback s.nowMs (BitVec.ofNat 64 report.2) 0 hsafe
    obtain ⟨k', ids', hkept⟩ := h.history.feedback (by decide) (h.delay_lt hfew hreport) hcall
    obtain ⟨hordered, hlater⟩ := ho.history_feedback h hfew hget hturn hcall
    obtain ⟨-, -, -, hrx⟩ := h.reported report hreport
    rw [← hhistory]
    exact hkept.measurable hmodest.few hordered fun r hr =>
      Nat.lt_of_le_of_lt (Nat.le_trans (hlater r hr) hrx) h.now_lt

/-! ## One turn -/

/-- The next number is that which the controller expects. -/
theorem Sound.sendSafe (h : Sound s reports k ids) :
    s.controller.base.SendSafe s.sequence := by
  by_cases hnone : s.sent = []
  · exact .inl (h.history.first.mpr hnone)
  · refine .inr (.inr ?_)
    rw [h.history.last hnone, h.sequence]
    exact (BitVec.zero_add _).symm

/-- **A media packet arrives** without a failure. -/
theorem Sound.recvMedia_ok (h : Sound s reports k ids) (hsocket : s.socket ≠ []) :
    ∃ s', s.recvMedia = .ok s' := by
  rw [RmcatSession.recvMedia]
  split
  · exact ⟨s, rfl⟩
  · obtain ⟨packet, rest, hpackets⟩ := List.exists_cons_of_ne_nil hsocket
    have hmedia : s.IsMedia packet := h.socket packet (hpackets ▸ List.mem_cons_self)
    obtain ⟨i, ts, r, -, -, -, -, -, htake⟩ := h.takePacket hmedia
    rw [hpackets]
    dsimp only
    rw [htake]
    exact ⟨_, rfl⟩

/-- The sender is not part of the arrival of a media packet. -/
theorem controller_recvMedia (hcall : s.recvMedia = .ok s') :
    s'.controller = s.controller ∧ s'.now = s.now ∧ s'.heard = s.heard ∧
      s'.rateShapingBuf = s.rateShapingBuf ∧ s'.rateShapingBytes = s.rateShapingBytes := by
  rw [RmcatSession.recvMedia] at hcall
  split at hcall
  · rw [Except.ok.inj hcall]
    exact ⟨rfl, rfl, rfl, rfl, rfl⟩
  · split at hcall
    · cases hcall
    · split at hcall
      · cases hcall
      · rw [← Except.ok.inj hcall]
        exact ⟨rfl, rfl, rfl, rfl, rfl⟩

/-- The controller takes a packet without a failure. -/
theorem Orderly.handOver (ho : Orderly s reports) (h : Sound s reports k ids)
    (size : BitVec 32) : ∃ s', s.handOver size = .ok s' ∧ Orderly s' reports := by
  obtain ⟨res, base, hsend, hcalls⟩ := ho.calls.send s.nowMs size h.sendSafe
  have hkept := SenderBasedController.packetHistory_of_send hsend
  have hcall : s.controller.processSendPacket s.nowMs s.sequence size =
      .ok (res, { s.controller with base }) := by
    rw [NadaController.processSendPacket, hsend]
    rfl
  have hstep : s.handOver size = .ok { s with
      oversleeping := s.oversleeping ++ [(s.sequence, size)]
      controller := { s.controller with base }
      sequence := s.sequence + 1
      sent := s.sent ++ [⟨s.nowMs, size⟩] } := by
    rw [RmcatSession.handOver, hcall]
  refine ⟨_, hstep, { ho with calls := hcalls, ordered := ?_, later := fun r hr => ?_ }⟩
  · show base.packetHistory.Pairwise _
    rw [hkept]
    exact ho.ordered
  · exact ho.later r (hkept ▸ hr)

theorem Orderly.enqueuePacket (ho : Orderly s reports) {size : BitVec 32}
    (hsize : 0 < size.toNat ∧ size.toNat ≤ defaultPacketSize) :
    ∃ s', s.enqueuePacket size = .ok s' ∧ Orderly s' reports := by
  refine ⟨_, if_pos hsize, { ho with bytes := ?_, sizes := fun size' hmem => ?_ }⟩
  · show s.rateShapingBytes + size = _
    rw [ho.bytes, RmcatSender.bytesOf_append, BitVec.ofNat_add, BitVec.ofNat_toNat,
      BitVec.setWidth_eq]
  · rcases List.mem_append.mp hmem with hmem | hmem
    · exact ho.sizes size' hmem
    · obtain rfl := List.mem_singleton.mp hmem
      exact hsize

/-- The first packet is taken out of the buffer. -/
theorem Orderly.take (ho : Orderly s reports) {size : BitVec 32}
    {rateShapingBuf : List (BitVec 32)} (hbuf : s.rateShapingBuf = size :: rateShapingBuf) :
    Orderly { s with
      rateShapingBuf
      rateShapingBytes := s.rateShapingBytes - size } reports := by
  refine { ho with bytes := ?_, sizes := fun size' hmem => ?_ }
  · show s.rateShapingBytes - size = _
    rw [ho.bytes, hbuf, RmcatSender.bytesOf_cons, BitVec.ofNat_add, BitVec.ofNat_toNat,
      BitVec.setWidth_eq, BitVec.add_comm, BitVec.add_sub_cancel]
  · exact ho.sizes size' (hbuf ▸ List.mem_cons_of_mem _ hmem)

theorem Orderly.sendPacket (ho : Orderly s reports) (h : Sound s reports k ids)
    (hcall : s.sendPacket = .ok s') : Orderly s' reports := by
  obtain ⟨size, rateShapingBuf, hbuf, hover⟩ := sendPacket_ok hcall
  obtain ⟨s₁, hover', ho'⟩ := (ho.take hbuf).handOver (h.take size rateShapingBuf) size
  obtain rfl := Except.ok.inj (hover.symm.trans hover')
  exact ho'

/-- **A packet is sent** without a failure while the buffer keeps to its limit. -/
theorem Orderly.sendPacket_ok (ho : Orderly s reports) (h : Sound s reports k ids)
    (hne : s.rateShapingBuf ≠ [])
    (hroom : RmcatSender.bytesOf s.rateShapingBuf < maxQueueSizeSanity) :
    ∃ s', s.sendPacket = .ok s' := by
  obtain ⟨size, rateShapingBuf, hbuf⟩ := List.exists_cons_of_ne_nil hne
  obtain ⟨s₁, hover, -⟩ := (ho.take hbuf).handOver (h.take size rateShapingBuf) size
  -- below the limit the counter has not wrapped
  have hlimit : maxQueueSizeSanity < 2 ^ 32 := by decide
  have hcount : s.rateShapingBytes.toNat = RmcatSender.bytesOf s.rateShapingBuf := by
    rw [ho.bytes, BitVec.toNat_ofNat, Nat.mod_eq_of_lt (by omega)]
  have hfirst : ¬s.rateShapingBytes < size := by
    rw [BitVec.lt_def, hcount, hbuf, RmcatSender.bytesOf_cons]
    omega
  have hsize := ho.sizes size (hbuf ▸ List.mem_cons_self)
  refine ⟨s₁, ?_⟩
  rw [RmcatSession.sendPacket, hbuf]
  dsimp only
  rw [if_neg (by omega), if_neg (not_not.mpr hsize), if_neg hfirst]
  exact hover

variable [FloatOps F]

/-- **Feedback that comes in turn** is taken without a failure. -/
theorem Orderly.recvFeedback (ho : Orderly s reports) (h : Sound s reports k ids)
    (hmodest : s.Modest) {i : Nat} {report : Nat × Nat} (hget : reports[i]? = some report)
    (hturn : s.heard ≤ i) :
    ∃ s', { s with heard := i + 1 }.recvFeedback (s.answer report).2 = .ok s' ∧
      Orderly s' reports := by
  have hreport := List.mem_of_getElem? hget
  have hfew : s.sent.length ≤ 2 ^ 32 := Nat.le_trans hmodest.few (by decide)
  obtain ⟨res, controller, hcall, hcalls⟩ := CallInv.nadaStep
    (c := .feedback s.nowMs (BitVec.ofNat 32 report.1) (BitVec.ofNat 64 report.2) 0)
    ho.calls (ho.nadaSafe h hmodest hget hturn)
  have hheard : Sound { s with heard := i + 1 } reports k ids := { h with }
  refine ⟨_, (hheard.recvFeedback_ok_iff hreport).mpr ⟨res, controller, hcall, rfl⟩, ?_⟩
  obtain ⟨hbase, hcalc⟩ := NadaController.processFeedback_ok hcall
  obtain ⟨hordered, hlater⟩ := ho.history_feedback h hfew hget hturn hbase
  refine { ho with
    calls := hcalls
    calc_le := fun hvalid => ?_
    ordered := hordered
    later := fun r hr report' hreport' => ?_ }
  · rcases hcalc with hnow | ⟨hsame, hsame'⟩
    · rw [hnow]
      exact Nat.le_of_eq h.toNat_nowMs
    · rw [hsame]
      exact ho.calc_le (hsame' ▸ hvalid)
  · refine Nat.le_trans (hlater r hr) ?_
    obtain ⟨hi, rfl⟩ := List.getElem?_eq_some_iff.mp hget
    have hdrop : report' ∈ reports.drop (i + 1) := hreport'
    obtain ⟨n, hn, rfl⟩ := List.mem_drop_iff_getElem.mp hdrop
    exact List.pairwise_iff_getElem.mp ho.heard i (i + 1 + n) hi (by omega) (by omega)

/-- A turn other than `SendPacket` that can happen and comes in turn does not fail. -/
theorem Orderly.turn_other (ho : Orderly s reports) (h : Sound s reports k ids)
    (hmodest : s.Modest) {e : Turn} (hother : e ≠ .sendPacket) (henabled : s.Enabled e)
    (hturn : s.InTurn e) : ∃ s', s.turn e = .ok s' ∧ Orderly s' reports := by
  cases e with
  | advance t =>
      exact ⟨_, rfl, { ho with calc_le := fun hv => Nat.le_trans (ho.calc_le hv) henabled.1 }⟩
  | startReceiver => exact ⟨_, rfl, { ho with }⟩
  | stopReceiver => exact ⟨_, rfl, { ho with }⟩
  | enqueuePacket size => exact ho.enqueuePacket henabled
  | sendPacket => exact absurd rfl hother
  | sendOverSleep i =>
      refine ⟨_, rfl, ?_⟩
      rw [RmcatSession.sendOverSleep]
      split
      · exact ho
      · exact { ho with }
  | media i =>
      have harrived := h.arrive i
      have hsocket : s.socket ++ s.media[i]?.toList ≠ [] := by
        rw [List.getElem?_eq_getElem henabled, Option.toList_some]
        exact List.append_ne_nil_of_right_ne_nil _ (List.cons_ne_nil _ _)
      obtain ⟨s', hcall⟩ := harrived.recvMedia_ok hsocket
      obtain ⟨hcontroller, hnow, hheard, hbuf, hbytes⟩ := controller_recvMedia hcall
      refine ⟨s', hcall, ?_⟩
      constructor
      · rw [hbuf, hbytes]
        exact ho.bytes
      · rw [hbuf]
        exact ho.sizes
      · rw [hcontroller]
        exact ho.calls
      · rw [hcontroller, hnow]
        exact ho.calc_le
      · exact ho.heard
      · rw [hcontroller]
        exact ho.ordered
      · rw [hcontroller, hheard]
        exact ho.later
  | feedback i =>
      obtain ⟨report, hget, hanswer⟩ := h.turn_feedback henabled
      rw [hanswer]
      exact ho.recvFeedback h hmodest hget hturn

/-- A turn that does not fail keeps the order. -/
theorem Orderly.turn (ho : Orderly s reports) (h : Sound s reports k ids)
    (hmodest : s.Modest) {e : Turn} (hstep : Step s e s') (hturn : s.InTurn e) :
    Orderly s' reports := by
  by_cases hsend : e = .sendPacket
  · subst hsend
    exact ho.sendPacket h hstep.2
  · obtain ⟨s₁, hcall, ho'⟩ := ho.turn_other h hmodest hsend hstep.1 hturn
    obtain rfl := Except.ok.inj (hcall.symm.trans hstep.2)
    exact ho'

theorem Orderly.start (flowId : BitVec 32) (host : InetSocketAddress) (minBw initBw maxBw : F) :
    Orderly (RmcatSession.start flowId host minBw initBw maxBw) [] where
  bytes := rfl
  sizes _ hmem := absurd hmem List.not_mem_nil
  calls := { CallInv.init (F := F) with }
  calc_le hvalid := Bool.noConfusion hvalid
  heard := .nil
  ordered := .nil
  later _ hr := absurd hr List.not_mem_nil

end RmcatSession

end Rmcat
