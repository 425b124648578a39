import RmcatNs3.Scream.RingReclaim

/-!
# A packet that stays in the ring

A run of one stream across the wrap: packet 65532 is lost, and the highest numbers of two
feedbacks lie on two sides of 65535. The next feedback does not drop the packet, and 2048
packets later its cell is still in use.
-/

namespace Scream

open MachineInt RingScan SerialNumber Runs

/-! ## Calls that go through -/

namespace ScreamTx

variable {s : ScreamTx} {stream : TxStream}

theorem getStream_first (h : s.streams[0]? = some stream) :
    s.getStream stream.ssrc = some (0, stream) := by
  cases hs : s.streams with
  | nil =>
      rw [hs] at h
      exact absurd h nofun
  | cons first rest =>
      rw [hs] at h
      obtain rfl := Option.some.inj h
      simp [getStream, hs, List.findIdx?_cons]

/-- The first feedback is accepted, and one whose highest number lies not too far ahead. -/
theorem accepts_first {fb : IncomingFeedback} (h : s.streams[0]? = some stream)
    (hssrc : fb.ssrc = stream.ssrc)
    (hnear : stream.hiSeqAck = 0 ∨ dist stream.hiSeqAck fb.highestSeqNr ≤ 65000) :
    s.accepts fb = some (0, stream) := by
  have hfound : (s.ensureInitialized fb.time_us).getStream fb.ssrc = some (0, stream) := by
    rw [hssrc]
    apply getStream_first
    rwa [ensureInitialized_streams]
  have hahead : ignores stream fb.highestSeqNr = false := by
    rcases hnear with hfirst | hnear
    · simp [ignores, hfirst]
    · have hle : ¬ (fb.highestSeqNr - stream.hiSeqAck).toNat > 65000 := Nat.not_lt.mpr hnear
      unfold ignores
      rw [decide_eq_false hle]
      rfl
  unfold accepts
  rw [hfound]
  simp [hahead]

end ScreamTx

/-! ## Regular numbers -/

section Numbers

variable {hi last : BitVec 16} {before rest accepted : List (BitVec 16)}

/-- The next number may be sent. -/
theorem Regular.next (h : Regular (last :: before) (hi :: rest))
    (hflight : dist hi last + 1 < 2048) : Regular ((last + 1) :: last :: before) (hi :: rest) where
  consecutive := .cons_cons rfl h.consecutive
  increasing := h.increasing
  inFlight := by
    intro hi' hhi
    obtain rfl := Option.some.inj hhi
    have hone : dist last (last + 1) = 1 := dist_add_right last 1
    refine ⟨last + 1, rfl, ?_⟩
    rw [@dist_trans _ hi last (last + 1) (by omega), hone, kMaxTxPackets]
    exact hflight

/-- The highest number of a feedback lies among the numbers in flight. -/
theorem Regular.heard (h : Regular (last :: before) accepted) {highest : BitVec 16}
    (hlater : ∀ hi ∈ accepted.head?, Precedes hi highest) (hflight : dist highest last < 2048) :
    Regular (last :: before) (highest :: accepted) where
  consecutive := h.consecutive
  increasing := by
    cases accepted with
    | nil => exact .singleton _
    | cons hi rest => exact .cons_cons (hlater hi rfl) h.increasing
  inFlight := by
    intro hi hhi
    obtain rfl := Option.some.inj hhi
    exact ⟨last, rfl, hflight⟩

/-- The size of the ring divides the number circle. -/
theorem cell_add (last : BitVec 16) (n : Nat) :
    (last + BitVec.ofNat 16 n).toNat % 2048 = (last.toNat + n) % 2048 := by
  simp only [BitVec.toNat_add, BitVec.toNat_ofNat]
  omega

end Numbers

namespace Watched

/-- A regular run of the first stream of a sender leads to this ring. -/
structure Reached (w : Watched) (sent accepted : List (BitVec 16)) (r : RingState) : Prop where
  run : ∃ es, Run (RegularStep 0) (start true) es w
  tx : w.tx.Inv
  regular : Regular sent accepted
  sent : w.sent = sent
  accepted : w.accepted = accepted
  ringState : w.tx.ringStates[0]? = some r

variable {w : Watched} {sent accepted : List (BitVec 16)} {r : RingState}

theorem Reached.step {w' : Watched} {sent' accepted' : List (BitVec 16)} {r' : RingState}
    {e : TxEvent} (h : Reached w sent accepted r) (hstep : w.RegularStep 0 e w')
    (hsent' : w'.sent = sent') (haccepted' : w'.accepted = accepted')
    (hr' : w'.tx.ringStates[0]? = some r') : Reached w' sent' accepted' r' := by
  obtain ⟨es, hrun⟩ := h.run
  subst hsent' haccepted'
  exact ⟨⟨es ++ [e], .snoc hrun hstep⟩, h.tx.step hstep.1.tx, hstep.2, rfl, rfl, hr'⟩

/-- The stream is registered. -/
theorem reached_first : ∃ w, Reached w [] [] (TxStream.new 7).ringState := by
  let w : Watched := ⟨{ ScreamTx.new true with streams := [.new 7] }, [], []⟩
  have hstep : (start true).RegularStep 0 (.registerNewStream 7) w :=
    ⟨⟨rfl, rfl, rfl⟩, ⟨.nil, .nil, nofun⟩⟩
  refine ⟨w, ⟨_, .snoc .nil hstep⟩, ?_, hstep.2, rfl, rfl, rfl⟩
  exact (ScreamTx.new_inv true).step hstep.1.tx

/-- A packet is transmitted. -/
theorem Reached.send (h : Reached w sent accepted r) (time_us size : Nat) {seqNr : BitVec 16}
    (hreg : Regular (seqNr :: sent) accepted) :
    ∃ w', w.RegularStep 0 (.addTransmitted time_us r.ssrc size seqNr) w' ∧
      Reached w' (seqNr :: sent) accepted (r.send time_us size seqNr) := by
  obtain ⟨stream, hstream, rfl⟩ := ScreamTx.exists_stream h.ringState
  have hfound : (w.tx.ensureInitialized time_us).getStream stream.ssrc = some (0, stream) := by
    apply ScreamTx.getStream_first
    rwa [ScreamTx.ensureInitialized_streams]
  obtain ⟨tx, htx⟩ : ∃ tx, w.tx.addTransmitted time_us stream.ssrc size seqNr = some tx := by
    unfold ScreamTx.addTransmitted
    simp [hfound]
  obtain ⟨j, stream', hfound', _, hrings⟩ := ScreamTx.addTransmitted_ringStates htx
  obtain ⟨rfl, rfl⟩ := Prod.mk.inj (Option.some.inj (hfound.symm.trans hfound'))
  have hsends : w.tx.sends 0 (.addTransmitted time_us stream.ssrc size seqNr) = some seqNr := by
    simp [ScreamTx.sends, hfound]
  let w' : Watched := ⟨tx, seqNr :: sent, accepted⟩
  have hstep : w.RegularStep 0 (.addTransmitted time_us stream.ssrc size seqNr) w' := by
    refine ⟨⟨htx, ?_, h.accepted.symm⟩, hreg⟩
    rw [hsends, h.sent]
    rfl
  refine ⟨w', hstep, h.step hstep rfl rfl ?_⟩
  have hi := (List.getElem?_eq_some_iff.mp h.ringState).1
  rw [hrings, List.getElem?_set_self hi]

/-- A feedback is accepted. -/
theorem Reached.hear (h : Reached w sent accepted r) (fb : IncomingFeedback)
    (hssrc : fb.ssrc = r.ssrc) (hnear : r.hiSeqAck = 0 ∨ dist r.hiSeqAck fb.highestSeqNr ≤ 65000)
    (hreg : Regular sent (fb.highestSeqNr :: accepted)) :
    ∃ (w' : Watched) (stream : TxStream), stream.ringState = r ∧
      w.RegularStep 0 (.incomingFeedback fb) w' ∧
      Reached w' sent (fb.highestSeqNr :: accepted) (stream.hear fb) := by
  obtain ⟨stream, hstream, rfl⟩ := ScreamTx.exists_stream h.ringState
  have haccepts := ScreamTx.accepts_first hstream hssrc hnear
  have hhears : w.tx.hears 0 (.incomingFeedback fb) = some fb := by
    simp [ScreamTx.hears, haccepts]
  let w' : Watched := ⟨w.tx.incomingFeedback fb, sent, fb.highestSeqNr :: accepted⟩
  have hstep : w.RegularStep 0 (.incomingFeedback fb) w' := by
    refine ⟨⟨rfl, h.sent.symm, ?_⟩, hreg⟩
    rw [hhears, h.accepted]
    rfl
  refine ⟨w', stream, rfl, hstep, h.step hstep rfl rfl ?_⟩
  have hi := (List.getElem?_eq_some_iff.mp h.ringState).1
  rcases ScreamTx.incomingFeedback_ringStates h.tx fb with
    ⟨hnone, _⟩ | ⟨j, stream', haccepts', _, hrings⟩
  · rw [haccepts] at hnone
    exact absurd hnone (Option.some_ne_none _)
  · obtain ⟨rfl, rfl⟩ := Prod.mk.inj (Option.some.inj (haccepts.symm.trans haccepts'))
    rw [hrings, List.getElem?_set_self hi]

variable {hi last : BitVec 16} {before rest : List (BitVec 16)}

/-- **Packets are transmitted one after the other** into cells that are free. -/
theorem Reached.sends (h : Reached w (last :: before) (hi :: rest) r) (time_us size n : Nat)
    (hflight : dist hi last + n < 2048)
    (hfree : ∀ k < n,
      ¬ (r.txPackets ((last + BitVec.ofNat 16 (k + 1)).toNat % 2048)).isUsed = true) :
    ∃ w' before' r', Reached w' ((last + BitVec.ofNat 16 n) :: before') (hi :: rest) r' ∧
      r'.ssrc = r.ssrc ∧ r'.hiSeqAck = r.hiSeqAck ∧ r'.lastLossDetectIx = r.lastLossDetectIx ∧
      (∀ k < n, r'.txPackets ((last + BitVec.ofNat 16 (k + 1)).toNat % 2048) =
        sentPacket time_us size (last + BitVec.ofNat 16 (k + 1))) ∧
      ∀ m, (∀ k < n, m ≠ (last + BitVec.ofNat 16 (k + 1)).toNat % 2048) →
        r'.txPackets m = r.txPackets m := by
  induction n with
  | zero =>
      refine ⟨w, before, r, ?_, rfl, rfl, rfl, nofun, fun _ _ => rfl⟩
      rwa [show last + BitVec.ofNat 16 0 = last from BitVec.add_zero last]
  | succ n ih =>
      obtain ⟨w₁, before₁, r₁, h₁, hssrc₁, hack₁, hix₁, hnew₁, hkept₁⟩ :=
        ih (by omega) fun k hk => hfree k (by omega)
      have hnext : last + BitVec.ofNat 16 n + 1 = last + BitVec.ofNat 16 (n + 1) := by
        rw [BitVec.ofNat_add, BitVec.add_assoc]
        rfl
      have hahead : dist hi (last + BitVec.ofNat 16 n) = dist hi last + n := by
        have hstep : dist last (last + BitVec.ofNat 16 n) = n := by
          rw [dist_add_right, BitVec.toNat_ofNat, Nat.mod_eq_of_lt (by omega)]
        rw [@dist_trans _ hi last _ (by omega), hstep]
      have hreg := Regular.next h₁.regular (by omega)
      rw [hnext] at hreg
      -- the cell is none of those that were taken before
      have hapart : ∀ k < n, (last + BitVec.ofNat 16 (n + 1)).toNat % 2048 ≠
          (last + BitVec.ofNat 16 (k + 1)).toNat % 2048 := by
        intro k hk
        rw [cell_add, cell_add]
        omega
      have hfree₁ : ¬ (r₁.txPackets
          ((last + BitVec.ofNat 16 (n + 1)).toNat % 2048)).isUsed = true := by
        rw [hkept₁ _ hapart]
        exact hfree n (Nat.lt_succ_self n)
      obtain ⟨w', _, h'⟩ := h₁.send time_us size hreg
      rw [RingState.send_of_free _ _ hfree₁] at h'
      refine ⟨w', _, _, h', hssrc₁, hack₁, hix₁, ?_, ?_⟩
      · intro k hk
        rcases Nat.lt_succ_iff_lt_or_eq.mp hk with hlt | rfl
        · simp only [Function.update_of_ne (hapart k hlt).symm]
          exact hnew₁ k hlt
        · exact Function.update_self ..
      · intro m hm
        simp only [Function.update_of_ne (hm n (Nat.lt_succ_self n))]
        exact hkept₁ m fun k hk => hm k (by omega)

/-- A packet that is neither reported nor late stays in the ring, unless the first loop
visits it. -/
theorem hear_kept {fb : IncomingFeedback} {stream : TxStream} {n : Nat} {p : Transmitted}
    (hp : stream.txPackets n = p) (hused : p.isUsed = true)
    (hswept : n ∉ swept stream.lastLossDetectIx stream.hiSeqAck)
    (hlate : isLate (ackTime fb stream) p = false) (hacked : (markPacket fb p).isAcked = false) :
    ((stream.hear fb).txPackets n).isUsed = true ∧
      ((stream.hear fb).txPackets n).seqNr = p.seqNr := by
  simp only [TxStream.hear, detectedRing, hp]
  by_cases hscan : n ∈ scanned stream.hiSeqAck fb.highestSeqNr
  · have hlate' : isLate (ackTime fb stream) (markPacket fb p) = false := by
      rw [← hlate]
      simp [isLate]
    simp [hscan, hswept, scanPacket, hused, hlate', hacked, Transmitted.passed]
  · simp [hscan, hswept, hused]

/-- The feedbacks of the run report no packet but their highest ones. -/
def bareFeedback (highestSeqNr : BitVec 16) : IncomingFeedback :=
  ⟨1020000, 7, 1020, highestSeqNr, 0, 0, false⟩

/-- Two feedbacks before the wrap leave an empty ring. -/
theorem reached_before_wrap : ∃ w r, Reached w [65531, 65530] [65531, 65530] r ∧ r.ssrc = 7 ∧
    r.hiSeqAck = 65531 ∧ r.lastLossDetectIx = 65531 ∧ ∀ n, ¬ (r.txPackets n).isUsed = true := by
  obtain ⟨w₀, h₀⟩ := reached_first
  obtain ⟨w₁, _, h₁⟩ := h₀.send 1000000 100
    (show Regular [65530] [] from ⟨.singleton _, .nil, nofun⟩)
  have hfree : ¬ (((TxStream.new 7).ringState.txPackets
      ((65530 : BitVec 16).toNat % 2048)).isUsed = true) := nofun
  rw [RingState.send_of_free _ _ hfree] at h₁
  obtain ⟨w₂, stream₁, hr₁, _, h₂⟩ := h₁.hear (bareFeedback 65530) rfl (.inl rfl)
    (h₁.regular.heard nofun (by decide))
  have hssrc₁ : stream₁.ssrc = 7 := congrArg RingState.ssrc hr₁
  have hack₁ : stream₁.hiSeqAck = 0 := congrArg RingState.hiSeqAck hr₁
  obtain ⟨w₃, _, h₃⟩ := h₂.send 1000000 100 (h₂.regular.next (by decide))
  have hlater : ∀ hi ∈ ([65530] : List (BitVec 16)).head?, Precedes hi 65531 := by
    intro hi hhi
    obtain rfl := Option.some.inj hhi
    decide
  obtain ⟨hssrc, hack, hix⟩ :=
    RingState.send_cursors (stream₁.hear (bareFeedback 65530)) 1000000 100 (65530 + 1)
  obtain ⟨w₄, stream₃, hr₃, _, h₄⟩ := h₃.hear (bareFeedback 65531) (by
      rw [hssrc]
      exact hssrc₁.symm) (.inr (by
      rw [hack]
      show dist (65530 : BitVec 16) 65531 ≤ 65000
      decide)) (h₃.regular.heard hlater (by decide))
  have hssrc₃ : stream₃.ssrc = 7 := (congrArg RingState.ssrc hr₃).trans (hssrc.trans hssrc₁)
  have hack₃ : stream₃.hiSeqAck = 65530 := (congrArg RingState.hiSeqAck hr₃).trans hack
  have hix₃ : stream₃.lastLossDetectIx = 1 := by
    refine (congrArg RingState.lastLossDetectIx hr₃).trans (hix.trans ?_)
    simp only [TxStream.hear, firstIx, hack₁]
    rfl
  refine ⟨w₄, _, h₄, hssrc₃, rfl, ?_, ?_⟩
  · simp only [TxStream.hear, firstIx, hack₃]
    rfl
  · intro n hused
    -- the first loop goes round the whole ring
    obtain ⟨hbefore, _, hswept⟩ := hear_isUsed hused
    have hring : RingInv stream₃.txPackets := by
      rw [← show (stream₃.ringState).txPackets = stream₃.txPackets from rfl, hr₃]
      exact h₃.tx.ringInv h₃.ringState
    have hn : n < 2048 := (hring n hbefore).1 ▸ Nat.mod_lt _ (by decide)
    apply hswept
    rw [hix₃, hack₃, swept, if_pos (by decide), kMaxTxPackets, mem_slots]
    refine ⟨n + 2048, by omega, ?_, by omega⟩
    rw [if_neg (by decide)]
    unfold firstIx
    exact Nat.lt_of_lt_of_le (Nat.add_lt_add_right hn 2048) (by decide)

/-- Packet 65532 is left in the ring by a feedback beyond the wrap, and the cells that the
packets after it do not take are free. -/
theorem reached_beyond_wrap : ∃ w r before, Reached w (61 :: before) [50, 65531, 65530] r ∧
    r.ssrc = 7 ∧ r.hiSeqAck = 50 ∧ r.lastLossDetectIx = 65532 ∧
    ((r.txPackets 2044).isUsed = true ∧ (r.txPackets 2044).seqNr = 65532) ∧
    ∀ n, 61 < n → n < 2044 → ¬ (r.txPackets n).isUsed = true := by
  obtain ⟨w₁, r₁, h₁, hssrc₁, hack₁, hix₁, hempty₁⟩ := reached_before_wrap
  obtain ⟨w₂, before, r₂, h₂, hssrc₂, hack₂, hix₂, hnew₂, hkept₂⟩ :=
    h₁.sends 1000000 100 66 (by decide) fun k _ => hempty₁ _
  obtain ⟨w₃, stream, rfl, _, h₃⟩ := h₂.hear (bareFeedback 50)
    (by rw [hssrc₂, hssrc₁]; rfl) (.inr (by rw [hack₂, hack₁]; decide))
    (h₂.regular.heard (by
      intro hi hhi
      obtain rfl := Option.some.inj hhi
      decide) (by decide))
  have hack : stream.hiSeqAck = 65531 := hack₂.trans hack₁
  have hix : stream.lastLossDetectIx = 65531 := hix₂.trans hix₁
  have hcell : stream.txPackets 2044 = sentPacket 1000000 100 65532 := hnew₂ 0 (by decide)
  have hhighest : stream.txPackets 50 = sentPacket 1000000 100 50 := hnew₂ 54 (by decide)
  have htime : ackTime (bareFeedback 50) stream = 1000000 := by
    have hread : stream.txPackets ((bareFeedback 50).highestSeqNr.toNat % kMaxTxPackets) =
        sentPacket 1000000 100 50 := hhighest
    unfold ackTime
    rw [hread]
    rfl
  refine ⟨w₃, _, before, h₃, hssrc₂.trans hssrc₁, rfl, ?_, ?_, ?_⟩
  · simp only [TxStream.hear, firstIx, hack]
    rfl
  · refine hear_kept hcell rfl ?_ ?_ (by decide)
    · rw [hix, hack]
      decide
    · rw [htime]
      decide
  · intro n hlo hhi hused
    obtain ⟨hbefore, _⟩ := hear_isUsed hused
    have hfree : stream.txPackets n = r₁.txPackets n := by
      apply hkept₂
      intro k hk heq
      rw [cell_add, show (65531 : BitVec 16).toNat = 65531 from rfl] at heq
      omega
    rw [hfree] at hbefore
    exact hempty₁ n hbefore

/-- **An old packet stays in the ring**: the highest numbers of two feedbacks lie on two
sides of the wrap, and the next feedback leaves packet 65532 where it is, 65 numbers before
its highest one. Packet 2044 then finds the cell in use. -/
theorem old_packet_left :
    (∃ es w fb w', Run (RegularStep 0) (start true) es w ∧
      w.RegularStep 0 (.incomingFeedback fb) w' ∧ ¬ w'.Reclaimed 0) ∧
    ∃ es w time_us ssrc size w' stream, Run (RegularStep 0) (start true) es w ∧
      w.RegularStep 0 (.addTransmitted time_us ssrc size 2044) w' ∧
      w.tx.streams[0]? = some stream ∧ ScreamTx.Collides stream 2044 ∧
      ¬ Recent w.accepted (stream.txPackets 2044).seqNr := by
  obtain ⟨w₁, r₁, before, h₁, hssrc₁, hack₁, hix₁, ⟨hused₁, hseq₁⟩, hfree₁⟩ := reached_beyond_wrap
  obtain ⟨w₂, stream, rfl, hstep₂, h₂⟩ := h₁.hear (bareFeedback 61)
    (by rw [hssrc₁]; rfl) (.inr (by rw [hack₁]; decide))
    (h₁.regular.heard (by
      intro hi hhi
      obtain rfl := Option.some.inj hhi
      decide) (by decide))
  have hack : stream.hiSeqAck = 50 := hack₁
  have hix : stream.lastLossDetectIx = 65532 := hix₁
  -- neither loop visits the packet
  have hscan : (65532 : BitVec 16).toNat % 2048 ∉
      scanned stream.hiSeqAck (bareFeedback 61).highestSeqNr := by
    rw [hack, mem_scanned]
    decide
  have hswept : (65532 : BitVec 16).toNat % 2048 ∉
      swept stream.lastLossDetectIx stream.hiSeqAck := by
    rw [hix, hack]
    decide
  have hleft : (stream.hear (bareFeedback 61)).txPackets 2044 = stream.txPackets 2044 :=
    hear_unvisited hscan hswept
  have hold : ¬ Recent [61, 50, 65531, 65530] 65532 := by
    rw [recent_cons_cons]
    decide
  obtain ⟨es, hrun⟩ := h₁.run
  obtain ⟨stream₂, hstream₂, hr₂⟩ := ScreamTx.exists_stream h₂.ringState
  constructor
  · refine ⟨es, w₁, _, w₂, hrun, hstep₂, ?_⟩
    intro hreclaimed
    have hall := (reclaimed_iff h₂.ringState).mp hreclaimed 2044
    rw [hleft, h₂.accepted] at hall
    have hrecent := hall hused₁
    rw [show (stream.txPackets 2044).seqNr = 65532 from hseq₁] at hrecent
    exact hold hrecent
  · obtain ⟨w₃, before₃, r₃, h₃, hssrc₃, _, _, _, hkept₃⟩ :=
      h₂.sends 1000000 100 1982 (by decide) (by
        intro k hk hused
        obtain ⟨hused', _⟩ := hear_isUsed hused
        rw [cell_add, show (61 : BitVec 16).toNat = 61 from rfl] at hused'
        exact hfree₁ _ (by omega) (by omega) hused')
    obtain ⟨w₄, hstep₄, _⟩ := h₃.send 1000000 100 (h₃.regular.next (by decide))
    obtain ⟨es₃, hrun₃⟩ := h₃.run
    obtain ⟨stream₃, hstream₃, hr₃⟩ := ScreamTx.exists_stream h₃.ringState
    have hcell : stream₃.txPackets 2044 = stream.txPackets 2044 := by
      rw [← hleft, show stream₃.txPackets = r₃.txPackets from congrArg RingState.txPackets hr₃]
      apply hkept₃
      intro k hk heq
      rw [cell_add, show (61 : BitVec 16).toNat = 61 from rfl] at heq
      omega
    refine ⟨es₃, w₃, 1000000, _, 100, w₄, stream₃, hrun₃, hstep₄, hstream₃, ?_, ?_⟩
    · show (stream₃.txPackets 2044).isUsed = true
      rw [hcell]
      exact hused₁
    · rw [hcell, h₃.accepted, show (stream.txPackets 2044).seqNr = 65532 from hseq₁]
      exact hold

end Watched

end Scream
