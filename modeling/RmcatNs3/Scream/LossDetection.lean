import RmcatNs3.Scream.AckMarking

/-!
# Which packets are counted lost

The first loop of `detectLoss` drops what is left of the packets that the previous feedback
went through, although the vector of the present feedback still covers them. So a packet
that is reported late, and one that may still be reordered, is counted lost.
-/

namespace Scream

open MachineInt SerialNumber Runs

/-! ## Counted packets -/

section Loops

variable {d : Detection} {n size : Nat} {raises : Bool}

theorem sweepSlot_lost : (sweepSlot raises d n).lost =
    if (d.txPackets n).isUsed then d.lost ++ [(n, (d.txPackets n).size)] else d.lost := by
  unfold sweepSlot
  split <;> rfl

theorem passEdge_lost {highestSeqNr : BitVec 16} :
    (d.passEdge highestSeqNr n).lost = d.lost := by
  unfold Detection.passEdge
  simp only
  split <;> rfl

theorem scanSlot_lost {highestSeqNr : BitVec 16} {timeTxAck_us : Nat} :
    (scanSlot highestSeqNr timeTxAck_us raises d n).lost =
      if (d.txPackets n).isUsed ∧ isLate timeTxAck_us (d.txPackets n) ∧
          (d.txPackets n).isAcked = false then
        d.lost ++ [(n, (d.txPackets n).size)]
      else d.lost := by
  rw [scanSlot_eq]
  by_cases hused : (d.txPackets n).isUsed = true
  · simp only [hused, if_true, true_and]
    split
    · simp only [Detection.lose, passEdge_lost, passEdge_cell]
      rfl
    · split
      · exact passEdge_lost
      · exact passEdge_lost
  · simp [hused]

theorem mem_sweepLoop_lost (visited : List Nat) (d : Detection) :
    (n, size) ∈ (visited.foldl (sweepSlot raises) d).lost ↔ (n, size) ∈ d.lost ∨
      (n ∈ visited ∧ (d.txPackets n).isUsed = true ∧ size = (d.txPackets n).size) := by
  induction visited generalizing d with
  | nil => simp
  | cons m rest ih =>
      rw [List.foldl_cons, ih, sweepSlot_lost, sweepSlot_txPackets]
      by_cases hn : n = m
      · subst hn
        by_cases hused : (d.txPackets n).isUsed = true
        · simp [hused, Transmitted.dropped]
        · simp [hused, Transmitted.dropped]
      · by_cases hused : (d.txPackets m).isUsed = true
        · simp [hused, hn]
        · simp [hused, hn]

theorem mem_scanLoop_lost {highestSeqNr : BitVec 16} {timeTxAck_us : Nat} (visited : List Nat)
    (d : Detection) :
    (n, size) ∈ (visited.foldl (scanSlot highestSeqNr timeTxAck_us raises) d).lost ↔
      (n, size) ∈ d.lost ∨
      (n ∈ visited ∧ (d.txPackets n).isUsed = true ∧ size = (d.txPackets n).size ∧
        isLate timeTxAck_us (d.txPackets n) = true ∧ (d.txPackets n).isAcked = false) := by
  induction visited generalizing d with
  | nil => simp
  | cons m rest ih =>
      rw [List.foldl_cons, ih, scanSlot_lost, scanSlot_txPackets]
      by_cases hn : n = m
      · subst hn
        rw [Function.update_self]
        by_cases hused : (d.txPackets n).isUsed = true
        · by_cases hgone : isLate timeTxAck_us (d.txPackets n) = true ∧
              (d.txPackets n).isAcked = false
          · -- the packet is lost now, and is not in use any more
            have hout : (scanPacket highestSeqNr timeTxAck_us (d.txPackets n)).isUsed = false := by
              simp [scanPacket, hused, hgone, Transmitted.dropped]
            simp [hused, hgone, hout]
          · have hstay : (scanPacket highestSeqNr timeTxAck_us (d.txPackets n)).isUsed = true →
                isLate timeTxAck_us (scanPacket highestSeqNr timeTxAck_us (d.txPackets n)) = true →
                (scanPacket highestSeqNr timeTxAck_us (d.txPackets n)).isAcked = true := by
              unfold scanPacket
              simp only [hused, if_true]
              split
              · intro hdropped
                exact absurd hdropped Bool.false_ne_true
              · rename_i hkept
                intro _ hlate
                exact absurd hlate (by simp_all [isLate, Transmitted.passed])
            rw [if_neg (by tauto)]
            constructor
            · rintro (hmem | ⟨_, hused', _, hlate, hacked⟩)
              · exact .inl hmem
              · exact absurd (hstay hused' hlate) (by simp [hacked])
            · rintro (hmem | ⟨_, _, _, hlate, hacked⟩)
              · exact .inl hmem
              · exact absurd ⟨hlate, hacked⟩ hgone
        · simp [hused, scanPacket]
      · have hsame : n ∈ m :: rest ↔ n ∈ rest := by simp [hn]
        rw [Function.update_of_ne hn, hsame]
        split
        · simp [hn]
        · rfl

/-- Since some state of the counters, every counted packet is in `lost`. -/
structure Counts (bytesLost : Nat) (lossEvent raises : Bool) (d : Detection) : Prop where
  bytesLost : d.bytesLost = bytesLost + (d.lost.map Prod.snd).sum
  lossEvent : d.lossEvent = (lossEvent || (raises && !d.lost.isEmpty))

variable {bytesLost : Nat} {lossEvent : Bool}

theorem Counts.lose (h : Counts bytesLost lossEvent raises d) :
    Counts bytesLost lossEvent raises (d.lose raises n) where
  bytesLost := by
    simp [Detection.lose, h.bytesLost, Nat.add_assoc]
  lossEvent := by
    simp only [Detection.lose, h.lossEvent]
    cases lossEvent <;> cases raises <;> simp

theorem Counts.passEdge (h : Counts bytesLost lossEvent raises d) (highestSeqNr : BitVec 16) :
    Counts bytesLost lossEvent raises (d.passEdge highestSeqNr n) := by
  unfold Detection.passEdge
  simp only
  split
  · exact ⟨h.bytesLost, h.lossEvent⟩
  · exact h

theorem Counts.sweepLoop (h : Counts bytesLost lossEvent raises d) (visited : List Nat) :
    Counts bytesLost lossEvent raises (visited.foldl (sweepSlot raises) d) := by
  induction visited generalizing d with
  | nil => exact h
  | cons n rest ih =>
      apply ih
      unfold sweepSlot
      split
      · exact h.lose
      · exact h

theorem Counts.scanLoop (h : Counts bytesLost lossEvent raises d) (highestSeqNr : BitVec 16)
    (timeTxAck_us : Nat) (visited : List Nat) :
    Counts bytesLost lossEvent raises
      (visited.foldl (scanSlot highestSeqNr timeTxAck_us raises) d) := by
  induction visited generalizing d with
  | nil => exact h
  | cons n rest ih =>
      apply ih
      have hpassed := @Counts.passEdge d n raises bytesLost lossEvent h highestSeqNr
      rw [scanSlot_eq]
      split
      · split
        · exact hpassed.lose
        · split
          · exact ⟨hpassed.bytesLost, hpassed.lossEvent⟩
          · exact hpassed
      · exact h

end Loops

/-! ## What is known of packets -/

/-- The number lies in the range of the feedback: it is the highest one or has a bit. -/
def Covers (fb : IncomingFeedback) (seqNr : BitVec 16) : Prop :=
  dist seqNr fb.highestSeqNr ≤ 64

instance (fb : IncomingFeedback) (seqNr : BitVec 16) : Decidable (Covers fb seqNr) :=
  inferInstanceAs (Decidable (_ ≤ _))

instance (fb : IncomingFeedback) (seqNr : BitVec 16) : Decidable (Reports fb seqNr) :=
  decidable_of_iff _ reports_iff.symm

/-- The time of the last acknowledged transmission, once the feedback is marked. -/
def ackTime (fb : IncomingFeedback) (stream : TxStream) : Nat :=
  let p := stream.txPackets (fb.highestSeqNr.toNat % kMaxTxPackets)
  if p.isUsed = true ∧ p.seqNr = fb.highestSeqNr then p.timeTx_us else stream.timeTxAck_us

/-- A sender, and which packets in its rings accepted feedback has reported or covered. -/
structure Observed where
  tx : ScreamTx
  reported : Nat → Nat → Bool
  covered : Nat → Nat → Bool

namespace Observed

def start (lossBetaBelowOne : Bool) : Observed where
  tx := .new lossBetaBelowOne
  reported := fun _ _ => false
  covered := fun _ _ => false

/-- A packet of stream `i` is put into cell `n`: nothing is known of it. -/
def forget (known : Nat → Nat → Bool) (i n : Nat) : Nat → Nat → Bool :=
  fun j m => if j = i ∧ m = n then false else known j m

/-- What the feedback tells of the packets in use. -/
def learn (known : Nat → Nat → Bool) (i : Nat) (stream : TxStream) (tells : BitVec 16 → Bool) :
    Nat → Nat → Bool :=
  fun j m => known j m ||
    (decide (j = i) && (stream.txPackets m).isUsed && tells (stream.txPackets m).seqNr)

def note (o : Observed) (known : Nat → Nat → Bool)
    (tells : IncomingFeedback → BitVec 16 → Bool) : TxEvent → Nat → Nat → Bool
  | .addTransmitted time_us ssrc _ seqNr =>
      match (o.tx.ensureInitialized time_us).getStream ssrc with
      | none => known
      | some (i, _) => forget known i (seqNr.toNat % kMaxTxPackets)
  | .incomingFeedback fb =>
      match o.tx.accepts fb with
      | none => known
      | some (i, stream) => learn known i stream (tells fb)
  | _ => known

def step? (o : Observed) (e : TxEvent) : Option Observed :=
  (o.tx.step? e).map fun tx =>
    { tx := tx
      reported := o.note o.reported (fun fb seqNr => decide (Reports fb seqNr)) e
      covered := o.note o.covered (fun fb seqNr => decide (Covers fb seqNr)) e }

def Step (o : Observed) (e : TxEvent) (o' : Observed) : Prop := o.step? e = some o'

end Observed

/-! ## Which packets are lost -/

variable {fb : IncomingFeedback} {stream : TxStream} {n size : Nat}

theorem Reports.covers {seqNr : BitVec 16} (h : Reports fb seqNr) : Covers fb seqNr := by
  unfold Covers
  rcases h with rfl | ⟨k, hk, hseq, _⟩
  · rw [dist_self]
    omega
  · rw [(dist_eq_iff (by omega)).mpr hseq]
    omega

namespace ScreamTx

variable {s : ScreamTx}

theorem markAcked_timeTxAck_us (h : RingInv stream.txPackets) :
    (s.markAcked fb stream).timeTxAck_us = ackTime fb stream := by
  have hloop := markLoop_timeTxAck_us fb (scanned stream.hiSeqAck fb.highestSeqNr)
    { txPackets := stream.txPackets
      timeTxAck_us := stream.timeTxAck_us
      rtt := s.rtt
      ackedOwd := s.ackedOwd
      overshift := false } ?_
  · rw [markAcked, hloop]
    simp only [highest_scanned, true_and]
    rfl
  · intro n hused hseq
    rw [← hseq]
    exact (h n hused).1.symm

/-- **Which packets are counted lost**: those in the cells of the first loop, and those in
the cells of the second that are late and not marked. -/
theorem mem_detectLoss_lost (h : RingInv stream.txPackets) :
    (n, size) ∈ (s.detectLoss fb stream (s.markAcked fb stream)).lost ↔
      (stream.txPackets n).isUsed = true ∧ size = (stream.txPackets n).size ∧
        (n ∈ swept stream.lastLossDetectIx stream.hiSeqAck ∨
          (n ∈ scanned stream.hiSeqAck fb.highestSeqNr ∧
            isLate (ackTime fb stream) (stream.txPackets n) = true ∧
            ¬ (Reports fb (stream.txPackets n).seqNr ∨
              (ackDiff fb.highestSeqNr (stream.txPackets n).seqNr = 64 ∧
                fb.overlong = true)))) := by
  unfold detectLoss
  simp only
  rw [mem_scanLoop_lost, mem_sweepLoop_lost, sweepLoop_txPackets, markAcked_timeTxAck_us h,
    markAcked_txPackets]
  by_cases hused : (stream.txPackets n).isUsed = true
  · have hacked := (h n hused).2
    have hmark := @markPacket_isAcked_iff fb (stream.txPackets n) hused hacked
    by_cases hswept : n ∈ swept stream.lastLossDetectIx stream.hiSeqAck
    · by_cases hscan : n ∈ scanned stream.hiSeqAck fb.highestSeqNr
      · simp [hswept, hscan, hused, Transmitted.dropped]
      · simp [hswept, hscan, hused, Transmitted.dropped]
    · by_cases hscan : n ∈ scanned stream.hiSeqAck fb.highestSeqNr
      · have hlate : isLate (ackTime fb stream) (markPacket fb (stream.txPackets n))
            = isLate (ackTime fb stream) (stream.txPackets n) := by
          simp [isLate]
        rw [← hmark]
        simp [hswept, hscan, hused, hlate]
      · simp [hswept, hscan]
  · by_cases hscan : n ∈ scanned stream.hiSeqAck fb.highestSeqNr
    · by_cases hswept : n ∈ swept stream.lastLossDetectIx stream.hiSeqAck
      · simp [hused, hscan, hswept, Transmitted.dropped]
      · simp [hused, hscan, hswept]
    · simp [hused, hscan]

/-- `bytesLost` grows by the sizes of these packets, and a loss event is raised only if
there is one. -/
theorem detectLoss_counts (s : ScreamTx) (fb : IncomingFeedback) (stream : TxStream)
    (marked : Marking) :
    Counts stream.bytesLost s.lossEvent (s.raisesLoss fb.time_us marked.rtt)
      (s.detectLoss fb stream marked) := by
  unfold detectLoss
  simp only
  apply Counts.scanLoop
  apply Counts.sweepLoop
  constructor
  · rfl
  · simp

end ScreamTx

/-! ## Runs -/

namespace Observed

variable {o o' : Observed} {i : Nat}

/-- A packet may be counted lost if no feedback has covered it, or if it is late and no
feedback has reported it. -/
def Justified (o : Observed) (fb : IncomingFeedback) (i : Nat) (stream : TxStream) (n : Nat) :
    Prop :=
  o.covered i n = false ∨
    (isLate (ackTime fb stream) (stream.txPackets n) = true ∧ o.reported i n = false)

/-- The packets that the first loop drops are not covered, or late and unreported; the
late ones of the second loop have not been reported, or are reported again. -/
structure LossFree (o : Observed) (fb : IncomingFeedback) (i : Nat) (stream : TxStream) :
    Prop where
  swept : ∀ n ∈ swept stream.lastLossDetectIx stream.hiSeqAck,
    (stream.txPackets n).isUsed = true →
    o.covered i n = true ∨ Covers fb (stream.txPackets n).seqNr →
    isLate (ackTime fb stream) (stream.txPackets n) = true ∧ o.reported i n = false ∧
      ¬ Reports fb (stream.txPackets n).seqNr
  scanned : ∀ n ∈ scanned stream.hiSeqAck fb.highestSeqNr,
    (stream.txPackets n).isUsed = true →
    isLate (ackTime fb stream) (stream.txPackets n) = true → o.reported i n = true →
    Reports fb (stream.txPackets n).seqNr ∨
      (ackDiff fb.highestSeqNr (stream.txPackets n).seqNr = 64 ∧ fb.overlong = true)

/-- A step in which every packet counted lost may be. -/
def JustifiedStep (o : Observed) (e : TxEvent) (o' : Observed) : Prop :=
  o.Step e o' ∧ ∀ fb, e = .incomingFeedback fb → ∀ i stream,
    o.tx.accepts fb = some (i, stream) → ∀ n size,
    (n, size) ∈ ((o.tx.ensureInitialized fb.time_us).detectLoss fb stream
      ((o.tx.ensureInitialized fb.time_us).markAcked fb stream)).lost →
    o'.Justified fb i stream n

def LossFreeStep (o : Observed) (e : TxEvent) (o' : Observed) : Prop :=
  o.Step e o' ∧ ∀ fb, e = .incomingFeedback fb → ∀ i stream,
    o.tx.accepts fb = some (i, stream) → o.LossFree fb i stream

/-- What is reported is covered. -/
structure Inv (o : Observed) : Prop where
  rings : o.tx.Inv
  covered : ∀ i n, o.reported i n = true → o.covered i n = true

theorem Step.tx {e : TxEvent} (h : o.Step e o') : o.tx.Step e o'.tx := by
  obtain ⟨tx, htx, rfl⟩ := Option.map_eq_some_iff.mp h
  exact htx

theorem forget_mono {known known' : Nat → Nat → Bool} {i n j m : Nat}
    (h : known j m = true → known' j m = true) :
    forget known i n j m = true → forget known' i n j m = true := by
  unfold forget
  split
  · exact id
  · exact h

theorem Inv.step {e : TxEvent} (h : o.Inv) (hstep : o.Step e o') : o'.Inv := by
  obtain ⟨tx, htx, rfl⟩ := Option.map_eq_some_iff.mp hstep
  refine ⟨h.rings.step htx, ?_⟩
  intro i n
  cases e with
  | addTransmitted time_us ssrc size seqNr =>
      unfold note
      simp only
      cases (o.tx.ensureInitialized time_us).getStream ssrc with
      | none => exact h.covered i n
      | some found => exact forget_mono (h.covered i n)
  | incomingFeedback fb =>
      unfold note
      simp only
      cases o.tx.accepts fb with
      | none => exact h.covered i n
      | some found =>
          simp only [learn, Bool.or_eq_true, Bool.and_eq_true, decide_eq_true_eq]
          rintro (hmem | ⟨hused, hreports⟩)
          · exact .inl (h.covered i n hmem)
          · exact .inr ⟨hused, hreports.covers⟩
  | registerNewStream ssrc => exact h.covered i n
  | newMediaFrame time_us ssrc => exact h.covered i n
  | isOkToTransmit time_us slow prioritized => exact h.covered i n
  | getTargetBitrate ssrc => exact h.covered i n

theorem start_inv (lossBetaBelowOne : Bool) : (start lossBetaBelowOne).Inv :=
  ⟨ScreamTx.new_inv lossBetaBelowOne, nofun⟩

/-- What is known of a packet in use after a feedback for its stream. -/
theorem known_after {fb : IncomingFeedback} (hstep : o.Step (.incomingFeedback fb) o')
    (haccepts : o.tx.accepts fb = some (i, stream)) (hused : (stream.txPackets n).isUsed = true) :
    (o'.reported i n = true ↔ o.reported i n = true ∨ Reports fb (stream.txPackets n).seqNr) ∧
    (o'.covered i n = true ↔ o.covered i n = true ∨ Covers fb (stream.txPackets n).seqNr) := by
  obtain ⟨tx, _, rfl⟩ := Option.map_eq_some_iff.mp hstep
  simp [note, haccepts, learn, hused]

/-- **One feedback** counts only packets that may be counted, if and only if it is free of
false losses. -/
theorem justifiedStep_iff {e : TxEvent} (h : o.Inv) :
    o.JustifiedStep e o' ↔ o.LossFreeStep e o' := by
  refine and_congr_right fun hstep => forall_congr' fun fb => forall_congr' fun he =>
    forall_congr' fun i => forall_congr' fun stream => forall_congr' fun haccepts => ?_
  subst he
  have hring := h.rings _ (List.mem_of_getElem? (ScreamTx.accepts_eq_some haccepts).2)
  constructor
  · intro hjust
    constructor
    · intro n hmem hused hcovered
      obtain ⟨hreported', hcovered'⟩ := known_after hstep haccepts hused
      rcases hjust n _ ((ScreamTx.mem_detectLoss_lost hring).mpr
        ⟨hused, rfl, .inl hmem⟩) with hout | ⟨hlate, hunreported⟩
      · exact absurd (hcovered'.mpr hcovered) (by simp [hout])
      · have hnot := mt hreported'.mpr (by simp [hunreported])
        rw [not_or] at hnot
        exact ⟨hlate, by simpa using hnot.1, hnot.2⟩
    · intro n hmem hused hlate hreported
      obtain ⟨hreported', hcovered'⟩ := known_after hstep haccepts hused
      by_contra hnot
      rcases hjust n _ ((ScreamTx.mem_detectLoss_lost hring).mpr
        ⟨hused, rfl, .inr ⟨hmem, hlate, hnot⟩⟩) with hout | ⟨_, hunreported⟩
      · exact absurd (hcovered'.mpr (.inl (h.covered i n hreported))) (by simp [hout])
      · exact absurd (hreported'.mpr (.inl hreported)) (by simp [hunreported])
  · intro hfree n size hlost
    obtain ⟨hused, _, hcases⟩ := (ScreamTx.mem_detectLoss_lost hring).mp hlost
    obtain ⟨hreported', hcovered'⟩ := known_after hstep haccepts hused
    rcases hcases with hmem | ⟨hmem, hlate, hunmarked⟩
    · by_cases hcovered : o'.covered i n = true
      · obtain ⟨hlate, hunreported, hnot⟩ := hfree.swept n hmem hused (hcovered'.mp hcovered)
        refine .inr ⟨hlate, ?_⟩
        rw [← Bool.not_eq_true, hreported']
        simp [hunreported, hnot]
      · exact .inl (by simpa using hcovered)
    · refine .inr ⟨hlate, ?_⟩
      rw [← Bool.not_eq_true, hreported']
      rintro (hreported | hreports)
      · exact hunmarked (hfree.scanned n hmem hused hlate hreported)
      · exact hunmarked (.inl hreports)

/-- **No false losses**: throughout a run only packets are counted lost that no feedback has
covered, or that are late and unreported, if and only if in every accepted feedback the
packets dropped by the first loop are such packets, and no late packet of the second loop
was reported before without being reported again. In every state `bytesLost` grows by the
sizes of the counted packets, and only these raise a loss event. -/
theorem losses_justified_iff (lossBetaBelowOne : Bool) (es : List TxEvent) (o : Observed) :
    (Run JustifiedStep (start lossBetaBelowOne) es o ↔
      Run LossFreeStep (start lossBetaBelowOne) es o) ∧
    ∀ (s : ScreamTx) (fb : IncomingFeedback) (stream : TxStream),
      Counts stream.bytesLost s.lossEvent
        (s.raisesLoss fb.time_us (s.markAcked fb stream).rtt)
        (s.detectLoss fb stream (s.markAcked fb stream)) := by
  have hinv : ∀ es o, Run LossFreeStep (start lossBetaBelowOne) es o → o.Inv := by
    intro es o hrun
    exact hrun.stateInvariant (start_inv lossBetaBelowOne) fun _ _ _ h hstep => h.step hstep.1
  refine ⟨⟨?_, ?_⟩, fun s fb stream => s.detectLoss_counts fb stream _⟩
  · intro hrun
    induction hrun with
    | nil => exact .nil
    | snoc _ hstep ih => exact .snoc ih ((justifiedStep_iff (hinv _ _ ih)).mp hstep)
  · intro hrun
    induction hrun with
    | nil => exact .nil
    | snoc hprev hstep ih => exact .snoc ih ((justifiedStep_iff (hinv _ _ hprev)).mpr hstep)

end Observed

namespace ScreamTx

/-- Packet 2 is reported by the second feedback, and its size is added to `bytesLost`. -/
theorem reported_packet_lost : ∃ s, Run Step (new true) lateReport s ∧
    s.streams.map TxStream.bytesLost = [0] ∧
    (∃ i stream, s.accepts lateFeedback = some (i, stream) ∧
      (stream.txPackets 2).isUsed = true ∧ (stream.txPackets 2).seqNr = 2) ∧
    Reports lateFeedback 2 ∧
    (s.incomingFeedback lateFeedback).streams.map TxStream.bytesLost = [100] := by
  have hview : (lateReport.foldlM step? (new true)).map (fun s =>
      (s.streams.map TxStream.bytesLost,
        (s.accepts lateFeedback).map fun found =>
          ((found.2.txPackets 2).isUsed, (found.2.txPackets 2).seqNr),
        (s.incomingFeedback lateFeedback).streams.map TxStream.bytesLost))
      = some ([0], some (true, 2), [100]) := by decide +kernel
  obtain ⟨s, hs, hview⟩ := Option.map_eq_some_iff.mp hview
  obtain ⟨hbefore, hview⟩ := Prod.mk.inj hview
  obtain ⟨hcell, hafter⟩ := Prod.mk.inj hview
  obtain ⟨⟨i, stream⟩, haccepts, hcell⟩ := Option.map_eq_some_iff.mp hcell
  obtain ⟨hused, hseq⟩ := Prod.mk.inj hcell
  exact ⟨s, Run.of_foldlM hs, hbefore, ⟨i, stream, haccepts, hused, hseq⟩, by decide, hafter⟩

end ScreamTx

end Scream
