import RmcatNs3.Scream.TransmitRing

/-!
# Marking acknowledged packets

`markAcked` looks back from the highest number only as far as the number after the last
highest one, so a packet that is reported late stays unmarked; and the packet 65 numbers
before the highest one, when it is visited, is tested with a shift by 64 bits.
-/

namespace Scream

open SerialNumber Runs

/-- The feedback says that the number was received. -/
def Reports (fb : IncomingFeedback) (seqNr : BitVec 16) : Prop :=
  seqNr = fb.highestSeqNr ∨
    ∃ k, k < 64 ∧ seqNr = fb.highestSeqNr - BitVec.ofNat 16 (k + 1) ∧
      fb.ackVector.getLsbD k = true

/-- No shift is too long, and of the unacknowledged packets in the ring those become
acknowledged that the feedback reports. -/
def MarksExactly (fb : IncomingFeedback) (stream : TxStream) (marked : Marking) : Prop :=
  marked.overshift = false ∧
    ∀ n, (stream.txPackets n).isUsed = true → (stream.txPackets n).isAcked = false →
      ((marked.txPackets n).isAcked = true ↔ Reports fb (stream.txPackets n).seqNr)

/-- How far `markAcked` looks back from the highest number. -/
def reach (fb : IncomingFeedback) (stream : TxStream) : Nat :=
  dist (stream.hiSeqAck + 1) fb.highestSeqNr % kMaxTxPackets

/-- The reported packets are within reach, and the one 65 numbers before the highest is
not. -/
structure InReach (fb : IncomingFeedback) (stream : TxStream) : Prop where
  reported : ∀ n k, (stream.txPackets n).isUsed = true → k < 64 →
    (stream.txPackets n).seqNr = fb.highestSeqNr - BitVec.ofNat 16 (k + 1) →
    fb.ackVector.getLsbD k = true → k + 1 ≤ reach fb stream
  beyond : ∀ n, (stream.txPackets n).isUsed = true →
    (stream.txPackets n).seqNr = fb.highestSeqNr - 65 → reach fb stream < 65

variable {fb : IncomingFeedback} {stream : TxStream} {seqNr : BitVec 16} {p : Transmitted}
  {n : Nat}

theorem reports_iff : Reports fb seqNr ↔ seqNr = fb.highestSeqNr ∨
    (ackDiff fb.highestSeqNr seqNr < 64 ∧
      fb.ackVector.getLsbD (ackDiff fb.highestSeqNr seqNr) = true) := by
  apply or_congr_right
  constructor
  · intro ⟨k, hk, hseq, hbit⟩
    have hdiff := (ackDiff_eq_iff (by omega)).mpr ((dist_eq_iff (by omega)).mpr hseq)
    rw [hdiff]
    exact ⟨hk, hbit⟩
  · intro ⟨hlt, hbit⟩
    refine ⟨_, hlt, ?_, hbit⟩
    exact (dist_eq_iff (by omega)).mp ((ackDiff_eq_iff (by omega)).mp rfl)

/-- A visited packet is marked if it is reported. The packet 65 numbers before the highest
one depends on a shift that the vector is too short for. -/
theorem markPacket_isAcked_iff (hused : p.isUsed = true) (hacked : p.isAcked = false) :
    (markPacket fb p).isAcked = true ↔ Reports fb p.seqNr ∨
      (ackDiff fb.highestSeqNr p.seqNr = 64 ∧ fb.overlong = true) := by
  rw [markPacket_isAcked hused, hacked, reports_iff]
  by_cases hlt : ackDiff fb.highestSeqNr p.seqNr < 64
  · have hle : ackDiff fb.highestSeqNr p.seqNr ≤ 64 := Nat.le_of_lt hlt
    have hne : ackDiff fb.highestSeqNr p.seqNr ≠ 64 := Nat.ne_of_lt hlt
    simp [ackBit, hlt, hle, hne, or_comm]
  · by_cases heq : ackDiff fb.highestSeqNr p.seqNr = 64
    · simp [ackBit, heq, or_comm]
    · have hgt : ¬ ackDiff fb.highestSeqNr p.seqNr ≤ 64 := by omega
      simp [hlt, heq, hgt]

/-- A packet in use is visited if it lies within reach. -/
theorem RingInv.mem_scanned_iff (h : RingInv stream.txPackets)
    (hused : (stream.txPackets n).isUsed = true) :
    n ∈ scanned stream.hiSeqAck fb.highestSeqNr ↔
      dist (stream.txPackets n).seqNr fb.highestSeqNr % 2048 ≤ reach fb stream := by
  have hn := (h n hused).1
  have hmem := @mem_scanned stream.hiSeqAck fb.highestSeqNr (stream.txPackets n).seqNr
  rw [hn] at hmem
  exact hmem

namespace ScreamTx

variable {s s' : ScreamTx}

theorem markAcked_overshift_iff (h : RingInv stream.txPackets) :
    (s.markAcked fb stream).overshift = false ↔
      ∀ n, (stream.txPackets n).isUsed = true →
        (stream.txPackets n).seqNr = fb.highestSeqNr - 65 → reach fb stream < 65 := by
  have hloop := markLoop_overshift fb (scanned stream.hiSeqAck fb.highestSeqNr)
    { txPackets := stream.txPackets
      timeTxAck_us := stream.timeTxAck_us
      rtt := s.rtt
      ackedOwd := s.ackedOwd
      overshift := false }
  rw [Bool.eq_false_iff, ne_eq, markAcked, hloop]
  simp only [Bool.false_eq_true, false_or, not_exists, not_and]
  constructor
  · intro hnone n hused hseq
    have hdist : dist (stream.txPackets n).seqNr fb.highestSeqNr = 65 :=
      (dist_eq_iff (by decide)).mpr hseq
    by_contra hreach
    refine hnone n ?_ hused ((ackDiff_eq_iff (by decide)).mpr hdist)
    rw [h.mem_scanned_iff hused, hdist]
    omega
  · intro hall n hmem hused hdiff
    have hdist := (ackDiff_eq_iff (by decide)).mp hdiff
    have hreach := hall n hused ((dist_eq_iff (by decide)).mp hdist)
    rw [h.mem_scanned_iff hused, hdist] at hmem
    omega

/-- **One feedback** marks exactly the reported packets if and only if they are within
reach, and the packet that needs a longer shift is not. -/
theorem marksExactly_iff (h : RingInv stream.txPackets) :
    MarksExactly fb stream (s.markAcked fb stream) ↔ InReach fb stream := by
  unfold MarksExactly
  rw [markAcked_overshift_iff h, markAcked_txPackets]
  constructor
  · intro ⟨hbeyond, hexact⟩
    refine ⟨?_, hbeyond⟩
    intro n k hused hk hseq hbit
    have hiff := hexact n hused (h n hused).2
    have hdist : dist (stream.txPackets n).seqNr fb.highestSeqNr = k + 1 :=
      (dist_eq_iff (by omega)).mpr hseq
    by_contra hreach
    have hout : n ∉ scanned stream.hiSeqAck fb.highestSeqNr := by
      rw [h.mem_scanned_iff hused, hdist]
      omega
    simp only [hout, if_false, (h n hused).2, Bool.false_eq_true, false_iff] at hiff
    exact hiff (.inr ⟨k, hk, hseq, hbit⟩)
  · intro ⟨hreported, hbeyond⟩
    refine ⟨hbeyond, ?_⟩
    intro n hused hacked
    by_cases hmem : n ∈ scanned stream.hiSeqAck fb.highestSeqNr
    · simp only [hmem, if_true]
      rw [markPacket_isAcked_iff hused hacked]
      refine or_iff_left fun ⟨hdiff, _⟩ => ?_
      have hdist := (ackDiff_eq_iff (by decide)).mp hdiff
      have hreach := hbeyond n hused ((dist_eq_iff (by decide)).mp hdist)
      rw [h.mem_scanned_iff hused, hdist] at hmem
      omega
    · simp only [hmem, if_false, hacked, Bool.false_eq_true, false_iff]
      rintro (hseq | ⟨k, hk, hseq, hbit⟩)
      · rw [h.mem_scanned_iff hused, hseq, dist_self] at hmem
        omega
      · have hreach := hreported n k hused hk hseq hbit
        rw [h.mem_scanned_iff hused, (dist_eq_iff (by omega)).mpr hseq] at hmem
        omega

/-! ## Runs -/

/-- A step in which an accepted feedback marks exactly the reported packets. -/
def ExactStep (s : ScreamTx) (e : TxEvent) (s' : ScreamTx) : Prop :=
  s.Step e s' ∧ ∀ fb, e = .incomingFeedback fb → ∀ i stream, s.accepts fb = some (i, stream) →
    MarksExactly fb stream ((s.ensureInitialized fb.time_us).markAcked fb stream)

/-- A step in which the packets that an accepted feedback reports are within reach. -/
def InReachStep (s : ScreamTx) (e : TxEvent) (s' : ScreamTx) : Prop :=
  s.Step e s' ∧ ∀ fb, e = .incomingFeedback fb → ∀ i stream, s.accepts fb = some (i, stream) →
    InReach fb stream

theorem exactStep_iff (h : s.Inv) {e : TxEvent} : s.ExactStep e s' ↔ s.InReachStep e s' := by
  refine and_congr_right fun _ => forall_congr' fun fb => forall_congr' fun _ =>
    forall_congr' fun i => forall_congr' fun stream => forall_congr' fun haccepts => ?_
  exact marksExactly_iff (h _ (List.mem_of_getElem? (accepts_eq_some haccepts).2))

/-- **Feedback is applied exactly** throughout a run if and only if every accepted feedback
reports only packets within the reach of `markAcked`, and the packet 65 numbers before its
highest one is not within that reach. -/
theorem markAcked_exact_iff (lossBetaBelowOne : Bool) (es : List TxEvent) (s : ScreamTx) :
    Run ExactStep (new lossBetaBelowOne) es s ↔
      Run InReachStep (new lossBetaBelowOne) es s := by
  have hinv : ∀ es s, Run InReachStep (new lossBetaBelowOne) es s → s.Inv := by
    intro es s hrun
    exact inv_of_run (hrun.mono fun _ _ _ h => h.1)
  constructor
  · intro hrun
    induction hrun with
    | nil => exact .nil
    | snoc _ hstep ih => exact .snoc ih ((exactStep_iff (hinv _ _ ih)).mp hstep)
  · intro hrun
    induction hrun with
    | nil => exact .nil
    | snoc hprev hstep ih => exact .snoc ih ((exactStep_iff (hinv _ _ hprev)).mpr hstep)

/-- Packet 2 arrives after packet 3 was reported, and then is reported with packet 4. -/
def lateReport : List TxEvent :=
  [.registerNewStream 7, .addTransmitted 1000000 7 100 1, .addTransmitted 1001000 7 100 2,
    .addTransmitted 1002000 7 100 3, .addTransmitted 1003000 7 100 4,
    .incomingFeedback ⟨1050000, 7, 1050, 3, 0b10, 0, false⟩]

def lateFeedback : IncomingFeedback := ⟨1051000, 7, 1051, 4, 0b111, 0, false⟩

/-- Packets 2 to 65 are lost on the way. -/
def longGap : List TxEvent :=
  [.registerNewStream 7, .addTransmitted 1000000 7 100 1, .addTransmitted 1001000 7 100 66]

def gapFeedback : IncomingFeedback := ⟨1050000, 7, 1050, 66, 0, 0, false⟩

/-- Packet 2 is reported but not marked; and after a gap a shift by 64 bits is evaluated. -/
theorem late_report_unmarked :
    (∃ s i stream, Run Step (new true) lateReport s ∧ s.accepts lateFeedback = some (i, stream) ∧
      ¬ MarksExactly lateFeedback stream
        ((s.ensureInitialized lateFeedback.time_us).markAcked lateFeedback stream)) ∧
    ∃ s i stream, Run Step (new true) longGap s ∧ s.accepts gapFeedback = some (i, stream) ∧
      ((s.ensureInitialized gapFeedback.time_us).markAcked gapFeedback stream).overshift
        = true := by
  constructor
  · have hview : (lateReport.foldlM step? (new true)).bind (fun s =>
        (s.accepts lateFeedback).map fun found =>
          (found.2.hiSeqAck, (found.2.txPackets 2).isUsed, (found.2.txPackets 2).seqNr))
        = some (3, true, 2) := by decide +kernel
    obtain ⟨s, hs, hview⟩ := Option.bind_eq_some_iff.mp hview
    obtain ⟨⟨i, stream⟩, haccepts, hview⟩ := Option.map_eq_some_iff.mp hview
    obtain ⟨hack, hview⟩ := Prod.mk.inj hview
    obtain ⟨hused, hseq⟩ := Prod.mk.inj hview
    have hrun := Run.of_foldlM hs
    have hring := inv_of_run hrun _ (List.mem_of_getElem? (accepts_eq_some haccepts).2)
    refine ⟨s, i, stream, hrun, haccepts, ?_⟩
    rw [marksExactly_iff hring]
    intro hreach
    have hle := hreach.reported 2 1 hused (by decide) (by rw [hseq]; rfl) (by decide)
    simp only at hack
    rw [reach, hack] at hle
    exact absurd hle (by decide)
  · have hview : (longGap.foldlM step? (new true)).bind (fun s =>
        (s.accepts gapFeedback).map fun found =>
          ((s.ensureInitialized gapFeedback.time_us).markAcked gapFeedback found.2).overshift)
        = some true := by decide +kernel
    obtain ⟨s, hs, hview⟩ := Option.bind_eq_some_iff.mp hview
    obtain ⟨⟨i, stream⟩, haccepts, hview⟩ := Option.map_eq_some_iff.mp hview
    exact ⟨s, i, stream, Run.of_foldlM hs, haccepts, hview⟩

end ScreamTx

end Scream
