import RmcatNs3.Lib.Runs
import RmcatNs3.Lib.SerialNumber
import RmcatNs3.Scream.ScreamTx

/-!
# The ring of transmitted packets

Which cells the loops of `markAcked` and `detectLoss` visit, told by how far a sequence
number lies before the highest one, and what is in the cells: a packet in use sits at its
sequence number modulo the size of the ring, and is not acknowledged between two calls.
-/

namespace Scream

open MachineInt RingScan Runs SerialNumber

/-- What happens to a sender. -/
inductive TxEvent where
  | registerNewStream (ssrc : BitVec 32)
  | newMediaFrame (time_us : Nat) (ssrc : BitVec 32)
  | isOkToTransmit (time_us : Nat) (slow : Bool) (prioritized : Option Nat)
  | addTransmitted (time_us : Nat) (ssrc : BitVec 32) (size : Nat) (seqNr : BitVec 16)
  | incomingFeedback (fb : IncomingFeedback)
  | getTargetBitrate (ssrc : BitVec 32)

namespace ScreamTx

/-- One call; `none` where the code uses a stream that does not exist. -/
def step? (s : ScreamTx) : TxEvent → Option ScreamTx
  | .registerNewStream ssrc => s.registerNewStream ssrc
  | .newMediaFrame time_us ssrc => s.newMediaFrame time_us ssrc
  | .isOkToTransmit time_us slow prioritized => s.isOkToTransmit time_us slow prioritized
  | .addTransmitted time_us ssrc size seqNr => s.addTransmitted time_us ssrc size seqNr
  | .incomingFeedback fb => some (s.incomingFeedback fb)
  | .getTargetBitrate ssrc => s.getTargetBitrate ssrc

def Step (s : ScreamTx) (e : TxEvent) (s' : ScreamTx) : Prop := s.step? e = some s'

end ScreamTx

/-! ## Visited cells -/

section Visited

variable {hiSeqAck highestSeqNr seqNr : BitVec 16}

theorem lastIx_spec (hiSeqAck highestSeqNr : BitVec 16) :
    firstIx hiSeqAck ≤ lastIx hiSeqAck highestSeqNr ∧
      lastIx hiSeqAck highestSeqNr < firstIx hiSeqAck + 2048 ∧
      lastIx hiSeqAck highestSeqNr % 2048 = highestSeqNr.toNat % 2048 := by
  have hmod : highestSeqNr.toNat % 2048 < 2048 := Nat.mod_lt _ (by decide)
  have h := @liftTo_spec 2048 (firstIx hiSeqAck) (firstIx hiSeqAck)
    (highestSeqNr.toNat % 2048) (by decide) (by omega) (by omega)
  rw [Nat.mod_mod] at h
  exact h

/-- Packets are visited up to the first one after the last highest one, where numbers
that are a full ring apart count as the same. -/
theorem mem_scanned : seqNr.toNat % 2048 ∈ scanned hiSeqAck highestSeqNr ↔
    dist seqNr highestSeqNr % 2048 ≤ dist (hiSeqAck + 1) highestSeqNr % 2048 := by
  obtain ⟨hlo, hhi, hmod⟩ := lastIx_spec hiSeqAck highestSeqNr
  have hseq := seqNr.isLt
  have hhighest := highestSeqNr.isLt
  have hack := hiSeqAck.isLt
  have hone : (1 : BitVec 16).toNat = 1 := rfl
  have hback : dist (hiSeqAck + 1) highestSeqNr % 2048
      = lastIx hiSeqAck highestSeqNr - firstIx hiSeqAck := by
    simp only [SerialNumber.dist, BitVec.toNat_sub, BitVec.toNat_add, hone]
    unfold firstIx at hlo hhi ⊢
    omega
  have hdist : dist seqNr highestSeqNr % 2048
      = (highestSeqNr.toNat % 2048 + 2048 - seqNr.toNat % 2048) % 2048 := by
    simp only [SerialNumber.dist, BitVec.toNat_sub]
    omega
  rw [scanned, kMaxTxPackets, mem_slots, hback, hdist]
  constructor
  · intro hvisit
    obtain ⟨m, hm, hm', hn⟩ := hvisit
    omega
  · intro h
    refine ⟨lastIx hiSeqAck highestSeqNr
      - (highestSeqNr.toNat % 2048 + 2048 - seqNr.toNat % 2048) % 2048, ?_, ?_, ?_⟩
    · omega
    · omega
    · omega

theorem highest_scanned : highestSeqNr.toNat % 2048 ∈ scanned hiSeqAck highestSeqNr := by
  rw [mem_scanned, dist_self]
  exact Nat.zero_le _

theorem ackDiff_eq_iff {k : Nat} (hk : k < 65535) :
    ackDiff highestSeqNr seqNr = k ↔ dist seqNr highestSeqNr = k + 1 := by
  have hseq := seqNr.isLt
  have hhighest := highestSeqNr.isLt
  have hone : (1 : BitVec 16).toNat = 1 := rfl
  simp only [ackDiff, SerialNumber.dist, BitVec.toNat_sub, hone]
  omega

end Visited

/-! ## The loop of `markAcked` -/

section Marking

variable {fb : IncomingFeedback} {m : Marking} {n : Nat} {p : Transmitted}

@[simp] theorem markPacket_isUsed : (markPacket fb p).isUsed = p.isUsed := by
  unfold markPacket
  simp only
  split <;> rfl

@[simp] theorem markPacket_seqNr : (markPacket fb p).seqNr = p.seqNr := by
  unfold markPacket
  simp only
  split <;> rfl

@[simp] theorem markPacket_size : (markPacket fb p).size = p.size := by
  unfold markPacket
  simp only
  split <;> rfl

@[simp] theorem markPacket_timeTx_us : (markPacket fb p).timeTx_us = p.timeTx_us := by
  unfold markPacket
  simp only
  split <;> rfl

@[simp] theorem markPacket_isAfterReceivedEdge :
    (markPacket fb p).isAfterReceivedEdge = p.isAfterReceivedEdge := by
  unfold markPacket
  simp only
  split <;> rfl

/-- A packet is marked if the feedback has its number, or a bit for it. The vector has 64
bits, but the test is made for one number more. -/
theorem markPacket_isAcked (hused : p.isUsed = true) :
    (markPacket fb p).isAcked = (p.isAcked ||
      (decide (ackDiff fb.highestSeqNr p.seqNr ≤ 64) && ackBit fb (ackDiff fb.highestSeqNr p.seqNr))
      || decide (p.seqNr = fb.highestSeqNr)) := by
  simp only [markPacket, hused, if_true]
  rfl

theorem markPacket_idem (fb : IncomingFeedback) (p : Transmitted) :
    markPacket fb (markPacket fb p) = markPacket fb p := by
  by_cases hused : p.isUsed = true
  · simp only [markPacket, hused, if_true]
    congr 1
    generalize (decide (ackDiff fb.highestSeqNr p.seqNr ≤ kAckVectorBits)
      && ackBit fb (ackDiff fb.highestSeqNr p.seqNr)) = bit
    generalize decide (p.seqNr = fb.highestSeqNr) = hit
    cases p.isAcked <;> cases bit <;> cases hit <;> rfl
  · simp [markPacket, hused]

theorem markSlot_txPackets :
    (markSlot fb m n).txPackets =
      Function.update m.txPackets n (markPacket fb (m.txPackets n)) := by
  unfold markSlot
  simp only
  split <;> rfl

theorem markSlot_overshift :
    (markSlot fb m n).overshift = (m.overshift || ((m.txPackets n).isUsed &&
      decide (ackDiff fb.highestSeqNr (m.txPackets n).seqNr = 64))) := by
  have h64 : ∀ d : Nat, (decide (d ≤ kAckVectorBits) && decide (d ≥ 64)) = decide (d = 64) := by
    intro d
    rw [← Bool.decide_and]
    congr 1
    simp only [kAckVectorBits, eq_iff_iff]
    omega
  unfold markSlot
  simp only [Bool.and_assoc, h64]
  split <;> rfl

theorem markSlot_timeTxAck_us :
    (markSlot fb m n).timeTxAck_us =
      if (m.txPackets n).isUsed ∧ (m.txPackets n).seqNr = fb.highestSeqNr then
        (m.txPackets n).timeTx_us
      else m.timeTxAck_us := by
  unfold markSlot
  simp only
  split <;> rfl

variable (fb)

theorem markLoop_txPackets (visited : List Nat) (m : Marking) :
    (visited.foldl (markSlot fb) m).txPackets =
      fun n => if n ∈ visited then markPacket fb (m.txPackets n) else m.txPackets n := by
  rw [← foldl_update (markPacket_idem fb)]
  induction visited generalizing m with
  | nil => rfl
  | cons n rest ih =>
      rw [List.foldl_cons, ih, markSlot_txPackets, List.foldl_cons]

theorem markLoop_overshift (visited : List Nat) (m : Marking) :
    (visited.foldl (markSlot fb) m).overshift = true ↔ m.overshift = true ∨
      ∃ n ∈ visited, (m.txPackets n).isUsed = true ∧
        ackDiff fb.highestSeqNr (m.txPackets n).seqNr = 64 := by
  induction visited generalizing m with
  | nil => simp
  | cons n rest ih =>
      -- the turn changes neither which packets are in use nor their numbers
      have hused : ∀ n', ((markSlot fb m n).txPackets n').isUsed = (m.txPackets n').isUsed := by
        intro n'
        rw [markSlot_txPackets]
        by_cases h : n' = n
        · subst h
          simp
        · simp [h]
      have hseq : ∀ n', ((markSlot fb m n).txPackets n').seqNr = (m.txPackets n').seqNr := by
        intro n'
        rw [markSlot_txPackets]
        by_cases h : n' = n
        · subst h
          simp
        · simp [h]
      simp only [List.foldl_cons, ih, markSlot_overshift, hused, hseq, List.mem_cons,
        Bool.or_eq_true, Bool.and_eq_true, decide_eq_true_eq, or_assoc, exists_eq_or_imp]

/-- The packet with the highest number gives the time of the last acknowledged
transmission. -/
theorem markLoop_timeTxAck_us (visited : List Nat) (m : Marking)
    (hring : ∀ n, (m.txPackets n).isUsed = true →
      (m.txPackets n).seqNr = fb.highestSeqNr → n = fb.highestSeqNr.toNat % 2048) :
    (visited.foldl (markSlot fb) m).timeTxAck_us =
      if fb.highestSeqNr.toNat % 2048 ∈ visited ∧
          (m.txPackets (fb.highestSeqNr.toNat % 2048)).isUsed = true ∧
          (m.txPackets (fb.highestSeqNr.toNat % 2048)).seqNr = fb.highestSeqNr then
        (m.txPackets (fb.highestSeqNr.toNat % 2048)).timeTx_us
      else m.timeTxAck_us := by
  induction visited generalizing m with
  | nil => simp
  | cons n rest ih =>
      have hcell : ∀ n', ((markSlot fb m n).txPackets n') = m.txPackets n' ∨
          ((markSlot fb m n).txPackets n') = markPacket fb (m.txPackets n') := by
        intro n'
        rw [markSlot_txPackets]
        by_cases h : n' = n
        · subst h
          simp
        · simp [h]
      have hused : ∀ n', ((markSlot fb m n).txPackets n').isUsed = (m.txPackets n').isUsed := by
        intro n'
        rcases hcell n' with h | h <;> simp [h]
      have hseq : ∀ n', ((markSlot fb m n).txPackets n').seqNr = (m.txPackets n').seqNr := by
        intro n'
        rcases hcell n' with h | h <;> simp [h]
      have htime : ∀ n',
          ((markSlot fb m n).txPackets n').timeTx_us = (m.txPackets n').timeTx_us := by
        intro n'
        rcases hcell n' with h | h <;> simp [h]
      rw [List.foldl_cons, ih _ (by simpa only [hused, hseq] using hring),
        markSlot_timeTxAck_us]
      simp only [hused, hseq, htime, List.mem_cons]
      by_cases hhit : (m.txPackets n).isUsed = true ∧ (m.txPackets n).seqNr = fb.highestSeqNr
      · have hn := hring n hhit.1 hhit.2
        subst hn
        simp [hhit]
      · by_cases hn : fb.highestSeqNr.toNat % 2048 = n
        · rw [hn]
          simp [hhit]
        · simp [hhit, hn]

end Marking

/-! ## The loops of `detectLoss` -/

section Detecting

variable {d : Detection} {n : Nat} {raises : Bool}

/-- What a turn of the first loop does to a packet. -/
def Transmitted.dropped (p : Transmitted) : Transmitted := { p with isUsed := false }

theorem Transmitted.dropped_of_unused {p : Transmitted} (h : p.isUsed = false) :
    p.dropped = p := by
  unfold Transmitted.dropped
  rw [← h]

theorem sweepSlot_txPackets : (sweepSlot raises d n).txPackets =
    Function.update d.txPackets n (d.txPackets n).dropped := by
  unfold sweepSlot
  by_cases hused : (d.txPackets n).isUsed = true
  · rw [if_pos hused]
    rfl
  · rw [if_neg hused, Transmitted.dropped_of_unused (by simpa using hused),
      Function.update_eq_self]

theorem sweepLoop_txPackets (raises : Bool) (visited : List Nat) (d : Detection) :
    (visited.foldl (sweepSlot raises) d).txPackets =
      fun n => if n ∈ visited then (d.txPackets n).dropped else d.txPackets n := by
  rw [← foldl_update (show ∀ p : Transmitted, p.dropped.dropped = p.dropped from fun _ => rfl)]
  induction visited generalizing d with
  | nil => rfl
  | cons n rest ih => rw [List.foldl_cons, ih, sweepSlot_txPackets, List.foldl_cons]

/-- The packet is after the received edge, if it lies before it. -/
def Transmitted.passed (highestSeqNr : BitVec 16) (p : Transmitted) : Transmitted :=
  { p with isAfterReceivedEdge := p.isAfterReceivedEdge || beforeEdge highestSeqNr p.seqNr }

/-- What a turn of the second loop does to a packet: it passes the edge, and leaves the ring
if it is acknowledged or late. -/
def scanPacket (highestSeqNr : BitVec 16) (timeTxAck_us : Nat) (p : Transmitted) :
    Transmitted :=
  if p.isUsed then
    if isLate timeTxAck_us p || p.isAcked then (p.passed highestSeqNr).dropped
    else p.passed highestSeqNr
  else p

variable {highestSeqNr : BitVec 16} {timeTxAck_us : Nat}

theorem passed_idem (p : Transmitted) :
    (p.passed highestSeqNr).passed highestSeqNr = p.passed highestSeqNr := by
  simp [Transmitted.passed]

theorem scanPacket_idem (p : Transmitted) :
    scanPacket highestSeqNr timeTxAck_us (scanPacket highestSeqNr timeTxAck_us p) =
      scanPacket highestSeqNr timeTxAck_us p := by
  by_cases hused : p.isUsed = true
  · by_cases hgone : (isLate timeTxAck_us p || p.isAcked) = true
    · have hone : scanPacket highestSeqNr timeTxAck_us p = (p.passed highestSeqNr).dropped := by
        simp only [scanPacket, hused, hgone, if_true]
      rw [hone]
      rfl
    · have hone : scanPacket highestSeqNr timeTxAck_us p = p.passed highestSeqNr := by
        simp only [scanPacket, hused, hgone, if_true, if_false, Bool.false_eq_true]
      rw [hone]
      have hused' : (p.passed highestSeqNr).isUsed = true := hused
      have hgone' : ¬ (isLate timeTxAck_us (p.passed highestSeqNr)
          || (p.passed highestSeqNr).isAcked) = true := hgone
      simp only [scanPacket, hused', hgone', if_true, if_false, Bool.false_eq_true, passed_idem]
  · simp [scanPacket, hused]

theorem passEdge_txPackets : (d.passEdge highestSeqNr n).txPackets =
    Function.update d.txPackets n ((d.txPackets n).passed highestSeqNr) := by
  unfold Detection.passEdge Transmitted.passed
  simp only
  split
  · rename_i h
    simp [h.1]
  · rename_i h
    have hsame : ((d.txPackets n).isAfterReceivedEdge ||
        beforeEdge highestSeqNr (d.txPackets n).seqNr) = (d.txPackets n).isAfterReceivedEdge := by
      cases hedge : (d.txPackets n).isAfterReceivedEdge <;> simp_all
    rw [hsame, Function.update_eq_self]

theorem passEdge_cell :
    (d.passEdge highestSeqNr n).txPackets n = (d.txPackets n).passed highestSeqNr := by
  rw [passEdge_txPackets, Function.update_self]

/-- A turn of the second loop: an unused cell is skipped, a late packet is lost, an
acknowledged one leaves the ring, and any other one stays. -/
theorem scanSlot_eq : scanSlot highestSeqNr timeTxAck_us raises d n =
    if (d.txPackets n).isUsed then
      if isLate timeTxAck_us (d.txPackets n) ∧ (d.txPackets n).isAcked = false then
        (d.passEdge highestSeqNr n).lose raises n
      else if (d.txPackets n).isAcked then
        { d.passEdge highestSeqNr n with
          txPackets := Function.update d.txPackets n
            ((d.txPackets n).passed highestSeqNr).dropped }
      else d.passEdge highestSeqNr n
    else d := by
  unfold scanSlot
  by_cases hused : (d.txPackets n).isUsed = true
  · have hlate : isLate timeTxAck_us ((d.txPackets n).passed highestSeqNr)
        = isLate timeTxAck_us (d.txPackets n) := rfl
    have hacked : ((d.txPackets n).passed highestSeqNr).isAcked = (d.txPackets n).isAcked := rfl
    simp only [hused, if_true, passEdge_cell, hlate, hacked]
    rw [passEdge_txPackets, Function.update_idem]
    rfl
  · simp only [hused, if_false, Bool.false_eq_true]

theorem scanSlot_txPackets : (scanSlot highestSeqNr timeTxAck_us raises d n).txPackets =
    Function.update d.txPackets n (scanPacket highestSeqNr timeTxAck_us (d.txPackets n)) := by
  rw [scanSlot_eq]
  unfold scanPacket
  by_cases hused : (d.txPackets n).isUsed = true
  · simp only [hused, if_true]
    by_cases hacked : (d.txPackets n).isAcked = true
    · simp [hacked]
    · by_cases hlate : isLate timeTxAck_us (d.txPackets n) = true
      · simp only [hlate, hacked, Bool.true_or, if_true, true_and, Detection.lose]
        rw [passEdge_cell, passEdge_txPackets, Function.update_idem]
        rfl
      · simp [hlate, hacked, passEdge_txPackets]
  · simp only [hused, if_false, Bool.false_eq_true, Function.update_eq_self]

theorem scanLoop_txPackets (highestSeqNr : BitVec 16) (timeTxAck_us : Nat) (raises : Bool)
    (visited : List Nat) (d : Detection) :
    (visited.foldl (scanSlot highestSeqNr timeTxAck_us raises) d).txPackets =
      fun n => if n ∈ visited then scanPacket highestSeqNr timeTxAck_us (d.txPackets n)
        else d.txPackets n := by
  rw [← foldl_update scanPacket_idem]
  induction visited generalizing d with
  | nil => rfl
  | cons n rest ih => rw [List.foldl_cons, ih, scanSlot_txPackets, List.foldl_cons]

/-- The ring after `markAcked` and `detectLoss`. -/
def detectedRing (fb : IncomingFeedback) (stream : TxStream) (timeTxAck_us : Nat) : Ring :=
  fun n =>
    let marked := if n ∈ scanned stream.hiSeqAck fb.highestSeqNr then
        markPacket fb (stream.txPackets n) else stream.txPackets n
    let p := if n ∈ swept stream.lastLossDetectIx stream.hiSeqAck then marked.dropped else marked
    if n ∈ scanned stream.hiSeqAck fb.highestSeqNr then
      scanPacket fb.highestSeqNr timeTxAck_us p else p

end Detecting

/-! ## The contents of rings -/

/-- A packet in use is in the cell of its number, and is not acknowledged. -/
def RingInv (ring : Ring) : Prop :=
  ∀ n, (ring n).isUsed = true → (ring n).seqNr.toNat % 2048 = n ∧ (ring n).isAcked = false

theorem RingInv.clear {stream : TxStream} : RingInv stream.clearTxPackets.txPackets :=
  fun _ => nofun

theorem RingInv.insert {ring : Ring} (h : RingInv ring) {p : Transmitted}
    (hacked : p.isAcked = false) :
    RingInv (Function.update ring (p.seqNr.toNat % 2048) p) := by
  intro n hused
  by_cases hn : n = p.seqNr.toNat % 2048
  · subst hn
    rw [Function.update_self] at hused ⊢
    exact ⟨rfl, hacked⟩
  · rw [Function.update_of_ne hn] at hused ⊢
    exact h n hused

theorem RingInv.detected {stream : TxStream} (h : RingInv stream.txPackets)
    (fb : IncomingFeedback) (timeTxAck_us : Nat) :
    RingInv (detectedRing fb stream timeTxAck_us) := by
  intro n
  unfold detectedRing
  simp only
  by_cases hswept : n ∈ swept stream.lastLossDetectIx stream.hiSeqAck
  · intro hused
    by_cases hscan : n ∈ scanned stream.hiSeqAck fb.highestSeqNr
    · simp [hswept, hscan, Transmitted.dropped, scanPacket] at hused
    · simp [hswept, hscan, Transmitted.dropped] at hused
  · by_cases hscan : n ∈ scanned stream.hiSeqAck fb.highestSeqNr
    · -- a packet that stays in use was used and is not acknowledged
      simp only [hswept, hscan, if_true, if_false, scanPacket]
      intro hused
      by_cases hold : (stream.txPackets n).isUsed = true
      · rw [markPacket_isUsed, if_pos hold] at hused ⊢
        split at hused
        · exact absurd hused nofun
        · rename_i hgone
          simp only [Bool.or_eq_true, not_or, Bool.not_eq_true] at hgone
          rw [if_neg (by simp [hgone])]
          refine ⟨?_, hgone.2⟩
          have hseq := (h n hold).1
          rw [← @markPacket_seqNr fb] at hseq
          exact hseq
      · rw [markPacket_isUsed, if_neg hold, markPacket_isUsed] at hused
        exact absurd hused hold
    · simp only [hswept, hscan, if_false]
      exact h n

/-! ## All rings -/

namespace ScreamTx

/-- The rings of all streams. -/
def rings (s : ScreamTx) : List Ring := s.streams.map TxStream.txPackets

variable {s s' : ScreamTx}

@[simp] theorem ensureInitialized_streams (s : ScreamTx) (time_us : Nat) :
    (s.ensureInitialized time_us).streams = s.streams := by
  unfold ensureInitialized
  split <;> rfl

@[simp] theorem ensureInitialized_bytesInFlight (s : ScreamTx) (time_us : Nat) :
    (s.ensureInitialized time_us).bytesInFlight = s.bytesInFlight := by
  unfold ensureInitialized
  split <;> rfl

@[simp] theorem ensureInitialized_rings (s : ScreamTx) (time_us : Nat) :
    (s.ensureInitialized time_us).rings = s.rings := by
  simp [rings]

theorem getStream_eq_some {ssrc : BitVec 32} {i : Nat} {stream : TxStream}
    (h : s.getStream ssrc = some (i, stream)) : s.streams[i]? = some stream := by
  obtain ⟨j, _, hj⟩ := Option.bind_eq_some_iff.mp h
  obtain ⟨stream', hstream, heq⟩ := Option.map_eq_some_iff.mp hj
  obtain ⟨rfl, rfl⟩ := Prod.mk.inj heq
  exact hstream

theorem rings_getElem? {i : Nat} {stream : TxStream} (h : s.streams[i]? = some stream) :
    s.rings[i]? = some stream.txPackets := by
  rw [rings, List.getElem?_map, h, Option.map_some]

theorem setStream_rings (s : ScreamTx) (i : Nat) (stream : TxStream) :
    (s.setStream i stream).rings = s.rings.set i stream.txPackets := by
  simp [rings, setStream, List.map_set]

theorem set_of_getElem? {α : Type} {l : List α} {i : Nat} {a : α} (h : l[i]? = some a) :
    l.set i a = l := by
  obtain ⟨hi, rfl⟩ := List.getElem?_eq_some_iff.mp h
  exact List.set_getElem_self hi

theorem updateRates_rings (s : ScreamTx) (time_us : Nat) (slow : Bool) :
    (s.updateRates time_us slow).rings = s.rings := by
  unfold updateRates rings
  split
  · rw [List.map_map]
    rfl
  · rfl

theorem noteEvents_rings (s : ScreamTx) (time_us : Nat) :
    (s.noteEvents time_us).rings = s.rings := by
  have hring : TxStream.txPackets ∘ TxStream.noteEvent s.lossEvent = TxStream.txPackets := by
    funext stream
    cases hloss : s.lossEvent <;> rfl
  unfold noteEvents rings
  split
  · rw [List.map_map, hring]
  · rfl

theorem handleEvents_rings (s : ScreamTx) (time_us : Nat) :
    (s.handleEvents time_us).rings = s.rings := by
  rw [← noteEvents_rings s time_us]
  unfold handleEvents
  simp only
  split <;> split <;> rfl

theorem handleEvents_bytesInFlight (s : ScreamTx) (time_us : Nat) :
    (s.handleEvents time_us).bytesInFlight = s.bytesInFlight := by
  have hnote : (s.noteEvents time_us).bytesInFlight = s.bytesInFlight := by
    unfold noteEvents
    split <;> rfl
  rw [← hnote]
  unfold handleEvents
  simp only
  split <;> split <;> rfl

theorem markAcked_txPackets (s : ScreamTx) (fb : IncomingFeedback) (stream : TxStream) :
    (s.markAcked fb stream).txPackets = fun n =>
      if n ∈ scanned stream.hiSeqAck fb.highestSeqNr then markPacket fb (stream.txPackets n)
      else stream.txPackets n :=
  markLoop_txPackets fb _ _

theorem detectLoss_txPackets (s : ScreamTx) (fb : IncomingFeedback) (stream : TxStream) :
    (s.detectLoss fb stream (s.markAcked fb stream)).txPackets =
      detectedRing fb stream (s.markAcked fb stream).timeTxAck_us := by
  unfold detectLoss
  simp only [scanLoop_txPackets, sweepLoop_txPackets, markAcked_txPackets]
  rfl

theorem applyFeedback_rings (s : ScreamTx) (fb : IncomingFeedback) (i : Nat)
    (stream : TxStream) :
    (s.applyFeedback fb i stream).rings =
      s.rings.set i (detectedRing fb stream (s.markAcked fb stream).timeTxAck_us) := by
  unfold applyFeedback
  simp only [handleEvents_rings]
  rw [← detectLoss_txPackets]
  exact setStream_rings s i _

/-- The invariant of a sender: of every ring. -/
def Inv (s : ScreamTx) : Prop := ∀ ring ∈ s.rings, RingInv ring

/-! ## What calls do to the rings -/

/-- The timeout that lets `isOkToTransmit` give up what is in flight. -/
def TimesOut (s : ScreamTx) (time_us : Nat) (prioritized : Option Nat) : Prop :=
  prioritized.isSome ∧
    timeSince time_us (s.ensureInitialized time_us).lastTransmitT_us > 500000 ∧
    (s.ensureInitialized time_us).lastTransmitT_us < time_us

/-- `addTransmitted` finds its cell in use. -/
def Collides (stream : TxStream) (seqNr : BitVec 16) : Prop :=
  (stream.txPackets (seqNr.toNat % 2048)).isUsed = true

theorem registerNewStream_eq {ssrc : BitVec 32} (h : s.registerNewStream ssrc = some s') :
    s'.rings = s.rings ++ [fun _ => .unused] ∧ s'.bytesInFlight = s.bytesInFlight := by
  unfold registerNewStream at h
  split at h
  · obtain rfl := Option.some.inj h
    exact ⟨by simp [rings, TxStream.new], rfl⟩
  · exact absurd h nofun

theorem newMediaFrame_eq {time_us : Nat} {ssrc : BitVec 32}
    (h : s.newMediaFrame time_us ssrc = some s') :
    s'.rings = s.rings ∧ s'.bytesInFlight = s.bytesInFlight := by
  obtain ⟨⟨i, stream⟩, hfound, rfl⟩ := Option.map_eq_some_iff.mp h
  have hring := rings_getElem? (getStream_eq_some hfound)
  constructor
  · rw [setStream_rings, set_of_getElem? hring, ensureInitialized_rings]
  · exact ensureInitialized_bytesInFlight s time_us

theorem getTargetBitrate_eq {ssrc : BitVec 32} (h : s.getTargetBitrate ssrc = some s') :
    s'.rings = s.rings ∧ s'.bytesInFlight = s.bytesInFlight := by
  obtain ⟨⟨i, stream⟩, hfound, rfl⟩ := Option.map_eq_some_iff.mp h
  have hring := rings_getElem? (getStream_eq_some hfound)
  constructor
  · rw [setStream_rings, set_of_getElem? hring]
  · rfl

/-- `isOkToTransmit` changes nothing, or clears the ring of the stream on a timeout. -/
theorem isOkToTransmit_eq {time_us : Nat} {slow : Bool} {prioritized : Option Nat}
    (h : s.isOkToTransmit time_us slow prioritized = some s') :
    (¬ s.TimesOut time_us prioritized ∧ s'.rings = s.rings ∧
      s'.bytesInFlight = s.bytesInFlight) ∨
    (s.TimesOut time_us prioritized ∧ ∃ (i : Nat) (stream : TxStream), prioritized = some i ∧
      s.rings[i]? = some stream.txPackets ∧
      s'.rings = s.rings.set i stream.clearTxPackets.txPackets ∧ s'.bytesInFlight = 0) := by
  have hrings := updateRates_rings (s.ensureInitialized time_us) time_us slow
  have hbytes : ((s.ensureInitialized time_us).updateRates time_us slow).bytesInFlight
      = s.bytesInFlight := by
    rw [← ensureInitialized_bytesInFlight s time_us]
    unfold updateRates
    split <;> rfl
  have hlast : ((s.ensureInitialized time_us).updateRates time_us slow).lastTransmitT_us
      = (s.ensureInitialized time_us).lastTransmitT_us := by
    unfold updateRates
    split <;> rfl
  rw [ensureInitialized_rings] at hrings
  unfold isOkToTransmit at h
  cases prioritized with
  | none =>
      obtain rfl := Option.some.inj h
      exact .inl ⟨fun hout => absurd hout.1 nofun, hrings, hbytes⟩
  | some i =>
      obtain ⟨stream, hstream, hrest⟩ := Option.bind_eq_some_iff.mp h
      rw [hlast] at hrest
      split at hrest
      · rename_i hout
        obtain rfl := Option.some.inj hrest
        refine .inr ⟨⟨rfl, hout⟩, i, stream, rfl, ?_, ?_, rfl⟩
        · rw [← hrings]
          exact rings_getElem? hstream
        · rw [← hrings]
          exact setStream_rings _ i _
      · rename_i hout
        obtain rfl := Option.some.inj hrest
        exact .inl ⟨fun h => hout h.2, hrings, hbytes⟩

/-- `addTransmitted` puts the packet into its cell, and clears the ring before if the
cell is in use. -/
theorem addTransmitted_eq {time_us size : Nat} {ssrc : BitVec 32} {seqNr : BitVec 16}
    (h : s.addTransmitted time_us ssrc size seqNr = some s') :
    ∃ i stream p, (s.ensureInitialized time_us).getStream ssrc = some (i, stream) ∧
      s.rings[i]? = some stream.txPackets ∧
      p.seqNr = seqNr ∧ p.size = size ∧ p.isUsed = true ∧ p.isAcked = false ∧
      p.isAfterReceivedEdge = false ∧
      ((Collides stream seqNr ∧ s'.bytesInFlight = size ∧ s'.rings = s.rings.set i
        (Function.update stream.clearTxPackets.txPackets (seqNr.toNat % 2048) p)) ∨
      (¬ Collides stream seqNr ∧ s'.bytesInFlight = s.bytesInFlight + size ∧
        s'.rings = s.rings.set i
          (Function.update stream.txPackets (seqNr.toNat % 2048) p))) := by
  obtain ⟨⟨i, stream⟩, hfound, hrest⟩ := Option.bind_eq_some_iff.mp h
  obtain rfl := Option.some.inj hrest
  have hring := rings_getElem? (getStream_eq_some hfound)
  rw [ensureInitialized_rings] at hring
  refine ⟨i, stream, ⟨time_us, toUnsigned 32 (time_us / 1000 : Nat), size, seqNr, true, false,
    false⟩, hfound, hring, rfl, rfl, rfl, rfl, rfl, ?_⟩
  by_cases hcollides : (stream.txPackets (seqNr.toNat % 2048)).isUsed = true
  · left
    refine ⟨hcollides, ?_, ?_⟩
    · simp [kMaxTxPackets, hcollides]
    · simp only [kMaxTxPackets, hcollides, if_true]
      rw [← ensureInitialized_rings s time_us]
      exact setStream_rings _ i _
  · right
    refine ⟨hcollides, ?_, ?_⟩
    · simp [kMaxTxPackets, hcollides]
    · simp only [kMaxTxPackets, hcollides, if_false, Bool.false_eq_true]
      rw [← ensureInitialized_rings s time_us]
      exact setStream_rings _ i _

theorem accepts_eq_some {fb : IncomingFeedback} {i : Nat} {stream : TxStream}
    (h : s.accepts fb = some (i, stream)) :
    s.streams[i]? = some stream ∧ s.rings[i]? = some stream.txPackets := by
  obtain ⟨hfound, _⟩ := Option.filter_eq_some_iff.mp h
  have hstream := getStream_eq_some hfound
  rw [ensureInitialized_streams] at hstream
  exact ⟨hstream, rings_getElem? hstream⟩

/-- A feedback is ignored, or goes through the ring of its stream. -/
theorem incomingFeedback_rings (s : ScreamTx) (fb : IncomingFeedback) :
    (s.incomingFeedback fb).rings = s.rings ∨
      ∃ i stream timeTxAck_us, s.rings[i]? = some stream.txPackets ∧
        (s.incomingFeedback fb).rings =
          s.rings.set i (detectedRing fb stream timeTxAck_us) := by
  unfold incomingFeedback
  split
  · exact .inl (ensureInitialized_rings s fb.time_us)
  · rename_i i stream haccepts
    have hrings := applyFeedback_rings (s.ensureInitialized fb.time_us) fb i stream
    rw [ensureInitialized_rings] at hrings
    exact .inr ⟨i, stream, _, (accepts_eq_some haccepts).2, hrings⟩

theorem Inv.set (h : s.Inv) {i : Nat} {ring : Ring} (hring : RingInv ring)
    (hs' : s'.rings = s.rings.set i ring) : s'.Inv := by
  intro ring' hmem
  rw [hs'] at hmem
  rcases List.mem_or_eq_of_mem_set hmem with hmem | rfl
  · exact h ring' hmem
  · exact hring

/-- **Every call keeps the rings in order.** -/
theorem Inv.step (h : s.Inv) {e : TxEvent} (hstep : s.Step e s') : s'.Inv := by
  have hsame : s'.rings = s.rings → s'.Inv := by
    intro heq ring hmem
    exact h ring (heq ▸ hmem)
  cases e with
  | registerNewStream ssrc =>
      have hrings := (registerNewStream_eq hstep).1
      intro ring hmem
      rw [hrings] at hmem
      rcases List.mem_append.mp hmem with hmem | hmem
      · exact h ring hmem
      · obtain rfl := List.mem_singleton.mp hmem
        exact fun _ => nofun
  | newMediaFrame time_us ssrc => exact hsame (newMediaFrame_eq hstep).1
  | isOkToTransmit time_us slow prioritized =>
      rcases isOkToTransmit_eq hstep with ⟨_, hrings, _⟩ | ⟨_, i, stream, _, _, hrings, _⟩
      · exact hsame hrings
      · exact h.set .clear hrings
  | addTransmitted time_us ssrc size seqNr =>
      obtain ⟨i, stream, p, _, hring, hseq, _, _, hacked, _, hcases⟩ := addTransmitted_eq hstep
      subst hseq
      rcases hcases with ⟨_, _, hrings⟩ | ⟨_, _, hrings⟩
      · exact h.set (RingInv.clear.insert hacked) hrings
      · exact h.set ((h _ (List.mem_of_getElem? hring)).insert hacked) hrings
  | incomingFeedback fb =>
      obtain rfl := Option.some.inj hstep
      rcases incomingFeedback_rings s fb with hrings | ⟨i, stream, time, hring, hrings⟩
      · exact hsame hrings
      · exact h.set ((h _ (List.mem_of_getElem? hring)).detected fb time) hrings
  | getTargetBitrate ssrc => exact hsame (getTargetBitrate_eq hstep).1

theorem new_inv (lossBetaBelowOne : Bool) : (new lossBetaBelowOne).Inv := nofun

/-- The rings are in order after every run. -/
theorem inv_of_run {lossBetaBelowOne : Bool} {es : List TxEvent}
    (hrun : Run Step (new lossBetaBelowOne) es s) : s.Inv :=
  hrun.stateInvariant (new_inv lossBetaBelowOne) fun _ _ _ h hstep => h.step hstep

end ScreamTx

end Scream
