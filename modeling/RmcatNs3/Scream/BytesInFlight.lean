import Mathlib.Algebra.BigOperators.Group.Finset.Basic
import Mathlib.Algebra.Order.BigOperators.Group.Finset
import RmcatNs3.Scream.LossDetection

/-!
# Bytes in flight

One counter for all streams, next to rings that are the streams' own. The counter is right
except after it was reset because of one stream while others had packets in flight, and
after a packet was taken out of its ring that had not passed the received edge.
-/

namespace Scream

open MachineInt RingScan SerialNumber Runs

/-! ## Packets in flight -/

/-- The size of a packet in use that is not at or before the received edge. -/
def pending (p : Transmitted) : Int :=
  if p.isUsed = true ∧ p.isAfterReceivedEdge = false then p.size else 0

def inFlight (ring : Ring) : Int := ∑ n ∈ Finset.range 2048, pending (ring n)

section Rings

variable {ring : Ring} {n : Nat} {p : Transmitted}

theorem pending_nonneg (p : Transmitted) : 0 ≤ pending p := by
  unfold pending
  split
  · exact Int.natCast_nonneg _
  · exact le_refl _

theorem inFlight_nonneg (ring : Ring) : 0 ≤ inFlight ring :=
  Finset.sum_nonneg fun n _ => pending_nonneg (ring n)

theorem pending_le_inFlight (hn : n < 2048) : pending (ring n) ≤ inFlight ring :=
  Finset.single_le_sum (fun m _ => pending_nonneg (ring m)) (Finset.mem_range.mpr hn)

/-- One cell is changed. -/
theorem inFlight_update (hn : n < 2048) :
    inFlight (Function.update ring n p) = inFlight ring - pending (ring n) + pending p := by
  have hmem := Finset.mem_range.mpr hn
  unfold inFlight
  rw [← Finset.add_sum_erase _ _ hmem, ← Finset.add_sum_erase _ (fun m => pending (ring m)) hmem,
    Function.update_self]
  have hrest : ∑ m ∈ (Finset.range 2048).erase n, pending (Function.update ring n p m)
      = ∑ m ∈ (Finset.range 2048).erase n, pending (ring m) := by
    apply Finset.sum_congr rfl
    intro m hm
    rw [Function.update_of_ne (Finset.ne_of_mem_erase hm)]
  rw [hrest]
  ring

theorem inFlight_congr {ring' : Ring} (h : ∀ n, pending (ring' n) = pending (ring n)) :
    inFlight ring' = inFlight ring :=
  Finset.sum_congr rfl fun n _ => h n

theorem inFlight_unused (h : ∀ n, (ring n).isUsed = false) : inFlight ring = 0 := by
  apply Finset.sum_eq_zero
  intro n _
  simp [pending, h n]

end Rings

namespace ScreamTx

/-- The bytes in flight of all streams. -/
def total (s : ScreamTx) : Int := (s.rings.map inFlight).sum

/-- The bytes in flight of the streams other than the one at position `i`. -/
def others (s : ScreamTx) (i : Nat) : Int := ((s.rings.map inFlight).eraseIdx i).sum

/-- `bytesInFlight` is what the rings say. -/
def Accounted (s : ScreamTx) : Prop := s.bytesInFlight = s.total

variable {s s' : ScreamTx} {i : Nat} {ring : Ring}

theorem total_eq (h : s.rings[i]? = some ring) : s.total = inFlight ring + s.others i := by
  obtain ⟨hi, hring⟩ := List.getElem?_eq_some_iff.mp h
  have hi' : i < (s.rings.map inFlight).length := by simpa using hi
  have hsum := List.CommMonoid.add_sum_eraseIdx hi'
  rw [List.getElem_map, hring] at hsum
  exact hsum.symm

theorem total_set {ring' : Ring} (h : s.rings[i]? = some ring)
    (hs' : s'.rings = s.rings.set i ring') : s'.total = inFlight ring' + s.others i := by
  obtain ⟨hi, _⟩ := List.getElem?_eq_some_iff.mp h
  have hnew : s'.rings[i]? = some ring' := by rw [hs', List.getElem?_set_self hi]
  have hothers : s'.others i = s.others i := by
    rw [others, others, hs', List.map_set, List.eraseIdx_set_eq]
  rw [total_eq hnew, hothers]

theorem others_nonneg (s : ScreamTx) (i : Nat) : 0 ≤ s.others i := by
  apply List.sum_nonneg
  intro x hx
  obtain ⟨ring, _, rfl⟩ := List.mem_map.mp (List.mem_of_mem_eraseIdx hx)
  exact inFlight_nonneg ring

end ScreamTx

/-! ## The loops of `detectLoss` -/

section Loops

variable {d : Detection} {n : Nat} {raises : Bool} {rest : Int}

/-- By how much the counter exceeds what is in flight, with `rest` bytes elsewhere. -/
def surplus (rest : Int) (d : Detection) : Int :=
  d.bytesInFlight - rest - inFlight d.txPackets

theorem sweepSlot_bytesInFlight :
    (sweepSlot raises d n).bytesInFlight = d.bytesInFlight ∧
      (sweepSlot raises d n).clamped = d.clamped := by
  unfold sweepSlot
  split <;> exact ⟨rfl, rfl⟩

theorem pending_dropped (p : Transmitted) : pending p.dropped = 0 := by
  simp [pending, Transmitted.dropped]

/-- A dropped packet that was in flight is still counted. -/
theorem surplus_sweepSlot (hn : n < 2048) :
    surplus rest (sweepSlot raises d n) = surplus rest d + pending (d.txPackets n) := by
  unfold surplus
  rw [sweepSlot_bytesInFlight.1, sweepSlot_txPackets, inFlight_update hn, pending_dropped]
  ring

variable {highestSeqNr : BitVec 16} {timeTxAck_us : Nat}

/-- What a turn of the second loop takes out of the ring without subtracting it. -/
def uncounted (highestSeqNr : BitVec 16) (timeTxAck_us : Nat) (p : Transmitted) : Int :=
  if isLate timeTxAck_us p || p.isAcked then pending (p.passed highestSeqNr) else 0

theorem uncounted_nonneg (p : Transmitted) : 0 ≤ uncounted highestSeqNr timeTxAck_us p := by
  unfold uncounted
  split
  · exact pending_nonneg _
  · exact le_refl _

theorem uncounted_dropped (p : Transmitted) :
    uncounted highestSeqNr timeTxAck_us p.dropped = 0 := by
  unfold uncounted
  split
  · simp [pending, Transmitted.passed, Transmitted.dropped]
  · rfl

theorem uncounted_scanPacket (p : Transmitted) :
    uncounted highestSeqNr timeTxAck_us (scanPacket highestSeqNr timeTxAck_us p) = 0 := by
  unfold uncounted scanPacket
  by_cases hused : p.isUsed = true
  · rw [if_pos hused]
    by_cases hgone : (isLate timeTxAck_us p || p.isAcked) = true
    · rw [if_pos hgone]
      split
      · simp [pending, Transmitted.passed, Transmitted.dropped]
      · rfl
    · rw [if_neg hgone]
      exact if_neg hgone
  · rw [if_neg hused]
    split
    · simp [pending, Transmitted.passed, hused]
    · rfl

/-- The packet that passes the edge is subtracted, and the counter covers it. -/
theorem surplus_passEdge (hn : n < 2048) (hused : (d.txPackets n).isUsed = true)
    (hrest : 0 ≤ rest) (h0 : 0 ≤ surplus rest d) :
    surplus rest (d.passEdge highestSeqNr n) = surplus rest d ∧
      (d.passEdge highestSeqNr n).clamped = d.clamped := by
  have hle := @pending_le_inFlight d.txPackets n hn
  unfold surplus at h0 ⊢
  rw [passEdge_txPackets, inFlight_update hn]
  unfold Detection.passEdge
  simp only
  by_cases hpass : beforeEdge highestSeqNr (d.txPackets n).seqNr = true ∧
      (d.txPackets n).isAfterReceivedEdge = false
  · have hpending : pending (d.txPackets n) = (d.txPackets n).size := by
      simp [pending, hused, hpass.2]
    have hpassed : pending ((d.txPackets n).passed highestSeqNr) = 0 := by
      simp [pending, Transmitted.passed, hpass.1]
    have hcovered : 0 ≤ d.bytesInFlight - (d.txPackets n).size := by omega
    rw [if_pos hpass, hpending, hpassed]
    constructor
    · simp only [max_eq_right hcovered]
      ring
    · simp only
      have hnot : ¬ d.bytesInFlight - (d.txPackets n).size < 0 := by omega
      simp [hnot]
  · have hsame : pending ((d.txPackets n).passed highestSeqNr) = pending (d.txPackets n) := by
      unfold pending Transmitted.passed
      cases hedge : (d.txPackets n).isAfterReceivedEdge <;> simp_all
    rw [if_neg hpass, hsame]
    constructor
    · ring
    · rfl

theorem surplus_scanSlot (hn : n < 2048) (hrest : 0 ≤ rest) (h0 : 0 ≤ surplus rest d) :
    surplus rest (scanSlot highestSeqNr timeTxAck_us raises d n) =
        surplus rest d + uncounted highestSeqNr timeTxAck_us (d.txPackets n) ∧
      (scanSlot highestSeqNr timeTxAck_us raises d n).clamped = d.clamped := by
  rw [scanSlot_eq]
  unfold uncounted
  by_cases hused : (d.txPackets n).isUsed = true
  · obtain ⟨hpass, hclamped⟩ := @surplus_passEdge d n rest highestSeqNr hn hused hrest h0
    -- dropping the packet adds to the surplus what it still has in flight
    have hdrop : ∀ d' : Detection, d'.bytesInFlight = (d.passEdge highestSeqNr n).bytesInFlight →
        d'.txPackets = Function.update (d.passEdge highestSeqNr n).txPackets n
          ((d.txPackets n).passed highestSeqNr).dropped →
        surplus rest d' = surplus rest d + pending ((d.txPackets n).passed highestSeqNr) := by
      intro d' hbytes hcells
      rw [← hpass]
      unfold surplus
      rw [hbytes, hcells, inFlight_update hn, passEdge_cell, pending_dropped]
      ring
    rw [if_pos hused]
    by_cases hacked : (d.txPackets n).isAcked = true
    · simp only [hacked, Bool.true_eq_false, and_false, if_false, if_true, Bool.or_true]
      refine ⟨hdrop _ rfl ?_, hclamped⟩
      rw [passEdge_txPackets, Function.update_idem]
    · by_cases hlate : isLate timeTxAck_us (d.txPackets n) = true
      · simp only [hlate, hacked, and_self, if_true, Bool.true_or]
        refine ⟨hdrop _ rfl ?_, hclamped⟩
        unfold Detection.lose
        simp only [passEdge_cell]
        rfl
      · simp only [hlate, hacked, false_and, if_false, Bool.or_self, Bool.false_eq_true,
          add_zero]
        exact ⟨hpass, hclamped⟩
  · rw [if_neg hused]
    have hnone : pending ((d.txPackets n).passed highestSeqNr) = 0 := by
      simp [pending, Transmitted.passed, hused]
    rw [hnone, ite_self, add_zero]
    exact ⟨rfl, rfl⟩

/-- Turns that add to the surplus what they take out of the ring uncounted: afterwards there
is none exactly if there was none before and no visited packet is taken out so. -/
theorem surplus_loop {turn : Detection → Nat → Detection} {g : Transmitted → Transmitted}
    {u : Transmitted → Int} (hpos : ∀ p, 0 ≤ u p) (hdone : ∀ p, u (g p) = 0)
    (hcells : ∀ d n, (turn d n).txPackets = Function.update d.txPackets n (g (d.txPackets n)))
    (hturn : ∀ d n, n < 2048 → 0 ≤ surplus rest d →
      surplus rest (turn d n) = surplus rest d + u (d.txPackets n) ∧
        (turn d n).clamped = d.clamped)
    (visited : List Nat) (d : Detection) (hvis : ∀ n ∈ visited, n < 2048)
    (h0 : 0 ≤ surplus rest d) :
    0 ≤ surplus rest (visited.foldl turn d) ∧
      (surplus rest (visited.foldl turn d) = 0 ↔
        surplus rest d = 0 ∧ ∀ n ∈ visited, u (d.txPackets n) = 0) ∧
      (visited.foldl turn d).clamped = d.clamped := by
  induction visited generalizing d with
  | nil => simp [h0]
  | cons n visited ih =>
      obtain ⟨hsum, hclamped⟩ := hturn d n (hvis n List.mem_cons_self) h0
      have hun := hpos (d.txPackets n)
      obtain ⟨hge, hiff, hclamped'⟩ := ih (turn d n)
        (fun m hm => hvis m (List.mem_cons_of_mem _ hm)) (by omega)
      rw [List.foldl_cons]
      refine ⟨hge, ?_, hclamped'.trans hclamped⟩
      rw [hiff, hsum]
      have hcell : ∀ m, u ((turn d n).txPackets m) = if m = n then 0 else u (d.txPackets m) := by
        intro m
        rw [hcells]
        by_cases hm : m = n
        · subst hm
          rw [Function.update_self, if_pos rfl, hdone]
        · rw [Function.update_of_ne hm, if_neg hm]
      constructor
      · intro ⟨hzero, hall⟩
        refine ⟨by omega, ?_⟩
        intro m hm
        by_cases hmn : m = n
        · subst hmn
          omega
        · have hout := hall m ((List.mem_cons.mp hm).resolve_left hmn)
          rwa [hcell, if_neg hmn] at hout
      · intro ⟨hzero, hall⟩
        have hn := hall n List.mem_cons_self
        refine ⟨by omega, ?_⟩
        intro m hm
        rw [hcell]
        split
        · rfl
        · exact hall m (List.mem_cons_of_mem _ hm)

end Loops

/-! ## One feedback -/

/-- No packet of some size is dropped by the first loop while it is in flight, nor found
late by the second before it passes the edge. -/
structure KeepsInFlight (fb : IncomingFeedback) (stream : TxStream) : Prop where
  swept : ∀ n ∈ swept stream.lastLossDetectIx stream.hiSeqAck,
    (stream.txPackets n).isUsed = true → (stream.txPackets n).isAfterReceivedEdge = false →
    (stream.txPackets n).size = 0
  scanned : ∀ n ∈ scanned stream.hiSeqAck fb.highestSeqNr,
    (stream.txPackets n).isUsed = true → (stream.txPackets n).isAfterReceivedEdge = false →
    beforeEdge fb.highestSeqNr (stream.txPackets n).seqNr = false →
    isLate (ackTime fb stream) (stream.txPackets n) = true → (stream.txPackets n).size = 0

variable {fb : IncomingFeedback} {stream : TxStream} {n : Nat} {p : Transmitted}

theorem pending_eq_zero_iff : pending p = 0 ↔
    (p.isUsed = true → p.isAfterReceivedEdge = false → p.size = 0) := by
  unfold pending
  split
  · rename_i h
    simp [h]
  · rename_i h
    exact iff_of_true rfl fun hused hedge => absurd ⟨hused, hedge⟩ h

@[simp] theorem pending_markPacket : pending (markPacket fb p) = pending p := by
  simp [pending]

/-- Packets of the range of the feedback, and the next one, lie before the edge. -/
theorem beforeEdge_of_dist {highestSeqNr seqNr : BitVec 16} (h : dist seqNr highestSeqNr ≤ 65) :
    beforeEdge highestSeqNr seqNr = true := by
  have hseq := seqNr.isLt
  have hhighest := highestSeqNr.isLt
  simp only [SerialNumber.dist, BitVec.toNat_sub] at h
  unfold beforeEdge
  simp only
  split
  · rw [decide_eq_true_eq]
    omega
  · split
    · rw [decide_eq_true_eq]
      omega
    · rw [decide_eq_true_eq]
      omega

/-- Of the packets that the second loop takes out, only late ones may be in flight. -/
theorem uncounted_markPacket_iff (hacked : p.isUsed = true → p.isAcked = false)
    (timeTxAck_us : Nat) :
    uncounted fb.highestSeqNr timeTxAck_us (markPacket fb p) = 0 ↔
      (p.isUsed = true → p.isAfterReceivedEdge = false →
        beforeEdge fb.highestSeqNr p.seqNr = false → isLate timeTxAck_us p = true →
        p.size = 0) := by
  by_cases hused : p.isUsed = true
  · have hlate : isLate timeTxAck_us (markPacket fb p) = isLate timeTxAck_us p := by
      simp [isLate]
    have hpending : pending ((markPacket fb p).passed fb.highestSeqNr) = 0 ↔
        (p.isAfterReceivedEdge = false → beforeEdge fb.highestSeqNr p.seqNr = false →
          p.size = 0) := by
      rw [pending_eq_zero_iff]
      simp [Transmitted.passed, hused]
    have hmarked : (markPacket fb p).isAcked = true →
        beforeEdge fb.highestSeqNr p.seqNr = true := by
      rw [markPacket_isAcked_iff hused (hacked hused)]
      rintro (hreports | ⟨hdiff, _⟩)
      · exact beforeEdge_of_dist (Nat.le_succ_of_le hreports.covers)
      · exact beforeEdge_of_dist (Nat.le_of_eq ((ackDiff_eq_iff (by decide)).mp hdiff))
    unfold uncounted
    rw [hlate]
    by_cases hgone : isLate timeTxAck_us p = true
    · rw [if_pos (by simp [hgone]), hpending]
      simp [hused, hgone]
    · split
      · rename_i hout
        have hbefore := hmarked (by simpa [hgone] using hout)
        rw [hpending]
        simp [hgone, hbefore]
      · simp [hgone]
  · have hunused : pending ((markPacket fb p).passed fb.highestSeqNr) = 0 := by
      simp [pending, Transmitted.passed, hused]
    unfold uncounted
    rw [hunused, ite_self]
    simp [hused]

theorem lt_of_mem_slots {lo hi : Nat} (h : n ∈ slots kMaxTxPackets lo hi) : n < 2048 := by
  obtain ⟨m, _, _, rfl⟩ := mem_slots.mp h
  exact Nat.mod_lt _ (by decide)

theorem lt_of_mem_swept (h : n ∈ swept stream.lastLossDetectIx stream.hiSeqAck) : n < 2048 := by
  unfold swept at h
  split at h
  · exact lt_of_mem_slots h
  · exact absurd h List.not_mem_nil

namespace ScreamTx

variable {s s' : ScreamTx} {i : Nat}

/-- **`detectLoss`** leaves the counter right if and only if it takes no packet in flight out
of the ring; and then it never has to clamp it. -/
theorem detectLoss_surplus (hring : RingInv stream.txPackets) {rest : Int} (hrest : 0 ≤ rest)
    (hbytes : s.bytesInFlight = rest + inFlight stream.txPackets) :
    (surplus rest (s.detectLoss fb stream (s.markAcked fb stream)) = 0 ↔
      KeepsInFlight fb stream) ∧
    (s.detectLoss fb stream (s.markAcked fb stream)).clamped = false := by
  have hmarked : inFlight (s.markAcked fb stream).txPackets = inFlight stream.txPackets := by
    apply inFlight_congr
    intro n
    rw [markAcked_txPackets]
    simp only
    split
    · exact pending_markPacket
    · rfl
  unfold detectLoss
  simp only
  generalize hd : ({ txPackets := (s.markAcked fb stream).txPackets
                     bytesInFlight := s.bytesInFlight
                     bytesNewlyAcked := s.bytesNewlyAcked
                     bytesAcked := stream.bytesAcked
                     bytesLost := stream.bytesLost
                     lossEvent := s.lossEvent
                     repairLoss := stream.repairLoss
                     lost := []
                     clamped := false } : Detection) = d
  have h0 : surplus rest d = 0 := by
    subst hd
    unfold surplus
    rw [hmarked, hbytes]
    ring
  obtain ⟨hge, hsweep, hclamped⟩ := @surplus_loop rest
    (sweepSlot (s.raisesLoss fb.time_us (s.markAcked fb stream).rtt)) Transmitted.dropped pending
    pending_nonneg pending_dropped (fun d n => sweepSlot_txPackets)
    (fun d n hn _ => ⟨surplus_sweepSlot hn, sweepSlot_bytesInFlight.2⟩)
    (swept stream.lastLossDetectIx stream.hiSeqAck) d (fun n hn => lt_of_mem_swept hn)
    (le_of_eq h0.symm)
  obtain ⟨_, hscan, hclamped'⟩ := @surplus_loop rest
    (scanSlot fb.highestSeqNr (s.markAcked fb stream).timeTxAck_us
      (s.raisesLoss fb.time_us (s.markAcked fb stream).rtt))
    (scanPacket fb.highestSeqNr (s.markAcked fb stream).timeTxAck_us)
    (uncounted fb.highestSeqNr (s.markAcked fb stream).timeTxAck_us)
    uncounted_nonneg uncounted_scanPacket (fun d n => scanSlot_txPackets)
    (fun d n hn h => surplus_scanSlot hn hrest h)
    (scanned stream.hiSeqAck fb.highestSeqNr) _ (fun n hn => lt_of_mem_slots hn) hge
  refine ⟨?_, ?_⟩
  · rw [hscan, hsweep, and_iff_right h0, sweepLoop_txPackets, markAcked_timeTxAck_us hring]
    subst hd
    simp only [markAcked_txPackets]
    constructor
    · intro ⟨hdropped, hlate⟩
      constructor
      · intro n hn
        have hzero := hdropped n hn
        rw [← pending_eq_zero_iff]
        split at hzero
        · rwa [pending_markPacket] at hzero
        · exact hzero
      · intro n hn
        by_cases hswept : n ∈ swept stream.lastLossDetectIx stream.hiSeqAck
        · -- the packet is gone before the second loop, and had no size
          have hzero := hdropped n hswept
          rw [if_pos hn, pending_markPacket, pending_eq_zero_iff] at hzero
          exact fun hused hedge _ _ => hzero hused hedge
        · have hzero := hlate n hn
          rw [if_neg hswept, if_pos hn,
            uncounted_markPacket_iff fun hused => (hring n hused).2] at hzero
          exact hzero
    · intro hkeeps
      constructor
      · intro n hn
        have hzero := pending_eq_zero_iff.mpr (hkeeps.swept n hn)
        split
        · rwa [pending_markPacket]
        · exact hzero
      · intro n hn
        by_cases hswept : n ∈ swept stream.lastLossDetectIx stream.hiSeqAck
        · rw [if_pos hswept, uncounted_dropped]
        · rw [if_neg hswept, if_pos hn,
            uncounted_markPacket_iff fun hused => (hring n hused).2]
          exact hkeeps.scanned n hn
  · rw [hclamped', hclamped]
    subst hd
    rfl

/-! ## Runs -/

/-- The counter is not negative before it is set to 0. -/
def Unclamped (s : ScreamTx) (e : TxEvent) : Prop :=
  ∀ fb, e = .incomingFeedback fb → ∀ i stream, s.accepts fb = some (i, stream) →
    ((s.ensureInitialized fb.time_us).detectLoss fb stream
      ((s.ensureInitialized fb.time_us).markAcked fb stream)).clamped = false

/-- A step after which the counter is right. -/
def AccountedStep (s : ScreamTx) (e : TxEvent) (s' : ScreamTx) : Prop :=
  s.Step e s' ∧ s'.Accounted ∧ s.Unclamped e

/-- The counter is reset only while no other stream has packets in flight, and a feedback
takes none in flight out of its ring. -/
structure Safe (s : ScreamTx) (e : TxEvent) : Prop where
  timeout : ∀ time_us slow i, e = .isOkToTransmit time_us slow (some i) →
    s.TimesOut time_us (some i) → s.others i = 0
  collision : ∀ time_us ssrc size seqNr, e = .addTransmitted time_us ssrc size seqNr →
    ∀ i stream, (s.ensureInitialized time_us).getStream ssrc = some (i, stream) →
      Collides stream seqNr → s.others i = 0
  feedback : ∀ fb, e = .incomingFeedback fb → ∀ i stream, s.accepts fb = some (i, stream) →
    KeepsInFlight fb stream

def SafeStep (s : ScreamTx) (e : TxEvent) (s' : ScreamTx) : Prop :=
  s.Step e s' ∧ s.Safe e

theorem Accounted.of_same (h : s.Accounted) (hrings : s'.rings = s.rings)
    (hbytes : s'.bytesInFlight = s.bytesInFlight) : s'.Accounted := by
  unfold Accounted total
  rw [hrings, hbytes]
  exact h

theorem inFlight_clearTxPackets (stream : TxStream) :
    inFlight stream.clearTxPackets.txPackets = 0 :=
  inFlight_unused fun _ => rfl

/-- A new stream has nothing in flight. -/
theorem Accounted.register (h : s.Accounted)
    (hrings : s'.rings = s.rings ++ [fun _ => .unused])
    (hbytes : s'.bytesInFlight = s.bytesInFlight) : s'.Accounted := by
  have hnew : inFlight (fun _ => Transmitted.unused) = 0 := inFlight_unused fun _ => rfl
  unfold Accounted total
  rw [hrings, hbytes, List.map_append, List.sum_append, List.map_singleton, List.sum_singleton,
    hnew, add_zero]
  exact h

/-- A packet is put into an empty cell. -/
theorem inFlight_insert {p : Transmitted} {n : Nat} (hn : n < 2048)
    (hempty : (ring n).isUsed = false) (hused : p.isUsed = true)
    (hedge : p.isAfterReceivedEdge = false) :
    inFlight (Function.update ring n p) = inFlight ring + p.size := by
  have hold : pending (ring n) = 0 := by simp [pending, hempty]
  have hnew : pending p = p.size := by simp [pending, hused, hedge]
  rw [inFlight_update hn, hold, hnew, sub_zero]

/-- A timeout is harmless exactly if no other stream has packets in flight. -/
theorem accounted_isOkToTransmit_iff (h : s.Accounted) {time_us : Nat} {slow : Bool}
    {prioritized : Option Nat} (hstep : s.isOkToTransmit time_us slow prioritized = some s') :
    s'.Accounted ↔
      ∀ i, prioritized = some i → s.TimesOut time_us (some i) → s.others i = 0 := by
  rcases isOkToTransmit_eq hstep with
    ⟨hout, hrings, hbytes⟩ | ⟨hout, i, stream, rfl, hring, hrings, hbytes⟩
  · refine iff_of_true (h.of_same hrings hbytes) ?_
    rintro i rfl hout'
    exact absurd hout' hout
  · have htotal := total_set hring hrings
    rw [inFlight_clearTxPackets, zero_add] at htotal
    unfold Accounted
    rw [hbytes, htotal]
    constructor
    · intro hzero j hj _
      obtain rfl := Option.some.inj hj
      exact hzero.symm
    · intro hothers
      exact (hothers i rfl hout).symm

/-- So is a collision. -/
theorem accounted_addTransmitted_iff (h : s.Accounted) {time_us size : Nat} {ssrc : BitVec 32}
    {seqNr : BitVec 16} (hstep : s.addTransmitted time_us ssrc size seqNr = some s') :
    s'.Accounted ↔
      ∀ i stream, (s.ensureInitialized time_us).getStream ssrc = some (i, stream) →
        Collides stream seqNr → s.others i = 0 := by
  obtain ⟨i, stream, p, hfound, hring, _, hsize, hused, _, hedge, hcases⟩ :=
    addTransmitted_eq hstep
  have hn : seqNr.toNat % 2048 < 2048 := Nat.mod_lt _ (by decide)
  rcases hcases with ⟨hcollides, hbytes, hrings⟩ | ⟨hfree, hbytes, hrings⟩
  · have htotal := total_set hring hrings
    rw [inFlight_insert hn rfl hused hedge, inFlight_clearTxPackets, hsize] at htotal
    unfold Accounted
    rw [hbytes, htotal]
    constructor
    · intro hzero j stream' hfound' _
      obtain ⟨rfl, rfl⟩ := Prod.mk.inj (Option.some.inj (hfound.symm.trans hfound'))
      omega
    · intro hothers
      have hzero := hothers i stream hfound hcollides
      omega
  · have htotal := total_set hring hrings
    rw [inFlight_insert hn (by simpa [Collides] using hfree) hused hedge, hsize] at htotal
    have hbefore := total_eq hring
    refine iff_of_true ?_ ?_
    · unfold Accounted at h ⊢
      rw [hbytes, htotal, h, hbefore]
      ring
    · intro j stream' hfound' hcollides
      obtain ⟨rfl, rfl⟩ := Prod.mk.inj (Option.some.inj (hfound.symm.trans hfound'))
      exact absurd hcollides hfree

/-- **One feedback** keeps the counter right if and only if it takes no packet in flight out
of the ring. -/
theorem accounted_incomingFeedback_iff (hinv : s.Inv) (h : s.Accounted)
    (fb : IncomingFeedback) :
    ((s.incomingFeedback fb).Accounted ↔ ∀ i stream, s.accepts fb = some (i, stream) →
      KeepsInFlight fb stream) ∧ s.Unclamped (.incomingFeedback fb) := by
  cases haccepts : s.accepts fb with
  | none =>
      refine ⟨iff_of_true ?_ nofun, ?_⟩
      · unfold incomingFeedback
        rw [haccepts]
        exact h.of_same (ensureInitialized_rings s fb.time_us)
          (ensureInitialized_bytesInFlight s fb.time_us)
      · intro fb' he i stream haccepts'
        obtain rfl := TxEvent.incomingFeedback.inj he
        exact absurd (haccepts.symm.trans haccepts') nofun
  | some found =>
      obtain ⟨i, stream⟩ := found
      have hring := (accepts_eq_some haccepts).2
      have hbytes : (s.ensureInitialized fb.time_us).bytesInFlight =
          s.others i + inFlight stream.txPackets := by
        rw [ensureInitialized_bytesInFlight, h, total_eq hring]
        ring
      obtain ⟨hsurplus, hclamped⟩ := @detectLoss_surplus fb stream _
        (hinv _ (List.mem_of_getElem? hring)) _ (others_nonneg s i) hbytes
      constructor
      · have hafter : (s.incomingFeedback fb).Accounted ↔
            surplus (s.others i) ((s.ensureInitialized fb.time_us).detectLoss fb stream
              ((s.ensureInitialized fb.time_us).markAcked fb stream)) = 0 := by
          have hrings := applyFeedback_rings (s.ensureInitialized fb.time_us) fb i stream
          rw [ensureInitialized_rings, ← detectLoss_txPackets] at hrings
          have htotal := total_set hring hrings
          have hcount : ((s.ensureInitialized fb.time_us).applyFeedback fb i stream).bytesInFlight
              = ((s.ensureInitialized fb.time_us).detectLoss fb stream
                ((s.ensureInitialized fb.time_us).markAcked fb stream)).bytesInFlight := by
            unfold applyFeedback
            simp only [handleEvents_bytesInFlight]
          unfold incomingFeedback
          rw [haccepts]
          unfold Accounted surplus
          simp only
          rw [hcount, htotal]
          omega
        rw [hafter, hsurplus]
        constructor
        · intro hkeeps j stream' hfound
          obtain ⟨rfl, rfl⟩ := Prod.mk.inj (Option.some.inj hfound)
          exact hkeeps
        · intro hkeeps
          exact hkeeps i stream rfl
      · intro fb' he j stream' haccepts'
        obtain rfl := TxEvent.incomingFeedback.inj he
        obtain ⟨rfl, rfl⟩ := Prod.mk.inj (Option.some.inj (haccepts.symm.trans haccepts'))
        exact hclamped

/-- One step. -/
theorem accountedStep_iff {e : TxEvent} (hinv : s.Inv) (h : s.Accounted) :
    s.AccountedStep e s' ↔ s.SafeStep e s' := by
  refine and_congr_right fun hstep => ?_
  have hsafe : (∀ fb, e ≠ .incomingFeedback fb) → s.Unclamped e := by
    intro hne fb he
    exact absurd he (hne fb)
  cases e with
  | registerNewStream ssrc =>
      obtain ⟨hrings, hbytes⟩ := registerNewStream_eq hstep
      exact iff_of_true ⟨h.register hrings hbytes, hsafe nofun⟩ ⟨nofun, nofun, nofun⟩
  | newMediaFrame time_us ssrc =>
      obtain ⟨hrings, hbytes⟩ := newMediaFrame_eq hstep
      exact iff_of_true ⟨h.of_same hrings hbytes, hsafe nofun⟩ ⟨nofun, nofun, nofun⟩
  | getTargetBitrate ssrc =>
      obtain ⟨hrings, hbytes⟩ := getTargetBitrate_eq hstep
      exact iff_of_true ⟨h.of_same hrings hbytes, hsafe nofun⟩ ⟨nofun, nofun, nofun⟩
  | isOkToTransmit time_us slow prioritized =>
      rw [and_iff_left (hsafe nofun), accounted_isOkToTransmit_iff h hstep]
      constructor
      · intro hothers
        refine ⟨?_, nofun, nofun⟩
        intro time_us' slow' i he hout
        obtain ⟨rfl, rfl, hi⟩ := TxEvent.isOkToTransmit.inj he
        exact hothers i hi hout
      · intro hsafe i hi hout
        exact hsafe.timeout time_us slow i (by rw [hi]) hout
  | addTransmitted time_us ssrc size seqNr =>
      rw [and_iff_left (hsafe nofun), accounted_addTransmitted_iff h hstep]
      constructor
      · intro hothers
        refine ⟨nofun, ?_, nofun⟩
        intro time_us' ssrc' size' seqNr' he
        obtain ⟨rfl, rfl, rfl, rfl⟩ := TxEvent.addTransmitted.inj he
        exact hothers
      · intro hsafe
        exact hsafe.collision time_us ssrc size seqNr rfl
  | incomingFeedback fb =>
      obtain rfl := Option.some.inj hstep
      obtain ⟨hiff, hunclamped⟩ := accounted_incomingFeedback_iff hinv h fb
      rw [and_iff_left hunclamped, hiff]
      constructor
      · intro hkeeps
        refine ⟨nofun, nofun, ?_⟩
        intro fb' he
        obtain rfl := TxEvent.incomingFeedback.inj he
        exact hkeeps
      · intro hsafe
        exact hsafe.feedback fb rfl

theorem new_accounted (lossBetaBelowOne : Bool) : (new lossBetaBelowOne).Accounted := rfl

/-- **`bytesInFlight` is what the rings say**, in every state of a run and without being
set to 0 when negative, if and only if throughout the run timeouts and collisions find no
other stream with packets in flight, and no feedback drops a packet in flight. -/
theorem bytesInFlight_iff (lossBetaBelowOne : Bool) (es : List TxEvent) (s : ScreamTx) :
    Run AccountedStep (new lossBetaBelowOne) es s ↔
      Run SafeStep (new lossBetaBelowOne) es s := by
  have hinv : ∀ es s, Run AccountedStep (new lossBetaBelowOne) es s → s.Inv ∧ s.Accounted := by
    intro es s hrun
    exact hrun.stateInvariant (I := fun s => s.Inv ∧ s.Accounted)
      ⟨new_inv lossBetaBelowOne, new_accounted lossBetaBelowOne⟩
      fun s e s' h hstep => ⟨h.1.step hstep.1, hstep.2.1⟩
  constructor
  · intro hrun
    induction hrun with
    | nil => exact .nil
    | snoc hprev hstep ih =>
        obtain ⟨hinv, haccounted⟩ := hinv _ _ hprev
        exact .snoc ih ((accountedStep_iff hinv haccounted).mp hstep)
  · intro hrun
    induction hrun with
    | nil => exact .nil
    | snoc _ hstep ih =>
        obtain ⟨hinv, haccounted⟩ := hinv _ _ ih
        exact .snoc ih ((accountedStep_iff hinv haccounted).mpr hstep)

/-- Two streams with a packet in flight each; the second one times out. -/
def twoStreams : List TxEvent :=
  [.registerNewStream 7, .registerNewStream 8, .addTransmitted 1000000 7 100 1,
    .addTransmitted 1001000 8 200 1, .isOkToTransmit 1600000 false (some 1)]

/-- The packet of the first stream is still in flight, but not counted. -/
theorem timeout_undercounts : ∃ s, Run Step (new true) twoStreams s ∧
    s.bytesInFlight = 0 ∧ 100 ≤ s.total ∧ ¬ s.Accounted := by
  have hview : (twoStreams.foldlM step? (new true)).bind (fun s =>
      s.streams[0]?.map fun stream => (s.bytesInFlight, pending (stream.txPackets 1)))
      = some (0, 100) := by decide +kernel
  obtain ⟨s, hs, hview⟩ := Option.bind_eq_some_iff.mp hview
  obtain ⟨stream, hstream, hview⟩ := Option.map_eq_some_iff.mp hview
  obtain ⟨hbytes, hpending⟩ := Prod.mk.inj hview
  have hle := @pending_le_inFlight stream.txPackets 1 (by decide)
  have htotal := total_eq (rings_getElem? hstream)
  have hothers := others_nonneg s 0
  refine ⟨s, Run.of_foldlM hs, hbytes, by omega, ?_⟩
  unfold Accounted
  omega

end ScreamTx

end Scream
