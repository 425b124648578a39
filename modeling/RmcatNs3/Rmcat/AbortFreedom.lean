import RmcatNs3.Lib.Runs
import RmcatNs3.Rmcat.ControllerSteps
import RmcatNs3.Rmcat.NadaController

/-!
# When the controllers abort

The controllers report bad arguments by returning `false`, and every
assertion in them is meant to be unreachable. `CallInv` is what the
assertions rely on. It is kept by every call that stays clear of the branches
where the bookkeeping goes wrong: a send rejected while packets are in
transit, feedback exactly half the circle away from the packet it reaches,
a loss that crosses the wrap of the sequence number, a window of `2 ^ 32`
bytes.
-/

namespace Rmcat

open SerialNumber Runs

variable {F : Type}

/-! ## Calls -/

/-- One call of a controller, with its arguments. -/
inductive Call where
  | send (txTimestamp : BitVec 64) (sequence size : BitVec 32)
  | feedback (now : BitVec 64) (sequence : BitVec 32) (rxTimestamp : BitVec 64)
      (ecn : BitVec 8)

def SenderBasedController.call (s : SenderBasedController F) :
    Call → Except Abort (Bool × SenderBasedController F)
  | .send tx sequence size => s.processSendPacket tx sequence size
  | .feedback now sequence rx ecn => s.processFeedback now sequence rx ecn

def NadaController.call [FloatOps F] (s : NadaController F) :
    Call → Except Abort (Bool × NadaController F)
  | .send tx sequence size => s.processSendPacket tx sequence size
  | .feedback now sequence rx ecn => s.processFeedback now sequence rx ecn

/-- A call that meets the condition `safe` and returns. -/
def CallStep {σ : Type} (call : σ → Call → Except Abort (Bool × σ))
    (safe : σ → Call → Prop) (s : σ) (c : Call) (s' : σ) : Prop :=
  safe s c ∧ ∃ res, call s c = .ok (res, s')

/-- No call that meets the condition aborts after a run of such calls. -/
def NeverAborts {σ : Type} (call : σ → Call → Except Abort (Bool × σ))
    (safe : σ → Call → Prop) (s₀ : σ) : Prop :=
  ∀ cs s, Run (CallStep call safe) s₀ cs s → ∀ c, safe s c →
    ∃ res s', call s c = .ok (res, s')

/-- **The progress rule**: an invariant under which safe calls return, and
that they keep. -/
theorem neverAborts_of_inv {σ : Type}
    {call : σ → Call → Except Abort (Bool × σ)} {safe : σ → Call → Prop}
    {s₀ : σ} {I : σ → Prop} (h0 : I s₀)
    (hstep : ∀ s c, I s → safe s c → ∃ res s', call s c = .ok (res, s') ∧ I s') :
    NeverAborts call safe s₀ := by
  intro cs s hrun c hsafe
  have hI : I s := by
    refine hrun.stateInvariant h0 ?_
    rintro s c s' hI ⟨hs, res, hcall⟩
    obtain ⟨res', s'', hcall', hI'⟩ := hstep s c hI hs
    rw [hcall] at hcall'
    cases hcall'
    exact hI'
  obtain ⟨res, s', hcall, _⟩ := hstep s c hI hsafe
  exact ⟨res, s', hcall⟩

/-! ## The conditions -/

namespace SenderBasedController

/-- A send that is not rejected while packets are in transit. -/
def SendSafe (s : SenderBasedController F) (sequence : BitVec 32) : Prop :=
  s.firstSend = true ∨ s.inTransitPackets = [] ∨ sequence = s.lastSequence + 1

instance (s : SenderBasedController F) (sequence : BitVec 32) :
    Decidable (s.SendSafe sequence) :=
  inferInstanceAs (Decidable (_ ∨ _ ∨ _))

/-- The in-transit packet that feedback for `sequence` reaches. -/
def reached (s : SenderBasedController F) (sequence : BitVec 32) :
    Option PacketRecord :=
  if lessThan s.lastSequence sequence then none
  else s.inTransitPackets.find? fun p => ! lessThan p.sequence sequence

/-- The packet that feedback for `sequence` files in the history. -/
def matched (s : SenderBasedController F) (sequence : BitVec 32) :
    Option PacketRecord :=
  (s.reached sequence).filter fun p =>
    decide (p.sequence = sequence) && ! s.decreasingTimestamp p

/-- Feedback that is not exactly half the circle away from the packet it
reaches, and that files its packet only without skipping a number across the
wrap, into a window of less than `2 ^ 32` bytes. -/
structure FeedbackSafe (s : SenderBasedController F) (sequence : BitVec 32) :
    Prop where
  notOpposite : ∀ p ∈ s.reached sequence, p.sequence ≠ sequence + 0x80000000
  noWrapSkipped : ∀ p ∈ s.matched sequence,
    ∀ newest ∈ (s.dropObsolete p).packetHistory.getLast?,
      newest.sequence + 1 ≤ sequence
  bytes : ∀ p ∈ s.matched sequence,
    totalSize (s.dropObsolete p).packetHistory + p.size.toNat < 2 ^ 32

instance (s : SenderBasedController F) (sequence : BitVec 32) :
    Decidable (s.FeedbackSafe sequence) :=
  decidable_of_iff (_ ∧ _ ∧ _)
    ⟨fun h => ⟨h.1, h.2.1, h.2.2⟩, fun h => ⟨h.notOpposite, h.noWrapSkipped, h.bytes⟩⟩

def Safe (s : SenderBasedController F) : Call → Prop
  | .send _ sequence _ => s.SendSafe sequence
  | .feedback _ sequence _ _ => s.FeedbackSafe sequence

/-- What stays in a history of length `len` when a packet sent at `tx` is
filed. -/
def keptHistory (len tx : BitVec 64) (history : List PacketRecord) :
    List PacketRecord :=
  history.dropWhile fun r => ! lessThan tx (r.txTimestamp + len)

/-- The history that feedback leaves: that of before, or the records still in
the window of the packet it files, and that packet. -/
def nextHistory (s : SenderBasedController F) (now : BitVec 64)
    (sequence : BitVec 32) (rxTimestamp : BitVec 64) : List PacketRecord :=
  match s.matched sequence with
  | none => s.packetHistory
  | some p =>
      keptHistory s.historyLengthMs p.txTimestamp (s.dropObsolete p).packetHistory
        ++ [filed p now rxTimestamp]

end SenderBasedController

/-- A history from which the metrics can be computed: it is too short for
them, or its newest packet was not received before the oldest one and its
sequence numbers do not go once around the circle. -/
def Measurable (history : List PacketRecord) : Prop :=
  minPacketLoglen ≤ history.length →
    ∀ front ∈ history.head?, ∀ back ∈ history.getLast?,
      lessThan front.rxTimestamp (back.rxTimestamp + 1) = true ∧
        history.length ≤ (1 + back.sequence - front.sequence).toNat

instance (history : List PacketRecord) : Decidable (Measurable history) :=
  inferInstanceAs (Decidable (_ → _))

/-- Feedback that is safe for the superclass, given at a time that is not
before the last rate calculation, and with measurable records when the rate
is due. -/
structure NadaController.FeedbackSafe (s : NadaController F) (now : BitVec 64)
    (sequence : BitVec 32) (rxTimestamp : BitVec 64) : Prop where
  base : s.base.FeedbackSafe sequence
  clock : s.lastTimeCalcValid = true → lessThan s.lastTimeCalc (now + 1) = true
  measurable : s.lastTimeCalcValid = true → now - s.lastTimeCalc ≥ nadaParamDelta →
    Measurable (s.base.nextHistory now sequence rxTimestamp)

instance (s : NadaController F) (now : BitVec 64) (sequence : BitVec 32)
    (rxTimestamp : BitVec 64) : Decidable (s.FeedbackSafe now sequence rxTimestamp) :=
  decidable_of_iff (_ ∧ _ ∧ _)
    ⟨fun h => ⟨h.1, h.2.1, h.2.2⟩, fun h => ⟨h.base, h.clock, h.measurable⟩⟩

def NadaController.Safe (s : NadaController F) : Call → Prop
  | .send _ sequence _ => s.base.SendSafe sequence
  | .feedback now sequence rx _ => s.FeedbackSafe now sequence rx

instance (s : NadaController F) : DecidablePred s.Safe
  | .send _ sequence _ => inferInstanceAs (Decidable (s.base.SendSafe sequence))
  | .feedback now sequence rx _ => inferInstanceAs (Decidable (s.FeedbackSafe now sequence rx))

/-! ## The invariant -/

open SenderBasedController (keptHistory filed)

/-- What the assertions rely on. -/
structure CallInv (s : SenderBasedController F) : Prop where
  first : s.firstSend = true → s.inTransitPackets = []
  back : ∀ back ∈ s.inTransitPackets.getLast?, back.sequence = s.lastSequence
  fresh : ∀ p ∈ s.inTransitPackets, p.owd = 0 ∧ p.rtt = 0
  historyLen : s.historyLengthMs = defaultHistoryLength
  window : s.packetHistory.Pairwise
    (fun a b => SerialNumber.dist a.txTimestamp b.txTimestamp < 500)
  sum : s.pktSizeSum.toNat = totalSize s.packetHistory
  expected : ∀ newest ∈ s.packetHistory.getLast?,
    s.ilState.expectedSeq = newest.sequence + 1
  intervals : 1 ≤ s.ilState.intervals.length ∧ s.ilState.intervals.length ≤ 9
  lossSeen : s.ilState.initialized = true → 2 ≤ s.ilState.intervals.length

theorem CallInv.init [FloatOps F] :
    CallInv (SenderBasedController.new (F := F)) where
  first := fun _ => rfl
  back := by simp [SenderBasedController.new]
  fresh := by simp [SenderBasedController.new]
  historyLen := rfl
  window := .nil
  sum := rfl
  expected := by simp [SenderBasedController.new]
  intervals := by simp [SenderBasedController.new, InterLossState.new]
  lossSeen := by simp [SenderBasedController.new, InterLossState.new]

/-! ## Sending -/

/-- Sending never aborts. -/
theorem CallInv.send {s : SenderBasedController F} (hI : CallInv s)
    (tx : BitVec 64) {sequence : BitVec 32} (size : BitVec 32) (hsafe : s.SendSafe sequence) :
    ∃ res s', s.processSendPacket tx sequence size = .ok (res, s') ∧
      CallInv s' := by
  by_cases hnext : (if s.firstSend = true then sequence - 1 else s.lastSequence) + 1
      = sequence
  · -- an accepted packet becomes the new end of the in-transit deque
    obtain ⟨j, hj, hev⟩ := SenderBasedController.evictStale_eq
      s.inTransitPackets ⟨sequence, tx, size, 0, 0⟩
    refine ⟨true, { s with
      firstSend := false
      lastSequence := sequence
      inTransitPackets := (s.inTransitPackets ++
        [({ sequence, txTimestamp := tx, size, owd := 0, rtt := 0 } :
          PacketRecord)]).drop j }, ?_, ?_⟩
    · cases hf : s.firstSend with
      | true =>
          simp only [hf, if_true] at hnext
          simp only [SenderBasedController.processSendPacket, hf, if_true,
            hnext, ne_eq, not_true_eq_false, if_false, hev]
      | false =>
          simp only [hf, Bool.false_eq_true, if_false] at hnext
          simp only [SenderBasedController.processSendPacket, hf,
            Bool.false_eq_true, if_false, hnext, ne_eq, not_true_eq_false, hev]
    · refine { hI with first := ?_, back := ?_, fresh := ?_ }
      · intro h
        cases h
      · intro back hb
        change back ∈ (List.drop j _).getLast? at hb
        rw [List.getLast?_drop] at hb
        split at hb
        · cases hb
        · rw [List.getLast?_concat, Option.mem_some_iff] at hb
          rw [← hb]
      · intro p hp
        have hp' := List.mem_of_mem_drop hp
        rw [List.mem_append, List.mem_singleton] at hp'
        rcases hp' with hp' | rfl
        · exact hI.fresh p hp'
        · exact ⟨rfl, rfl⟩
  · -- a rejected one moves the counter, which is safe with nothing in transit
    have hfirst : s.firstSend = false := by
      by_contra hf
      rw [Bool.not_eq_false] at hf
      rw [if_pos hf, BitVec.sub_add_cancel] at hnext
      exact hnext rfl
    rw [hfirst, if_neg Bool.false_ne_true] at hnext
    have hempty : s.inTransitPackets = [] := by
      rcases hsafe with hf | he | hs
      · rw [hfirst] at hf
        cases hf
      · exact he
      · exact absurd hs.symm hnext
    refine ⟨false, { s with lastSequence := s.lastSequence + 1 }, ?_, ?_⟩
    · simp only [SenderBasedController.processSendPacket, hfirst,
        Bool.false_eq_true, if_false]
      rw [if_pos (Ne.symm hnext)]
    · refine { hI with back := ?_ }
      intro back hb
      change back ∈ s.inTransitPackets.getLast? at hb
      rw [hempty] at hb
      cases hb

/-! ## Filing a packet -/

/-- A packet that was not sent before the newest record, nor so long after it
that the record is obsolete, follows it within `MAX_INTER_PACKET_TIME`. -/
theorem dist_le_of_not_obsolete {newest tx : BitVec 64}
    (hdec : lessThan tx newest = false)
    (hobs : lessThan (newest + maxInterPacketTime) tx = false) :
    dist newest tx ≤ 500 := by
  rw [lessThan_eq_false_iff] at hdec hobs
  simp only [SerialNumber.dist, maxInterPacketTime] at hdec hobs ⊢
  rcases hdec with hdec | hdec <;> rcases hobs with hobs | hobs <;> bv_omega

/-- Inside or outside the window, for a record less than 1000 ms old. -/
theorem lessThan_add_window {last tx : BitVec 64} (h : dist tx last < 1000) :
    lessThan last (tx + defaultHistoryLength) = true ↔ dist tx last < 500 := by
  rw [lessThan_iff, Precedes]
  simp only [SerialNumber.dist, defaultHistoryLength] at h ⊢
  constructor
  · rintro ⟨hpos, hlt⟩
    bv_omega
  · intro hlt
    constructor <;> bv_omega

theorem not_lessThan_of_dist {last tx : BitVec 64} (h : dist tx last < 1000) :
    lessThan last tx = false := by
  rw [lessThan_eq_false_iff]
  by_cases heq : last = tx
  · exact .inl heq
  · have hc := dist_comm heq
    exact .inr (by omega)

/-- The loss intervals move on to a number that is not below the expected
one. -/
theorem InterLossState.update_ok (il : InterLossState) {sequence : BitVec 32}
    (hexp : il.expectedSeq ≤ sequence)
    (hlen : 1 ≤ il.intervals.length ∧ il.intervals.length ≤ 9)
    (hseen : il.initialized = true → 2 ≤ il.intervals.length) :
    ∃ il', il.update sequence = .ok il' ∧
      il'.expectedSeq = sequence + 1 ∧
      (1 ≤ il'.intervals.length ∧ il'.intervals.length ≤ 9) ∧
      (il'.initialized = true → 2 ≤ il'.intervals.length) := by
  unfold InterLossState.update
  by_cases heq : sequence = il.expectedSeq
  · rw [if_pos heq]
    cases hi : il.intervals with
    | nil =>
        rw [hi] at hlen
        simp at hlen
    | cons i rest =>
        rw [hi] at hlen hseen
        exact ⟨_, rfl, by rw [heq], hlen, hseen⟩
  · rw [if_neg heq]
    have hgt : sequence > il.expectedSeq := by
      have : il.expectedSeq.toNat ≠ sequence.toNat :=
        fun h => heq (BitVec.eq_of_toNat_eq h.symm)
      have : il.expectedSeq.toNat ≤ sequence.toNat := hexp
      exact BitVec.lt_def.mpr (by omega)
    rw [assert_pos hgt, ok_bind]
    refine ⟨_, rfl, rfl, ?_, fun _ => ?_⟩
    · dsimp only
      split
      · simp only [List.length_dropLast, List.length_cons]
        omega
      · simp only [List.length_cons] at *
        omega
    · dsimp only
      split
      · simp only [List.length_dropLast, List.length_cons] at *
        omega
      · simp only [List.length_cons]
        omega

/-- **Garbage collection does not abort** when no record follows `last`, one
of them is in the window, and the sum is the sum of the sizes. -/
theorem collectHistory_progress (last len : BitVec 64)
    (history : List PacketRecord) (sum : BitVec 32)
    (hold : ∀ r ∈ history, lessThan last r.txTimestamp = false)
    (hin : ∃ r ∈ history, lessThan last (r.txTimestamp + len) = true)
    (hsum : sum.toNat = totalSize history) :
    ∃ sum', SenderBasedController.collectHistory last len history sum
        = .ok (history.dropWhile
            fun r => ! lessThan last (r.txTimestamp + len), sum') ∧
      sum'.toNat = totalSize (history.dropWhile
        fun r => ! lessThan last (r.txTimestamp + len)) := by
  induction history generalizing sum with
  | nil =>
      obtain ⟨_, hr, _⟩ := hin
      cases hr
  | cons p rest ih =>
      unfold SenderBasedController.collectHistory
      rw [assert_pos (by rw [hold p List.mem_cons_self]; exact Bool.false_ne_true),
        ok_bind]
      by_cases hp : lessThan last (p.txTimestamp + len) = true
      · rw [if_pos hp, List.dropWhile_cons_of_neg (by rw [hp]; decide)]
        exact ⟨sum, rfl, hsum⟩
      · rw [totalSize_cons] at hsum
        have hge : sum ≥ p.size := BitVec.le_def.mpr (by omega)
        rw [if_neg hp, assert_pos hge, ok_bind,
          List.dropWhile_cons_of_pos (by simpa using hp)]
        refine ih _ (fun r hr => hold r (List.mem_cons_of_mem _ hr)) ?_ ?_
        · obtain ⟨r, hr, hw⟩ := hin
          rcases List.mem_cons.mp hr with rfl | hr
          · exact absurd hw hp
          · exact ⟨r, hr, hw⟩
        · rw [BitVec.toNat_sub_of_le hge]
          omega

/-- The records of the history are less than 1000 ms older than a packet
that follows the newest of them within 500 ms. -/
theorem CallInv.dist_lt {s : SenderBasedController F} (hI : CallInv s)
    {tx : BitVec 64}
    (hclose : ∀ newest ∈ s.packetHistory.getLast?,
      dist newest.txTimestamp tx ≤ 500)
    {r : PacketRecord} (hr : r ∈ s.packetHistory) :
    dist r.txTimestamp tx < 1000 := by
  obtain ⟨newest, hn⟩ := Option.isSome_iff_exists.mp
    (List.getLast?_isSome.mpr (List.ne_nil_of_mem hr))
  have hlast := hclose newest hn
  obtain ⟨front, hfront⟩ := List.getLast?_eq_some_iff.mp hn
  have hwin := hI.window
  rw [hfront] at hr hwin
  rcases List.mem_append.mp hr with hr | hr
  · have hlt := (List.pairwise_append.mp hwin).2.2 r hr newest
      (List.mem_singleton.mpr rfl)
    rw [dist_trans (b := newest.txTimestamp) (by omega)]
    omega
  · rw [List.mem_singleton.mp hr]
    omega

/-- The records that stay are in the window of the packet just filed. -/
theorem CallInv.kept {s : SenderBasedController F} (hI : CallInv s)
    {tx : BitVec 64}
    (hclose : ∀ newest ∈ s.packetHistory.getLast?,
      dist newest.txTimestamp tx ≤ 500) :
    ∀ r ∈ keptHistory defaultHistoryLength tx s.packetHistory, dist r.txTimestamp tx < 500 := by
  intro r hr
  have hsub : keptHistory defaultHistoryLength tx s.packetHistory <:+ s.packetHistory :=
    List.dropWhile_suffix _
  cases hk : keptHistory defaultHistoryLength tx s.packetHistory with
  | nil =>
      rw [hk] at hr
      cases hr
  | cons p rest =>
      -- the first record that stays is in the window, the others are newer
      have hp : dist p.txTimestamp tx < 500 := by
        have hhead := List.head?_dropWhile_not
          (fun r => ! lessThan tx (r.txTimestamp + defaultHistoryLength))
          s.packetHistory
        rw [show s.packetHistory.dropWhile _ = p :: rest from hk] at hhead
        simp only [List.head?_cons, Bool.not_eq_false'] at hhead
        have hmem : p ∈ s.packetHistory :=
          hsub.subset (by rw [hk]; exact List.mem_cons_self)
        exact (lessThan_add_window (hI.dist_lt hclose hmem)).mp (by simpa using hhead)
      have hwin := hI.window.sublist hsub.sublist
      rw [hk, List.pairwise_cons] at hwin
      rw [hk] at hr
      rcases List.mem_cons.mp hr with rfl | hr'
      · exact hp
      · have hpr := hwin.1 r hr'
        have hrt := hI.dist_lt hclose
          (hsub.subset (by rw [hk]; exact List.mem_cons_of_mem _ hr'))
        have hsum := dist_trans (a := p.txTimestamp) (b := r.txTimestamp)
          (c := tx) (by omega)
        omega

theorem CallInv.dropObsolete {s : SenderBasedController F} (hI : CallInv s)
    (packet : PacketRecord) : CallInv (s.dropObsolete packet) := by
  unfold SenderBasedController.dropObsolete
  split
  · exact hI
  split
  · exact { hI with window := .nil, sum := rfl, expected := by simp }
  · exact hI

/-- What is left after an obsolete history is dropped is not obsolete. -/
theorem not_obsolete {s : SenderBasedController F} {packet newest : PacketRecord}
    (h : newest ∈ (s.dropObsolete packet).packetHistory.getLast?) :
    newest ∈ s.packetHistory.getLast? ∧
      lessThan (newest.txTimestamp + maxInterPacketTime) packet.txTimestamp
        = false := by
  unfold SenderBasedController.dropObsolete at h
  split at h
  · rename_i hnone
    rw [hnone] at h
    cases h
  · rename_i last hlast
    split at h
    · cases h
    · rename_i hobs
      rw [hlast] at h
      cases h
      exact ⟨hlast, eq_false_of_ne_true hobs⟩

theorem CallInv.updateInterLossData {s : SenderBasedController F}
    (hI : CallInv s) (packet : PacketRecord)
    (hskip : ∀ newest ∈ s.packetHistory.getLast?,
      newest.sequence + 1 ≤ packet.sequence) :
    ∃ il, s.updateInterLossData packet = .ok { s with ilState := il } ∧
      il.expectedSeq = packet.sequence + 1 ∧
      (1 ≤ il.intervals.length ∧ il.intervals.length ≤ 9) ∧
      (il.initialized = true → 2 ≤ il.intervals.length) := by
  unfold SenderBasedController.updateInterLossData
  cases hH : s.packetHistory with
  | nil =>
      obtain ⟨il, hil, hfacts⟩ := InterLossState.update_ok
        { InterLossState.new with expectedSeq := packet.sequence }
        (BitVec.le_refl _) (by simp [InterLossState.new])
        (by simp [InterLossState.new])
      refine ⟨il, ?_, hfacts⟩
      simp only [List.isEmpty_nil, if_true, hil, ok_bind]
  | cons r rest =>
      obtain ⟨newest, hn⟩ := Option.isSome_iff_exists.mp
        (List.getLast?_isSome.mpr (hH ▸ List.cons_ne_nil r rest))
      have hexp : s.ilState.expectedSeq ≤ packet.sequence := by
        rw [hI.expected newest hn]
        exact hskip newest hn
      obtain ⟨il, hil, hfacts⟩ :=
        InterLossState.update_ok _ hexp hI.intervals hI.lossSeen
      refine ⟨il, ?_, hfacts⟩
      simp only [List.isEmpty_cons, Bool.false_eq_true, if_false, hil, ok_bind]

/-- **Filing a packet does not abort**, and keeps the invariant. -/
theorem CallInv.record {s : SenderBasedController F} (hI : CallInv s)
    {packet : PacketRecord} (now rx : BitVec 64)
    (hfresh : packet.owd = 0 ∧ packet.rtt = 0)
    (hclose : ∀ newest ∈ s.packetHistory.getLast?,
      dist newest.txTimestamp packet.txTimestamp ≤ 500)
    (hskip : ∀ newest ∈ s.packetHistory.getLast?,
      newest.sequence + 1 ≤ packet.sequence)
    (hbytes : totalSize s.packetHistory + packet.size.toNat < 2 ^ 32) :
    ∃ s', s.recordFeedback packet now rx = .ok s' ∧ CallInv s' ∧
      s'.packetHistory
        = keptHistory defaultHistoryLength packet.txTimestamp s.packetHistory
          ++ [filed packet now rx] := by
  let f := filed packet now rx
  have hself : dist f.txTimestamp packet.txTimestamp = 0 := dist_self _
  have hf : lessThan packet.txTimestamp (f.txTimestamp + defaultHistoryLength)
      = true := (lessThan_add_window (by omega)).mpr (by omega)
  -- the base delay moves first, and no later step reads it
  let s₁ := { s with baseDelay := s.nextBaseDelay (rx - packet.txTimestamp) }
  have hI₁ : CallInv s₁ := { hI with }
  obtain ⟨il, hil, hexp, hlen, hseen⟩ := hI₁.updateInterLossData f hskip
  have hold : ∀ r ∈ s.packetHistory ++ [f],
      lessThan packet.txTimestamp r.txTimestamp = false := by
    intro r hr
    rcases List.mem_append.mp hr with hr | hr
    · exact not_lessThan_of_dist (hI.dist_lt hclose hr)
    · rw [List.mem_singleton.mp hr]
      exact lessThan_self _
  have hsum : (s.pktSizeSum + packet.size).toNat
      = totalSize (s.packetHistory ++ [f]) := by
    rw [BitVec.toNat_add, hI.sum, totalSize_concat]
    exact Nat.mod_eq_of_lt hbytes
  obtain ⟨sum, hgc, hsum'⟩ := collectHistory_progress packet.txTimestamp
    defaultHistoryLength _ _ hold ⟨f, by simp, hf⟩ hsum
  have hkept : (s.packetHistory ++ [f]).dropWhile
      (fun r => ! lessThan packet.txTimestamp (r.txTimestamp + defaultHistoryLength))
      = keptHistory defaultHistoryLength packet.txTimestamp s.packetHistory ++ [f] := by
    rw [List.dropWhile_append]
    split
    · rename_i he
      rw [List.isEmpty_iff] at he
      rw [keptHistory, he, List.nil_append,
        List.dropWhile_cons_of_neg (by rw [hf]; decide)]
    · rfl
  rw [hkept] at hgc hsum'
  refine ⟨{ s₁ with
    ilState := il
    packetHistory := keptHistory defaultHistoryLength packet.txTimestamp s.packetHistory ++ [f]
    pktSizeSum := sum }, ?_, ?_, rfl⟩
  · have hbase : (if s.packetHistory.isEmpty = true
        ∨ lessThan (rx - packet.txTimestamp) s.baseDelay = true
        then { s with baseDelay := rx - packet.txTimestamp } else s) = s₁ := by
      simp only [s₁, SenderBasedController.nextBaseDelay]
      split <;> rfl
    simp only [SenderBasedController.recordFeedback, assert_pos hfresh.1,
      assert_pos hfresh.2, ok_bind]
    rw [hbase]
    change (s₁.updateInterLossData f >>= fun s => _) = _
    rw [hil, ok_bind]
    dsimp only
    rw [show s₁.historyLengthMs = defaultHistoryLength from hI.historyLen]
    change (SenderBasedController.collectHistory packet.txTimestamp
      defaultHistoryLength (s.packetHistory ++ [f])
      (s.pktSizeSum + packet.size) >>= fun x => _) = _
    rw [hgc, ok_bind]
  · refine { hI with
      window := ?_, sum := hsum', expected := ?_, intervals := hlen,
      lossSeen := hseen }
    · refine List.pairwise_append.mpr
        ⟨hI.window.sublist (List.dropWhile_sublist _), List.pairwise_singleton _ _, ?_⟩
      intro r hr r' hr'
      rw [List.mem_singleton.mp hr']
      exact hI.kept hclose r hr
    · intro newest hn
      change newest ∈ (_ ++ [f]).getLast? at hn
      rw [List.getLast?_concat, Option.mem_some_iff] at hn
      rw [← hn]
      exact hexp

/-! ## Feedback -/

/-- Two numbers neither of which precedes the other are equal or exactly half
the circle apart. -/
theorem eq_of_not_lessThan {a b : BitVec 32} (hab : lessThan a b = false)
    (hba : lessThan b a = false) (hopp : a ≠ b + 0x80000000) : a = b := by
  by_contra hne
  rw [lessThan_eq_false_iff] at hab hba
  have hc := dist_comm hne
  have hd : dist b a = 2 ^ 31 := by
    rcases hab with hab | hab
    · exact absurd hab hne
    rcases hba with hba | hba
    · exact absurd hba.symm hne
    omega
  simp only [SerialNumber.dist] at hd
  exact hopp (by bv_omega)

theorem CallInv.dropQueue {s : SenderBasedController F} (hI : CallInv s)
    (k : Nat) :
    CallInv { s with inTransitPackets := s.inTransitPackets.drop k } := by
  refine { hI with first := ?_, back := ?_, fresh := ?_ }
  · intro h
    show s.inTransitPackets.drop k = []
    rw [hI.first h, List.drop_nil]
  · intro back hb
    change back ∈ (s.inTransitPackets.drop k).getLast? at hb
    rw [List.getLast?_drop] at hb
    split at hb
    · cases hb
    · exact hI.back back hb
  · intro p hp
    exact hI.fresh p (List.mem_of_mem_drop hp)

/-- Feedback that reaches no packet in transit changes nothing. -/
theorem CallInv.feedback_none {s : SenderBasedController F} (hI : CallInv s)
    {sequence : BitVec 32} (now rx : BitVec 64) (ecn : BitVec 8)
    (h : s.reached sequence = none) :
    ∃ res, s.processFeedback now sequence rx ecn = .ok (res, s) := by
  unfold SenderBasedController.processFeedback
  unfold SenderBasedController.reached at h
  by_cases hlast : lessThan s.lastSequence sequence = true
  · rw [if_pos hlast]
    exact ⟨false, rfl⟩
  · rw [if_neg hlast] at h ⊢
    cases hq : s.inTransitPackets.getLast? with
    | none => exact ⟨true, rfl⟩
    | some back =>
        -- the newest packet in transit is not older than `sequence`
        have hold := List.find?_eq_none.mp h back (List.mem_of_getLast? hq)
        rw [hI.back back hq, Bool.not_eq_true, Bool.not_eq_false'] at hold
        exact absurd hold hlast

theorem reached_eq_some {s : SenderBasedController F} {sequence : BitVec 32}
    {p : PacketRecord} (h : s.reached sequence = some p) :
    lessThan s.lastSequence sequence = false ∧
      s.inTransitPackets.find? (fun p => ! lessThan p.sequence sequence) = some p := by
  unfold SenderBasedController.reached at h
  split at h
  · cases h
  · rename_i hlast
    exact ⟨eq_false_of_ne_true hlast, h⟩

/-- Feedback that files no packet leaves the history. -/
theorem nextHistory_of_unmatched {s : SenderBasedController F} {sequence : BitVec 32}
    (now rx : BitVec 64) (h : s.matched sequence = none) :
    s.packetHistory = s.nextHistory now sequence rx := by
  rw [SenderBasedController.nextHistory, h]

/-- What stays of the history does not depend on the packets in transit. -/
theorem dropObsolete_packetHistory (s : SenderBasedController F) (queue : List PacketRecord)
    (p : PacketRecord) :
    (({ s with inTransitPackets := queue } : SenderBasedController F).dropObsolete
      p).packetHistory = (s.dropObsolete p).packetHistory := by
  simp only [SenderBasedController.dropObsolete]
  split
  · rfl
  · split <;> rfl

/-- What stays of the history ends shortly before the packet. -/
theorem dist_le_of_dropObsolete {s : SenderBasedController F} {p : PacketRecord}
    (hdec : s.decreasingTimestamp p = false) :
    ∀ newest ∈ (s.dropObsolete p).packetHistory.getLast?,
      dist newest.txTimestamp p.txTimestamp ≤ 500 := by
  intro newest hn
  obtain ⟨hn', hobs⟩ := not_obsolete hn
  refine dist_le_of_not_obsolete ?_ hobs
  rw [SenderBasedController.decreasingTimestamp,
    show s.packetHistory.getLast? = some newest from hn'] at hdec
  exact hdec

/-- **The feedback step**: safe feedback does not abort, keeps the invariant
and leaves `nextHistory`. -/
theorem CallInv.feedback {s : SenderBasedController F} (hI : CallInv s)
    {sequence : BitVec 32} (now rx : BitVec 64) (ecn : BitVec 8)
    (hsafe : s.FeedbackSafe sequence) :
    ∃ res s', s.processFeedback now sequence rx ecn = .ok (res, s') ∧
      CallInv s' ∧ s'.packetHistory = s.nextHistory now sequence rx := by
  cases hr : s.reached sequence with
  | none =>
      obtain ⟨res, hcall⟩ := hI.feedback_none now rx ecn hr
      have hnone : s.matched sequence = none := by
        rw [SenderBasedController.matched, hr, Option.filter_none]
      exact ⟨res, s, hcall, hI, nextHistory_of_unmatched now rx hnone⟩
  | some p =>
      obtain ⟨hlast, hfind⟩ := reached_eq_some hr
      have hp : lessThan p.sequence sequence = false := by
        simpa using List.find?_some hfind
      have hmem := List.mem_of_find?_eq_some hfind
      obtain ⟨back, hback⟩ := Option.isSome_iff_exists.mp
        (List.getLast?_isSome.mpr (List.ne_nil_of_mem hmem))
      obtain ⟨k, rest, hdrop, hdiscard⟩ :=
        SenderBasedController.discardOlder_find hfind
      simp only [SenderBasedController.processFeedback, hlast,
        Bool.false_eq_true, if_false, hback, assert_pos (hI.back back hback),
        ok_bind, hdiscard]
      by_cases hlt : lessThan sequence p.sequence = true
      · -- the packet of this feedback is no longer in transit
        have hnone : s.matched sequence = none := by
          have hne : p.sequence ≠ sequence := by
            intro heq
            rw [heq, lessThan_self] at hlt
            cases hlt
          rw [SenderBasedController.matched, hr, Option.filter_some,
            if_neg (by simp [hne])]
        exact ⟨true, _, if_pos hlt, hdrop ▸ hI.dropQueue k,
          nextHistory_of_unmatched now rx hnone⟩
      · rw [if_neg hlt]
        have heq : p.sequence = sequence :=
          eq_of_not_lessThan hp (eq_false_of_ne_true hlt) (hsafe.notOpposite p hr)
        have hrest : s.inTransitPackets.drop (k + 1) = rest := by
          rw [← List.tail_drop, hdrop, List.tail_cons]
        have hI' : CallInv { s with inTransitPackets := rest } :=
          hrest ▸ hI.dropQueue (k + 1)
        rw [assert_pos heq.symm, ok_bind]
        by_cases hdec : s.decreasingTimestamp p = true
        · have hnone : s.matched sequence = none := by
            rw [SenderBasedController.matched, hr, Option.filter_some,
              if_neg (by simp [hdec])]
          exact ⟨false, _, if_pos hdec, hI', nextHistory_of_unmatched now rx hnone⟩
        · have hdec' : s.decreasingTimestamp p = false := eq_false_of_ne_true hdec
          have hmatched : s.matched sequence = some p := by
            rw [SenderBasedController.matched, hr, Option.filter_some,
              if_pos (by simp [heq, hdec'])]
          have ht := dropObsolete_packetHistory s rest p
          have hclose := dist_le_of_dropObsolete hdec'
          rw [← ht] at hclose
          obtain ⟨s', hrec, hI'', hhist⟩ := (hI'.dropObsolete p).record now rx
            (hI.fresh p hmem) hclose
            (by
              rw [heq]
              exact ht ▸ hsafe.noWrapSkipped p hmatched)
            (ht ▸ hsafe.bytes p hmatched)
          refine ⟨true, s', ?_, hI'', ?_⟩
          · rw [if_neg (show ¬ ({ s with inTransitPackets := rest } :
              SenderBasedController F).decreasingTimestamp p = true from hdec),
              hrec, ok_bind]
          · rw [hhist, ht, SenderBasedController.nextHistory, hmatched, hI.historyLen]

/-! ## The rate update -/

/-- The size sum covers the size of every record. -/
theorem CallInv.front_le_sum {s : SenderBasedController F} (hI : CallInv s)
    {front : PacketRecord} (h : s.packetHistory.head? = some front) :
    front.size ≤ s.pktSizeSum := by
  have hsum := hI.sum
  obtain ⟨rest, hrest⟩ := List.head?_eq_some_iff.mp h
  rw [hrest, totalSize_cons] at hsum
  exact BitVec.le_def.mpr (by omega)

/-- The first and the last record of a history that is long enough. -/
theorem exists_ends {history : List PacketRecord}
    (h : ¬ history.length < minPacketLoglen) :
    ∃ front back, history.head? = some front ∧ history.getLast? = some back := by
  have hne : history ≠ [] := by
    rintro rfl
    exact h (by decide)
  obtain ⟨front, hf⟩ := Option.isSome_iff_exists.mp (List.isSome_head?.mpr hne)
  obtain ⟨back, hb⟩ := Option.isSome_iff_exists.mp (List.getLast?_isSome.mpr hne)
  exact ⟨front, back, hf, hb⟩

section Nada

variable [FloatOps F]

theorem CallInv.getCurrentRecvRate {s : SenderBasedController F}
    (hI : CallInv s) (hm : Measurable s.packetHistory) :
    ∃ rate, s.getCurrentRecvRate = .ok rate := by
  unfold SenderBasedController.getCurrentRecvRate
  by_cases hshort : s.packetHistory.length < minPacketLoglen
  · exact ⟨none, if_pos hshort⟩
  · rw [if_neg hshort]
    obtain ⟨front, back, hf, hb⟩ := exists_ends hshort
    obtain ⟨hrx, _⟩ := hm (Nat.not_lt.mp hshort) front hf back hb
    simp only [hf, hb, assert_pos hrx, ok_bind]
    split
    · exact ⟨none, rfl⟩
    · rw [assert_pos (hI.front_le_sum hf), ok_bind]
      exact ⟨_, rfl⟩

theorem getPktLossInfo_progress {s : SenderBasedController F}
    (hm : Measurable s.packetHistory) :
    ∃ loss, s.getPktLossInfo = .ok loss := by
  unfold SenderBasedController.getPktLossInfo
  by_cases hshort : s.packetHistory.length < minPacketLoglen
  · exact ⟨none, if_pos hshort⟩
  · rw [if_neg hshort]
    obtain ⟨front, back, hf, hb⟩ := exists_ends hshort
    obtain ⟨_, hspan⟩ := hm (Nat.not_lt.mp hshort) front hf back hb
    simp only [hf, hb, assert_pos (show _ ≥ _ from hspan), ok_bind]
    exact ⟨_, rfl⟩

theorem CallInv.getLossIntervalInfo {s : SenderBasedController F}
    (hI : CallInv s) : ∃ info, s.getLossIntervalInfo = .ok info := by
  unfold SenderBasedController.getLossIntervalInfo
  cases hinit : s.ilState.initialized with
  | false => exact ⟨none, rfl⟩
  | true =>
      rw [if_neg (by decide)]
      dsimp only
      rw [assert_pos ⟨hI.lossSeen hinit, hI.intervals.2⟩, ok_bind]
      cases hl : s.ilState.intervals with
      | nil =>
          have := hI.intervals.1
          rw [hl] at this
          simp at this
      | cons current older => exact ⟨_, rfl⟩

theorem NadaController.updateXcurr_base (s : NadaController F) :
    s.updateXcurr.base = s.base := by
  unfold NadaController.updateXcurr
  dsimp only
  split
  · rfl
  · split
    · split <;> rfl
    · rfl

theorem NadaController.calcAcceleratedRampUp_base (s : NadaController F) :
    s.calcAcceleratedRampUp.base = s.base := by
  unfold NadaController.calcAcceleratedRampUp
  dsimp only
  split_ifs <;> rfl

theorem NadaController.updateBw_base (s : NadaController F) (delta : BitVec 64) :
    (s.updateBw delta).base = s.base := by
  unfold NadaController.updateBw
  dsimp only
  split
  · rfl
  · exact s.calcAcceleratedRampUp_base

/-- The metrics are computed, and the superclass is left alone. -/
theorem CallInv.updateMetrics {s : NadaController F} (hI : CallInv s.base)
    (hm : Measurable s.base.packetHistory) :
    ∃ s', s.updateMetrics = .ok s' ∧ s'.base = s.base := by
  obtain ⟨rate, hrate⟩ := hI.getCurrentRecvRate hm
  obtain ⟨loss, hloss⟩ := getPktLossInfo_progress hm
  obtain ⟨info, hinfo⟩ := hI.getLossIntervalInfo
  unfold NadaController.updateMetrics
  simp only [hrate, hloss, ok_bind]
  cases loss <;> cases info <;> simp only [hinfo, ok_bind]
  all_goals
    refine ⟨_, rfl, ?_⟩
    split
    · rw [NadaController.updateXcurr_base]
    · rfl

/-- **The rate update does not abort** when the clock is in order and the
records are measurable, and it leaves the superclass alone. -/
theorem CallInv.updateRate {s : NadaController F} (hI : CallInv s.base)
    {now : BitVec 64}
    (hclock : s.lastTimeCalcValid = true → lessThan s.lastTimeCalc (now + 1) = true)
    (hm : s.lastTimeCalcValid = true → now - s.lastTimeCalc ≥ nadaParamDelta →
      Measurable s.base.packetHistory) :
    ∃ s', s.updateRate now = .ok s' ∧ s'.base = s.base := by
  unfold NadaController.updateRate
  cases hv : s.lastTimeCalcValid with
  | false => exact ⟨_, rfl, rfl⟩
  | true =>
      rw [if_neg (by decide), assert_pos (hclock hv), ok_bind]
      dsimp only
      by_cases hdelta : now - s.lastTimeCalc ≥ nadaParamDelta
      · obtain ⟨s', hs', hbase⟩ := hI.updateMetrics (hm hv hdelta)
        rw [if_pos hdelta, hs', ok_bind]
        refine ⟨_, rfl, ?_⟩
        show (s'.updateBw _).base = s.base
        rw [NadaController.updateBw_base, hbase]
      · exact ⟨s, if_neg hdelta, rfl⟩

theorem CallInv.nadaStep {s : NadaController F} {c : Call}
    (hI : CallInv s.base) (hsafe : s.Safe c) :
    ∃ res s', s.call c = .ok (res, s') ∧ CallInv s'.base := by
  cases c with
  | send tx sequence size =>
      obtain ⟨res, base, hcall, hI'⟩ := hI.send tx size hsafe
      refine ⟨res, { s with base }, ?_, hI'⟩
      simp only [NadaController.call, NadaController.processSendPacket, hcall,
        ok_bind]
  | feedback now sequence rx ecn =>
      obtain ⟨hbase, hclock, hm⟩ := hsafe
      obtain ⟨res, base, hcall, hI', hhist⟩ := hI.feedback now rx ecn hbase
      rw [← hhist] at hm
      obtain ⟨s', hs', hbase'⟩ :=
        CallInv.updateRate (s := { s with base }) hI' hclock hm
      refine ⟨res, s', ?_, hbase' ▸ hI'⟩
      simp only [NadaController.call, NadaController.processFeedback, hcall,
        ok_bind, hs']

/-! ## Runs -/

/-- **No controller aborts** in a run whose calls are all safe. -/
theorem neverAborts_of_safe :
    NeverAborts SenderBasedController.call SenderBasedController.Safe
      (SenderBasedController.new (F := F)) ∧
    NeverAborts NadaController.call NadaController.Safe
      (NadaController.new (F := F)) := by
  constructor
  · refine neverAborts_of_inv CallInv.init ?_
    intro s c hI hsafe
    cases c with
    | send tx sequence size => exact hI.send tx size hsafe
    | feedback now sequence rx ecn =>
        obtain ⟨res, s', hcall, hI', _⟩ := hI.feedback now rx ecn hsafe
        exact ⟨res, s', hcall, hI'⟩
  · refine neverAborts_of_inv (I := fun s => CallInv s.base) CallInv.init ?_
    intro s c hI hsafe
    exact CallInv.nadaStep hI hsafe

end Nada

/-- The state after a call that is safe and returns. -/
def NadaController.safeStep? [FloatOps F] (s : NadaController F) (c : Call) :
    Option (NadaController F) :=
  if s.Safe c then (s.call c).toOption.map (·.2) else none

theorem NadaController.callStep_of_safeStep? [FloatOps F] {s s' : NadaController F} {c : Call}
    (h : s.safeStep? c = some s') :
    CallStep NadaController.call NadaController.Safe s c s' := by
  obtain ⟨hsafe, h⟩ := Option.ite_none_right_eq_some.mp h
  obtain ⟨⟨res, s₁⟩, hcall, rfl⟩ := Option.map_eq_some_iff.mp h
  exact ⟨hsafe, res, ok_of_toOption hcall⟩

/-- Six packets are sent across the wrap, and the feedback for the first four
arrives. -/
def fourAcked : List Call :=
  [.send 0 0xFFFFFFFE 100, .send 20 0xFFFFFFFF 100, .send 40 0 100, .send 60 1 100,
    .send 80 2 100, .send 100 3 100, .feedback 50 0xFFFFFFFE 40 0,
    .feedback 70 0xFFFFFFFF 60 0, .feedback 90 0 80 0, .feedback 110 1 100 0]

/-- After `fourAcked`, feedback for packet `3` finds the rate due; it files the
fifth record, and packet `2` is lost. -/
theorem neverAborts_of_safe_wrap :
    ∃ s, Run (CallStep NadaController.call NadaController.Safe)
        (NadaController.new (F := Float32)) fourAcked s ∧
      s.base.packetHistory.map (·.sequence) = [0xFFFFFFFE, 0xFFFFFFFF, 0, 1] ∧
      (s.lastTimeCalcValid = true ∧ 160 - s.lastTimeCalc ≥ nadaParamDelta) ∧
      ∃ res s', s.call (.feedback 160 3 155 0) = .ok (res, s') := by
  have hlast : (fourAcked.foldlM NadaController.safeStep?
      (NadaController.new (F := Float32))).map (fun s =>
        (s.base.packetHistory.map (·.sequence),
          decide (s.lastTimeCalcValid = true ∧ 160 - s.lastTimeCalc ≥ nadaParamDelta),
          decide (s.Safe (.feedback 160 3 155 0)))) =
      some ([0xFFFFFFFE, 0xFFFFFFFF, 0, 1], true, true) := by
    decide
  obtain ⟨s, hs, hview⟩ := Option.map_eq_some_iff.mp hlast
  obtain ⟨hhist, hdue, hsafe⟩ : _ ∧ _ ∧ _ := by
    simpa only [Prod.mk.injEq] using hview
  have hrun := (Run.of_foldlM hs).mono fun _ _ _ => NadaController.callStep_of_safeStep?
  exact ⟨s, hrun, hhist, of_decide_eq_true hdue,
    neverAborts_of_safe.2 _ _ hrun _ (of_decide_eq_true hsafe)⟩

/-- Packets `2 ^ 32 - 2`, `2 ^ 32 - 1` and `0` are sent, and the first one is
acknowledged. -/
def wrappedLoss : List Call :=
  [.send 0 0xFFFFFFFE 100, .send 20 0xFFFFFFFF 100, .send 40 0 100,
    .feedback 50 0xFFFFFFFE 45 0]

/-- After `wrappedLoss`, feedback for packet `0` aborts: the loss of packet
`2 ^ 32 - 1` lies right before the wrap, and the plain comparison of
`updateInterLossData` fails. -/
theorem aborts_on_wrapped_loss :
    ¬ NeverAborts SenderBasedController.call (fun _ _ => True)
      (SenderBasedController.new (F := Float32)) ∧
    ¬ NeverAborts NadaController.call (fun _ _ => True)
      (NadaController.new (F := Float32)) := by
  constructor
  · intro h
    obtain ⟨res, s', hcall⟩ := h wrappedLoss _
      (.snoc (.snoc (.snoc (.snoc .nil ⟨trivial, true, rfl⟩)
        ⟨trivial, true, rfl⟩) ⟨trivial, true, rfl⟩) ⟨trivial, true, rfl⟩)
      (.feedback 90 0 85 0) trivial
    have habort : Except.ok (res, s') = .error Abort.sequenceAfterExpected :=
      hcall.symm.trans rfl
    cases habort
  · intro h
    obtain ⟨res, s', hcall⟩ := h wrappedLoss _
      (.snoc (.snoc (.snoc (.snoc .nil ⟨trivial, true, rfl⟩)
        ⟨trivial, true, rfl⟩) ⟨trivial, true, rfl⟩) ⟨trivial, true, rfl⟩)
      (.feedback 90 0 85 0) trivial
    have habort : Except.ok (res, s') = .error Abort.sequenceAfterExpected :=
      hcall.symm.trans rfl
    cases habort

end Rmcat
