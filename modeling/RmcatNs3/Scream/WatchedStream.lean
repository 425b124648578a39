import RmcatNs3.Scream.LossDetection

/-!
# One stream of a sender

What every call does to the ring of one stream and to the two numbers that say which of
its cells a feedback visits, next to the numbers of the packets that the stream has sent
and the highest numbers of the feedbacks that it has accepted.
-/

namespace Scream

open MachineInt SerialNumber

/-- A ring with what decides which of its cells a feedback visits. -/
structure RingState where
  ssrc : BitVec 32
  hiSeqAck : BitVec 16
  lastLossDetectIx : Int
  txPackets : Ring

def TxStream.ringState (stream : TxStream) : RingState :=
  ⟨stream.ssrc, stream.hiSeqAck, stream.lastLossDetectIx, stream.txPackets⟩

/-- A packet as `addTransmitted` enters it. -/
def sentPacket (time_us size : Nat) (seqNr : BitVec 16) : Transmitted where
  timeTx_us := time_us
  timestamp := toUnsigned 32 (time_us / 1000 : Nat)
  size := size
  seqNr := seqNr
  isUsed := true
  isAcked := false
  isAfterReceivedEdge := false

namespace RingState

/-- The list is cleaned. -/
def clear (r : RingState) : RingState :=
  { r with txPackets := fun n => { r.txPackets n with isUsed := false } }

/-- A packet is entered, after the list is cleaned if the cell is in use. -/
def send (r : RingState) (time_us size : Nat) (seqNr : BitVec 16) : RingState :=
  let ix := seqNr.toNat % kMaxTxPackets
  let cleared := if (r.txPackets ix).isUsed then r.clear else r
  { cleared with
    txPackets := Function.update cleared.txPackets ix (sentPacket time_us size seqNr) }

variable {r : RingState} {seqNr : BitVec 16}

theorem send_of_free (time_us size : Nat)
    (h : ¬ (r.txPackets (seqNr.toNat % 2048)).isUsed = true) :
    r.send time_us size seqNr = { r with
      txPackets := Function.update r.txPackets (seqNr.toNat % 2048)
        (sentPacket time_us size seqNr) } := by
  have hfree : ¬ (r.txPackets (seqNr.toNat % kMaxTxPackets)).isUsed = true := h
  simp only [send, if_neg hfree]
  rfl

theorem send_of_used (time_us size : Nat)
    (h : (r.txPackets (seqNr.toNat % 2048)).isUsed = true) :
    r.send time_us size seqNr = { r with
      txPackets := Function.update r.clear.txPackets (seqNr.toNat % 2048)
        (sentPacket time_us size seqNr) } := by
  have hused : (r.txPackets (seqNr.toNat % kMaxTxPackets)).isUsed = true := h
  simp only [send, if_pos hused]
  rfl

/-- A transmission leaves the cursors alone. -/
theorem send_cursors (r : RingState) (time_us size : Nat) (seqNr : BitVec 16) :
    (r.send time_us size seqNr).ssrc = r.ssrc ∧
      (r.send time_us size seqNr).hiSeqAck = r.hiSeqAck ∧
      (r.send time_us size seqNr).lastLossDetectIx = r.lastLossDetectIx := by
  by_cases hused : (r.txPackets (seqNr.toNat % 2048)).isUsed = true
  · rw [send_of_used _ _ hused]
    exact ⟨rfl, rfl, rfl⟩
  · rw [send_of_free _ _ hused]
    exact ⟨rfl, rfl, rfl⟩

end RingState

/-- A stream goes through its ring with a feedback. -/
def TxStream.hear (stream : TxStream) (fb : IncomingFeedback) : RingState where
  ssrc := stream.ssrc
  hiSeqAck := fb.highestSeqNr
  lastLossDetectIx := firstIx stream.hiSeqAck
  txPackets := detectedRing fb stream (ackTime fb stream)

namespace ScreamTx

variable {s s' : ScreamTx}

def ringStates (s : ScreamTx) : List RingState := s.streams.map TxStream.ringState

/-- The number that the call transmits on stream `i`. -/
def sends (s : ScreamTx) (i : Nat) : TxEvent → Option (BitVec 16)
  | .addTransmitted time_us ssrc _ seqNr =>
      ((s.ensureInitialized time_us).getStream ssrc).bind fun found =>
        if found.1 = i then some seqNr else none
  | _ => none

/-- The feedback that stream `i` accepts in the call. -/
def hears (s : ScreamTx) (i : Nat) : TxEvent → Option IncomingFeedback
  | .incomingFeedback fb =>
      (s.accepts fb).bind fun found => if found.1 = i then some fb else none
  | _ => none

theorem hears_isSome {i : Nat} {e : TxEvent} {fb : IncomingFeedback}
    (h : s.hears i e = some fb) : ∃ fb', e = .incomingFeedback fb' := by
  cases e with
  | incomingFeedback fb' => exact ⟨fb', rfl⟩
  | _ => exact absurd h nofun

/-! ## What calls do to the rings -/

theorem ringStates_getElem? {i : Nat} {stream : TxStream} (h : s.streams[i]? = some stream) :
    s.ringStates[i]? = some stream.ringState := by
  rw [ringStates, List.getElem?_map, h, Option.map_some]

theorem exists_stream {i : Nat} {r : RingState} (h : s.ringStates[i]? = some r) :
    ∃ stream, s.streams[i]? = some stream ∧ stream.ringState = r := by
  rw [ringStates, List.getElem?_map] at h
  exact Option.map_eq_some_iff.mp h

theorem Inv.ringInv {i : Nat} {r : RingState} (h : s.Inv) (hr : s.ringStates[i]? = some r) :
    RingInv r.txPackets := by
  obtain ⟨stream, hstream, rfl⟩ := exists_stream hr
  exact h _ (List.mem_of_getElem? (rings_getElem? hstream))

@[simp] theorem ensureInitialized_ringStates (s : ScreamTx) (time_us : Nat) :
    (s.ensureInitialized time_us).ringStates = s.ringStates := by
  simp [ringStates]

theorem setStream_ringStates (s : ScreamTx) (i : Nat) (stream : TxStream) :
    (s.setStream i stream).ringStates = s.ringStates.set i stream.ringState := by
  simp [ringStates, setStream, List.map_set]

/-- A change of a stream that leaves its ring and its cursors alone. -/
theorem setStream_same {i : Nat} {stream stream' : TxStream} (h : s.streams[i]? = some stream)
    (hsame : stream'.ringState = stream.ringState) :
    (s.setStream i stream').ringStates = s.ringStates := by
  rw [setStream_ringStates, hsame, set_of_getElem? (ringStates_getElem? h)]

theorem updateRates_ringStates (s : ScreamTx) (time_us : Nat) (slow : Bool) :
    (s.updateRates time_us slow).ringStates = s.ringStates := by
  unfold updateRates ringStates
  split
  · rw [List.map_map]
    rfl
  · rfl

theorem handleEvents_ringStates (s : ScreamTx) (time_us : Nat) :
    (s.handleEvents time_us).ringStates = s.ringStates := by
  have hnote : (s.noteEvents time_us).ringStates = s.ringStates := by
    have hstream : TxStream.ringState ∘ TxStream.noteEvent s.lossEvent = TxStream.ringState := by
      funext stream
      cases hloss : s.lossEvent <;> rfl
    unfold noteEvents ringStates
    split
    · rw [List.map_map, hstream]
    · rfl
  rw [← hnote]
  unfold handleEvents
  simp only
  split <;> split <;> rfl

theorem registerNewStream_ringStates {ssrc : BitVec 32}
    (h : s.registerNewStream ssrc = some s') :
    s'.ringStates = s.ringStates ++ [(TxStream.new ssrc).ringState] := by
  unfold registerNewStream at h
  split at h
  · obtain rfl := Option.some.inj h
    simp [ringStates]
  · exact absurd h nofun

theorem newMediaFrame_ringStates {time_us : Nat} {ssrc : BitVec 32}
    (h : s.newMediaFrame time_us ssrc = some s') : s'.ringStates = s.ringStates := by
  obtain ⟨⟨i, stream⟩, hfound, rfl⟩ := Option.map_eq_some_iff.mp h
  rw [← ensureInitialized_ringStates s time_us]
  exact setStream_same (getStream_eq_some hfound) rfl

theorem getTargetBitrate_ringStates {ssrc : BitVec 32} (h : s.getTargetBitrate ssrc = some s') :
    s'.ringStates = s.ringStates := by
  obtain ⟨⟨i, stream⟩, hfound, rfl⟩ := Option.map_eq_some_iff.mp h
  exact setStream_same (getStream_eq_some hfound) rfl

/-- `isOkToTransmit` changes nothing, or cleans the list of a stream. -/
theorem isOkToTransmit_ringStates {time_us : Nat} {slow : Bool} {prioritized : Option Nat}
    (h : s.isOkToTransmit time_us slow prioritized = some s') :
    s'.ringStates = s.ringStates ∨ ∃ j r, s.ringStates[j]? = some r ∧
      s'.ringStates = s.ringStates.set j r.clear := by
  have hrates := updateRates_ringStates (s.ensureInitialized time_us) time_us slow
  rw [ensureInitialized_ringStates] at hrates
  unfold isOkToTransmit at h
  cases prioritized with
  | none =>
      obtain rfl := Option.some.inj h
      exact .inl hrates
  | some j =>
      obtain ⟨stream, hstream, hrest⟩ := Option.bind_eq_some_iff.mp h
      split at hrest
      · obtain rfl := Option.some.inj hrest
        refine .inr ⟨j, stream.ringState, ?_, ?_⟩
        · rw [← hrates]
          exact ringStates_getElem? hstream
        · rw [← hrates]
          exact setStream_ringStates _ j _
      · obtain rfl := Option.some.inj hrest
        exact .inl hrates

theorem addTransmitted_ringStates {time_us size : Nat} {ssrc : BitVec 32} {seqNr : BitVec 16}
    (h : s.addTransmitted time_us ssrc size seqNr = some s') :
    ∃ j stream, (s.ensureInitialized time_us).getStream ssrc = some (j, stream) ∧
      s.streams[j]? = some stream ∧
      s'.ringStates = s.ringStates.set j (stream.ringState.send time_us size seqNr) := by
  obtain ⟨⟨j, stream⟩, hfound, hrest⟩ := Option.bind_eq_some_iff.mp h
  obtain rfl := Option.some.inj hrest
  have hstream := getStream_eq_some hfound
  refine ⟨j, stream, hfound, ?_, ?_⟩
  · rwa [ensureInitialized_streams] at hstream
  · rw [← ensureInitialized_ringStates s time_us]
    refine (setStream_ringStates _ j _).trans ?_
    congr 1
    by_cases hcollides : (stream.txPackets (seqNr.toNat % kMaxTxPackets)).isUsed = true
    · simp only [hcollides, if_true, RingState.send, TxStream.ringState]
      rfl
    · simp only [hcollides, if_false, Bool.false_eq_true, RingState.send, TxStream.ringState]
      rfl

/-- A feedback that a stream accepts goes through the ring of that stream. -/
theorem incomingFeedback_ringStates (h : s.Inv) (fb : IncomingFeedback) :
    (s.accepts fb = none ∧ (s.incomingFeedback fb).ringStates = s.ringStates) ∨
    ∃ j stream, s.accepts fb = some (j, stream) ∧ s.streams[j]? = some stream ∧
      (s.incomingFeedback fb).ringStates = s.ringStates.set j (stream.hear fb) := by
  unfold incomingFeedback
  cases haccepts : s.accepts fb with
  | none => exact .inl ⟨rfl, ensureInitialized_ringStates s fb.time_us⟩
  | some found =>
      obtain ⟨j, stream⟩ := found
      obtain ⟨hstream, hring⟩ := accepts_eq_some haccepts
      refine .inr ⟨j, stream, rfl, hstream, ?_⟩
      have htime := @markAcked_timeTxAck_us fb stream (s.ensureInitialized fb.time_us)
        (h _ (List.mem_of_getElem? hring))
      unfold applyFeedback
      simp only [handleEvents_ringStates]
      rw [← ensureInitialized_ringStates s fb.time_us]
      refine (setStream_ringStates _ j _).trans ?_
      congr 1
      simp only [TxStream.ringState, TxStream.hear, detectLoss_txPackets, htime]

/-- What a call can do to stream `i`. -/
inductive Moves (s : ScreamTx) (i : Nat) (e : TxEvent) (r : RingState) : RingState → Prop
  | send (time_us size : Nat) {seqNr : BitVec 16} (hsends : s.sends i e = some seqNr)
      (hhears : s.hears i e = none) : Moves s i e r (r.send time_us size seqNr)
  | hear {fb : IncomingFeedback} {stream : TxStream} (hsends : s.sends i e = none)
      (hhears : s.hears i e = some fb) (hstream : s.streams[i]? = some stream)
      (hr : stream.ringState = r) : Moves s i e r (stream.hear fb)
  | clear (hsends : s.sends i e = none) (hhears : s.hears i e = none) : Moves s i e r r.clear
  | same (hsends : s.sends i e = none) (hhears : s.hears i e = none) : Moves s i e r r

/-- **Every call** does one of these to a stream. -/
theorem Step.moves {e : TxEvent} {i : Nat} {r : RingState} (hinv : s.Inv)
    (hstep : s.Step e s') (h : s.ringStates[i]? = some r) :
    ∃ r', s'.ringStates[i]? = some r' ∧ s.Moves i e r r' := by
  obtain ⟨hi, hr⟩ := List.getElem?_eq_some_iff.mp h
  have hsame : s'.ringStates = s.ringStates → s.sends i e = none → s.hears i e = none →
      ∃ r', s'.ringStates[i]? = some r' ∧ s.Moves i e r r' :=
    fun heq hsends hhears => ⟨r, heq ▸ h, .same hsends hhears⟩
  cases e with
  | registerNewStream ssrc =>
      refine ⟨r, ?_, .same rfl rfl⟩
      rw [registerNewStream_ringStates hstep, List.getElem?_append_left hi, h]
  | newMediaFrame time_us ssrc => exact hsame (newMediaFrame_ringStates hstep) rfl rfl
  | getTargetBitrate ssrc => exact hsame (getTargetBitrate_ringStates hstep) rfl rfl
  | isOkToTransmit time_us slow prioritized =>
      rcases isOkToTransmit_ringStates hstep with hrings | ⟨j, r₁, hr₁, hrings⟩
      · exact hsame hrings rfl rfl
      · by_cases hj : j = i
        · subst hj
          obtain rfl := Option.some.inj (h.symm.trans hr₁)
          refine ⟨r.clear, ?_, .clear rfl rfl⟩
          rw [hrings, List.getElem?_set_self hi]
        · refine ⟨r, ?_, .same rfl rfl⟩
          rw [hrings, List.getElem?_set_ne hj, h]
  | addTransmitted time_us ssrc size seqNr =>
      obtain ⟨j, stream, hfound, hstream, hrings⟩ := addTransmitted_ringStates hstep
      have hsends : s.sends i (.addTransmitted time_us ssrc size seqNr) =
          if j = i then some seqNr else none := by
        simp only [sends, hfound, Option.bind_some]
      by_cases hj : j = i
      · subst hj
        obtain rfl := Option.some.inj (h.symm.trans (ringStates_getElem? hstream))
        refine ⟨_, ?_, .send time_us size (by rw [hsends, if_pos rfl]) rfl⟩
        rw [hrings, List.getElem?_set_self hi]
      · refine ⟨r, ?_, .same (by rw [hsends, if_neg hj]) rfl⟩
        rw [hrings, List.getElem?_set_ne hj, h]
  | incomingFeedback fb =>
      obtain rfl := Option.some.inj hstep
      rcases incomingFeedback_ringStates hinv fb with
        ⟨hnone, hrings⟩ | ⟨j, stream, haccepts, hstream, hrings⟩
      · exact hsame hrings rfl (by simp only [hears, hnone, Option.bind_none])
      · have hhears : s.hears i (.incomingFeedback fb) = if j = i then some fb else none := by
          simp only [hears, haccepts, Option.bind_some]
        by_cases hj : j = i
        · subst hj
          have hr' := Option.some.inj ((ringStates_getElem? hstream).symm.trans h)
          refine ⟨stream.hear fb, ?_, .hear rfl (by rw [hhears, if_pos rfl]) hstream hr'⟩
          rw [hrings, List.getElem?_set_self hi]
        · refine ⟨r, ?_, .same rfl (by rw [hhears, if_neg hj])⟩
          rw [hrings, List.getElem?_set_ne hj, h]

/-- A stream that appears is new, and nothing has been sent on it. -/
theorem Step.appears {e : TxEvent} {i : Nat} (hinv : s.Inv) (hstep : s.Step e s')
    (h : s.ringStates[i]? = none) :
    s.sends i e = none ∧ s.hears i e = none ∧
      ∀ r, s'.ringStates[i]? = some r → ∃ ssrc, r = (TxStream.new ssrc).ringState := by
  have hkept : s'.ringStates.length = s.ringStates.length →
      ∀ r, s'.ringStates[i]? = some r → ∃ ssrc, r = (TxStream.new ssrc).ringState := by
    intro hlength r hr
    have hi := (List.getElem?_eq_some_iff.mp hr).1
    rw [List.getElem?_eq_none_iff] at h
    omega
  have hother : ∀ (j : Nat) (stream : TxStream), s.streams[j]? = some stream → j ≠ i := by
    intro j stream hstream hj
    rw [← hj, ringStates_getElem? hstream] at h
    exact absurd h nofun
  cases e with
  | registerNewStream ssrc =>
      refine ⟨rfl, rfl, ?_⟩
      intro r hr
      rw [registerNewStream_ringStates hstep, List.getElem?_append_right
        (List.getElem?_eq_none_iff.mp h)] at hr
      exact ⟨ssrc, (List.mem_singleton.mp (List.mem_of_getElem? hr))⟩
  | newMediaFrame time_us ssrc =>
      exact ⟨rfl, rfl, hkept (congrArg _ (newMediaFrame_ringStates hstep))⟩
  | getTargetBitrate ssrc =>
      exact ⟨rfl, rfl, hkept (congrArg _ (getTargetBitrate_ringStates hstep))⟩
  | isOkToTransmit time_us slow prioritized =>
      refine ⟨rfl, rfl, hkept ?_⟩
      rcases isOkToTransmit_ringStates hstep with hrings | ⟨j, r₁, _, hrings⟩
      · rw [hrings]
      · rw [hrings, List.length_set]
  | addTransmitted time_us ssrc size seqNr =>
      obtain ⟨j, stream, hfound, hstream, hrings⟩ := addTransmitted_ringStates hstep
      refine ⟨?_, rfl, hkept (by rw [hrings, List.length_set])⟩
      simp only [sends, hfound, Option.bind_some]
      exact if_neg (hother j stream hstream)
  | incomingFeedback fb =>
      obtain rfl := Option.some.inj hstep
      rcases incomingFeedback_ringStates hinv fb with
        ⟨hnone, hrings⟩ | ⟨j, stream, haccepts, hstream, hrings⟩
      · exact ⟨rfl, by simp only [hears, hnone, Option.bind_none], hkept (congrArg _ hrings)⟩
      · refine ⟨rfl, ?_, hkept (by rw [hrings, List.length_set])⟩
        simp only [hears, haccepts, Option.bind_some]
        exact if_neg (hother j stream hstream)

end ScreamTx

end Scream
