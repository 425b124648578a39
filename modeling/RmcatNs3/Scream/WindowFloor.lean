import RmcatNs3.Scream.CongestionWindow
import RmcatNs3.Scream.TransmitRing

/-!
# The floor of the congestion window

A window never gets below its minimum, and the minimum never below two initial segments,
whatever the estimators say. The window is a part of the sender of which the other parts
are modelled in `ScreamTx`; it takes nothing from them but the events, the bytes and the
collisions that they see.
-/

namespace Scream

open FloatRounding MachineInt Runs

/-! ## The window alone -/

namespace CongestionWindow

/-- **The floor**; the window is only divided by while it is positive. -/
structure Floor (w : CongestionWindow) : Prop where
  cwndMin_le : w.cwndMin ≤ w.cwnd
  initMss_le : 2 * kInitMss ≤ w.cwndMin
  mss_le : kInitMss ≤ w.mss
  divisors_pos : ∀ d ∈ w.divisors, 0 < d

variable {w : CongestionWindow} {tx : ScreamTx} {time_us : Nat} {r : Readings}

theorem Floor.cwnd_pos (h : w.Floor) : 0 < w.cwnd := by
  have hmin := h.cwndMin_le
  have hmss := h.initMss_le
  simp only [kInitMss] at hmss
  omega

theorem floor_new (lossBeta ecnCeBeta gainUp gainDown : ℚ) {cwnd : Int}
    (hcwnd : cwnd = 0 ∨ 2 * kInitMss ≤ cwnd) (isL4s openWindow : Bool) (time : Nat) :
    (new lossBeta ecnCeBeta gainUp gainDown cwnd isL4s openWindow time).Floor where
  cwndMin_le := by
    simp only [new, kInitMss] at hcwnd ⊢
    split_ifs <;> omega
  initMss_le := by
    simp only [new, kInitMss]
    split_ifs <;> omega
  mss_le := le_refl _
  divisors_pos := fun d hd => absurd hd List.not_mem_nil

/-- A new size of the segments brings its minimum with it. -/
theorem Floor.setMss (h : w.Floor) {mss segments : Int} (hmss : kInitMss ≤ mss)
    (hsegments : 2 ≤ segments) : (w.setMss mss segments).Floor where
  cwndMin_le := le_max_right _ _
  initMss_le := by
    simp only [CongestionWindow.setMss]
    split
    · exact h.initMss_le
    · exact mul_le_mul hsegments hmss (by decide) (by omega)
  mss_le := hmss
  divisors_pos := h.divisors_pos

theorem Floor.newMediaFrame (h : w.Floor) (sizeOfNextRtp : Int) :
    (w.newMediaFrame sizeOfNextRtp).Floor :=
  h.setMss (h.mss_le.trans (le_max_left _ _)) (le_refl _)

theorem Floor.resetMss (h : w.Floor) (time_us : Nat) : (w.resetMss time_us).Floor := by
  rw [CongestionWindow.resetMss]
  split
  · have hset := h.setMss (le_refl kInitMss) (show 2 ≤ kMinCwndMss by decide)
    exact ⟨hset.cwndMin_le, hset.initMss_le, hset.mss_le, hset.divisors_pos⟩
  · exact h

/-- A collision takes the window down to the minimum, and not below. -/
theorem Floor.addTransmitted (h : w.Floor) (collides : Bool) (size : Nat) :
    (w.addTransmitted collides size).Floor := by
  have hstart : (if collides then { w with cwnd := w.cwndMin } else w).Floor := by
    split
    · exact ⟨le_refl _, h.initMss_le, h.mss_le, h.divisors_pos⟩
    · exact h
  exact hstart.setMss (hstart.mss_le.trans (le_max_left _ _)) (le_refl _)

/-! ## `updateCwnd` -/

/-- **A reduction leaves a positive window**, also with the rounding of a quarter of it. -/
theorem reduction_lt (hcwnd : 0 < w.cwnd) : trunc (w.reduction tx r) < w.cwnd := by
  have hquarter : w.cwnd.tdiv 4 ≤ w.cwnd / 4 := (Int.tdiv_eq_ediv_of_nonneg hcwnd.le).le
  refine (trunc_roundSigned_le (by decide) _).trans_lt ?_
  omega

/-- What `adapt` keeps: all but the window itself. -/
structure Adapted (w w' : CongestionWindow) : Prop where
  cwndMin : w'.cwndMin = w.cwndMin
  mss : w'.mss = w.mss
  divisors_pos : ∀ d ∈ w'.divisors, 0 < d

theorem Floor.increase (h : w.Floor) (tx : ScreamTx) (time_us : Nat) (r : Readings) :
    w.Adapted (w.increase tx time_us r) := by
  rw [CongestionWindow.increase]
  split
  · refine ⟨rfl, rfl, fun d hd => ?_⟩
    rcases List.mem_append.mp hd with hd | hd
    · exact h.divisors_pos d hd
    · rw [List.mem_singleton.mp hd]
      exact h.cwnd_pos
  · exact ⟨rfl, rfl, h.divisors_pos⟩

theorem Floor.reduce (h : w.Floor) (tx : ScreamTx) (time_us : Nat) (r : Readings) :
    w.Adapted (w.reduce tx time_us r) := by
  have hless := @reduction_lt w tx r h.cwnd_pos
  refine ⟨rfl, rfl, fun d hd => ?_⟩
  simp only [CongestionWindow.reduce, List.append_assoc, List.mem_append, List.mem_singleton]
    at hd
  rcases hd with hd | rfl | hd
  · exact h.divisors_pos d hd
  · exact h.cwnd_pos
  · split at hd
    · rw [List.mem_singleton.mp hd]
      omega
    · cases hd

theorem Floor.fastStart (h : w.Floor) (tx : ScreamTx) (time_us : Nat) (r : Readings) :
    w.Adapted (w.fastStart tx time_us r) := by
  rw [CongestionWindow.fastStart]
  split_ifs <;> exact ⟨rfl, rfl, h.divisors_pos⟩

/-- One case for each branch of the update. -/
theorem Floor.adapt (h : w.Floor) (tx : ScreamTx) (time_us : Nat) (r : Readings) :
    w.Adapted (w.adapt tx time_us r) := by
  rw [CongestionWindow.adapt]
  split_ifs
  · exact ⟨rfl, rfl, h.divisors_pos⟩
  · exact ⟨rfl, rfl, h.divisors_pos⟩
  · exact h.fastStart tx time_us r
  · exact h.increase tx time_us r
  · exact h.reduce tx time_us r

/-- The validation ends with the minimum, whatever the window was. -/
theorem Adapted.validate {w' : CongestionWindow} (h : w.Adapted w') (hw : w.Floor)
    (r : Readings) : (w'.validate r).Floor where
  cwndMin_le := le_max_left _ _
  initMss_le := hw.initMss_le.trans h.cwndMin.ge
  mss_le := hw.mss_le.trans h.mss.ge
  divisors_pos := h.divisors_pos

theorem Floor.resumeFastStart (h : w.Floor) (time_us : Nat) (r : Readings) :
    (w.resumeFastStart time_us r).Floor := by
  rw [CongestionWindow.resumeFastStart]
  split_ifs <;> exact ⟨h.cwndMin_le, h.initMss_le, h.mss_le, h.divisors_pos⟩

theorem Floor.updateCwnd (h : w.Floor) (tx : ScreamTx) (time_us : Nat) (r : Readings) :
    (w.updateCwnd tx time_us r).Floor :=
  ((h.adapt tx time_us r).validate h r).resumeFastStart time_us r

theorem Floor.handleEvents (h : w.Floor) (tx : ScreamTx) (time_us : Nat) (r : Readings) :
    (w.handleEvents tx time_us r).Floor := by
  rw [CongestionWindow.handleEvents]
  generalize (if tx.lastCwndUpdateT_us = 0 then time_us else tx.lastCwndUpdateT_us) = last
  split
  · exact h.updateCwnd _ time_us r
  · exact h

end CongestionWindow

/-! ## The window in its sender -/

namespace ScreamTx

/-- What `markAcked` and `detectLoss` leave, before events are handled. -/
def detected (s : ScreamTx) (fb : IncomingFeedback) (i : Nat) (stream : TxStream) : ScreamTx :=
  let marked := s.markAcked fb stream
  let d := s.detectLoss fb stream marked
  let ecnCe := decide (fb.ecnCeMarkedBytes ≠ stream.ecnCeMarkedBytes) &&
    decide (timeSince fb.time_us s.lastLossEventT_us > marked.rtt.sRtt_us)
  let s := s.setStream i { stream with
    txPackets := d.txPackets
    hiSeqAck := fb.highestSeqNr
    lastLossDetectIx := firstIx stream.hiSeqAck
    timeTxAck_us := marked.timeTxAck_us
    bytesAcked := d.bytesAcked
    bytesLost := d.bytesLost
    repairLoss := d.repairLoss
    ecnCeMarkedBytes := fb.ecnCeMarkedBytes }
  { s with
    bytesInFlight := d.bytesInFlight
    bytesNewlyAcked := d.bytesNewlyAcked
    lossEvent := d.lossEvent
    ecnCeEvent := s.ecnCeEvent || ecnCe
    lastLossEventT_us := if ecnCe then fb.time_us else s.lastLossEventT_us
    rtt := marked.rtt
    ackedOwd := marked.ackedOwd }

theorem applyFeedback_eq (s : ScreamTx) (fb : IncomingFeedback) (i : Nat) (stream : TxStream) :
    s.applyFeedback fb i stream = (s.detected fb i stream).handleEvents fb.time_us := rfl

/-- There is a packet in flight where the next one goes. -/
def collides (s : ScreamTx) (ssrc : BitVec 32) (seqNr : BitVec 16) : Bool :=
  ((s.getStream ssrc).map fun found =>
    (found.2.txPackets (seqNr.toNat % kMaxTxPackets)).isUsed).getD false

end ScreamTx

/-- A sender with its window. -/
structure WindowTx where
  tx : ScreamTx
  window : CongestionWindow

namespace WindowTx

/-- `sizeOfNextRtp` is the answer of the queue of the stream, after it may have been cleared. -/
def newMediaFrame (s : WindowTx) (time_us : Nat) (ssrc : BitVec 32)
    (lastBaseDelayRefreshT_us : Nat) (sizeOfNextRtp : Int) : Option WindowTx :=
  (s.tx.newMediaFrame time_us ssrc).map fun tx =>
    { tx
      window :=
        if timeSince time_us lastBaseDelayRefreshT_us < toUnsigned 64 (tx.rtt.sRtt_us * 2) then
          s.window
        else s.window.newMediaFrame sizeOfNextRtp }

/-- The stream is the one of `getPrioritizedStream`, and the size is that of its next
packet, or -1. -/
def isOkToTransmit (s : WindowTx) (time_us : Nat) (slow : Bool) (prioritized : Option Nat)
    (sizeOfNextRtp : Int) : Option WindowTx :=
  (s.tx.isOkToTransmit time_us slow (if sizeOfNextRtp = -1 then none else prioritized)).map
    fun tx =>
      { tx, window := if prioritized.isSome then s.window.resetMss time_us else s.window }

def addTransmitted (s : WindowTx) (time_us : Nat) (ssrc : BitVec 32) (size : Nat)
    (seqNr : BitVec 16) : Option WindowTx :=
  (s.tx.addTransmitted time_us ssrc size seqNr).map fun tx =>
    { tx, window := s.window.addTransmitted (s.tx.collides ssrc seqNr) size }

def incomingFeedback (s : WindowTx) (fb : IncomingFeedback) (r : Readings) : WindowTx where
  tx := s.tx.incomingFeedback fb
  window := match s.tx.accepts fb with
    | none => s.window
    | some (i, stream) => s.window.handleEvents
        (((s.tx.ensureInitialized fb.time_us).detected fb i stream).noteEvents fb.time_us)
        fb.time_us r

/-- The calls of `TxEvent`, with what the window takes from outside. -/
inductive Call where
  | registerNewStream (ssrc : BitVec 32)
  | newMediaFrame (time_us : Nat) (ssrc : BitVec 32) (lastBaseDelayRefreshT_us : Nat)
      (sizeOfNextRtp : Int)
  | isOkToTransmit (time_us : Nat) (slow : Bool) (prioritized : Option Nat) (sizeOfNextRtp : Int)
  | addTransmitted (time_us : Nat) (ssrc : BitVec 32) (size : Nat) (seqNr : BitVec 16)
  | incomingFeedback (fb : IncomingFeedback) (r : Readings)
  | getTargetBitrate (ssrc : BitVec 32)

/-- What the rest of the sender sees of a call. -/
def Call.event : Call → TxEvent
  | .registerNewStream ssrc => .registerNewStream ssrc
  | .newMediaFrame time_us ssrc _ _ => .newMediaFrame time_us ssrc
  | .isOkToTransmit time_us slow prioritized sizeOfNextRtp =>
      .isOkToTransmit time_us slow (if sizeOfNextRtp = -1 then none else prioritized)
  | .addTransmitted time_us ssrc size seqNr => .addTransmitted time_us ssrc size seqNr
  | .incomingFeedback fb _ => .incomingFeedback fb
  | .getTargetBitrate ssrc => .getTargetBitrate ssrc

/-- One call; `none` where the code uses a stream that does not exist. -/
def perform (s : WindowTx) : Call → Option WindowTx
  | .registerNewStream ssrc => (s.tx.registerNewStream ssrc).map fun tx => { s with tx }
  | .newMediaFrame time_us ssrc lastBaseDelayRefreshT_us sizeOfNextRtp =>
      s.newMediaFrame time_us ssrc lastBaseDelayRefreshT_us sizeOfNextRtp
  | .isOkToTransmit time_us slow prioritized sizeOfNextRtp =>
      s.isOkToTransmit time_us slow prioritized sizeOfNextRtp
  | .addTransmitted time_us ssrc size seqNr => s.addTransmitted time_us ssrc size seqNr
  | .incomingFeedback fb r => some (s.incomingFeedback fb r)
  | .getTargetBitrate ssrc => (s.tx.getTargetBitrate ssrc).map fun tx => { s with tx }

variable {s s' : WindowTx}

/-- **The window changes nothing else**: the rest of the sender takes the steps of
`ScreamTx`. -/
theorem tx_step {call : Call} (h : s.perform call = some s') : s.tx.Step call.event s'.tx := by
  cases call with
  | incomingFeedback fb r =>
    obtain rfl := Option.some.inj h
    rfl
  | _ =>
    obtain ⟨tx, htx, rfl⟩ := Option.map_eq_some_iff.mp h
    exact htx

/-- **Step lemma**. -/
theorem floor_perform {call : Call} (hfloor : s.window.Floor) (h : s.perform call = some s') :
    s'.window.Floor := by
  cases call with
  | registerNewStream ssrc =>
    obtain ⟨tx, _, rfl⟩ := Option.map_eq_some_iff.mp h
    exact hfloor
  | newMediaFrame time_us ssrc lastBaseDelayRefreshT_us sizeOfNextRtp =>
    obtain ⟨tx, _, rfl⟩ := Option.map_eq_some_iff.mp h
    dsimp only
    split
    · exact hfloor
    · exact hfloor.newMediaFrame sizeOfNextRtp
  | isOkToTransmit time_us slow prioritized sizeOfNextRtp =>
    obtain ⟨tx, _, rfl⟩ := Option.map_eq_some_iff.mp h
    dsimp only
    split
    · exact hfloor.resetMss time_us
    · exact hfloor
  | addTransmitted time_us ssrc size seqNr =>
    obtain ⟨tx, _, rfl⟩ := Option.map_eq_some_iff.mp h
    exact hfloor.addTransmitted _ size
  | incomingFeedback fb r =>
    obtain rfl := Option.some.inj h
    simp only [incomingFeedback]
    split
    · exact hfloor
    · exact hfloor.handleEvents _ fb.time_us r
  | getTargetBitrate ssrc =>
    obtain ⟨tx, _, rfl⟩ := Option.map_eq_some_iff.mp h
    exact hfloor

/-- **Run lemma**. -/
theorem floor_run {calls : List Call} (hfloor : s.window.Floor)
    (h : calls.foldlM perform s = some s') : s'.window.Floor :=
  (Run.of_foldlM h).stateInvariant (I := fun s => s.window.Floor) hfloor
    fun _ _ _ => floor_perform

/-- A new sender has no streams. -/
def new (lossBeta ecnCeBeta gainUp gainDown : ℚ) (cwnd : Int) (isL4s openWindow : Bool)
    (lastCongestionDetectedT_us : Nat) : WindowTx where
  tx := .new (lossBeta < 1)
  window := .new lossBeta ecnCeBeta gainUp gainDown cwnd isL4s openWindow
    lastCongestionDetectedT_us

/-- **The floor of the congestion window**: after every sequence of calls of a sender whose
initial window is 0 or two segments or more, the window is at its minimum or above it, the
minimum is two initial segments or more, and every division by the window was one by a
positive number. -/
theorem cwnd_floor_of_run (lossBeta ecnCeBeta gainUp gainDown : ℚ) {cwnd : Int}
    (hcwnd : cwnd = 0 ∨ 2 * kInitMss ≤ cwnd) (isL4s openWindow : Bool) (time : Nat)
    {calls : List Call}
    (h : calls.foldlM perform
      (new lossBeta ecnCeBeta gainUp gainDown cwnd isL4s openWindow time) = some s) :
    s.window.cwndMin ≤ s.window.cwnd ∧ 2 * kInitMss ≤ s.window.cwndMin ∧ 0 < 2 * kInitMss ∧
      ∀ d ∈ s.window.divisors, 0 < d := by
  have hfloor := floor_run (CongestionWindow.floor_new lossBeta ecnCeBeta gainUp gainDown hcwnd
    isL4s openWindow time) h
  exact ⟨hfloor.cwndMin_le, hfloor.initMss_le, by decide, hfloor.divisors_pos⟩

/-- What the estimators say at the end of a queue of 50 kbit/s. -/
def queueReadings (queueDelay queueDelayTrend : ℚ) : Readings :=
  ⟨50000, queueDelay, 0.1, queueDelayTrend, 0, 0, 0.05, 50000, 50000⟩

/-- The delay of three packets grows beyond its target; then two packets meet in one place of
the ring, and the delay is low again. -/
def delayedThenCollided : List Call :=
  [.registerNewStream 7, .newMediaFrame 1000 7 0 1200, .isOkToTransmit 2000 false (some 0) 1200,
    .addTransmitted 2000 7 1200 5, .addTransmitted 3000 7 1200 6, .addTransmitted 4000 7 1200 7,
    .incomingFeedback ⟨50000, 7, 40, 5, 1, 0, false⟩ (queueReadings 0.05 0),
    .incomingFeedback ⟨65000, 7, 55, 6, 3, 0, false⟩ (queueReadings 0.12 0.5),
    .incomingFeedback ⟨80000, 7, 70, 7, 7, 0, false⟩ (queueReadings 0.2 0.5),
    .addTransmitted 81000 7 1200 8, .addTransmitted 82000 7 1200 2056,
    .addTransmitted 83000 7 1200 2057, .addTransmitted 84000 7 1200 2058,
    .incomingFeedback ⟨110000, 7, 100, 2057, 3, 0, false⟩ (queueReadings 0.05 0.1)]

/-- The window is divided by twice where it is reduced and once where it is increased. -/
theorem cwnd_floor_of_delayedThenCollided :
    ∃ s, delayedThenCollided.foldlM perform (new 0.8 0.9 1 1 20000 false false 0) = some s ∧
      (s.window.divisors, s.window.cwnd, s.window.cwndMin) = ([20000, 19928, 2400], 3000, 2400) ∧
      s.window.cwndMin ≤ s.window.cwnd ∧ 2 * kInitMss ≤ s.window.cwndMin ∧ 0 < 2 * kInitMss ∧
      ∀ d ∈ s.window.divisors, 0 < d := by
  have hlast : (delayedThenCollided.foldlM perform
      (new 0.8 0.9 1 1 20000 false false 0)).map (fun s =>
        (s.window.divisors, s.window.cwnd, s.window.cwndMin)) =
      some ([20000, 19928, 2400], 3000, 2400) := by
    decide +kernel
  obtain ⟨s, hs, hview⟩ := Option.map_eq_some_iff.mp hlast
  exact ⟨s, hs, hview, cwnd_floor_of_run 0.8 0.9 1 1 (Or.inr (by decide)) false false 0 hs⟩

end WindowTx

end Scream
