import Mathlib.Algebra.BigOperators.Group.List.Basic
import Mathlib.Algebra.Order.Group.Nat
import Mathlib.Algebra.Ring.Nat
import Mathlib.Data.List.Induction
import RmcatNs3.Rmcat.RmcatSender

/-!
# Runs of the rate-shaping buffer

The send timer is pending while packets are buffered, and only then: it starts with the
first packet, restarts with each one that is sent while others are left, and goes when a
pause or a stop clears the buffer. The counter of the bytes has 32 bits, and nothing limits
how much is buffered between two packets that are sent.
-/

namespace Rmcat

open Runs EventQueue RmcatEvent

namespace RmcatSender

variable {R : Type} {ms : BitVec 32 → R → Nat} {s s' : RmcatSender R}

/-- The bytes of some packets. -/
def bytesOf (buf : List (BitVec 32)) : Nat := (buf.map (·.toNat)).sum

/-- What holds of the buffer, its timer and the controller's packets in a reachable state. -/
structure Shaped (s : RmcatSender R) : Prop where
  pending_iff : s.queue.AnyPending IsSend ↔ s.rateShapingBuf ≠ []
  bytes : s.rateShapingBytes.toNat = bytesOf s.rateShapingBuf % 2 ^ 32
  /-- `SendPacket` does not run on an empty buffer. -/
  send_nonempty : ∀ e queue, s.queue.pop = some (e, queue) → e.action.IsSend →
    s.rateShapingBuf ≠ []
  consecutive : s.processed.map (·.sequence) =
    (List.range s.processed.length).map (BitVec.ofNat 32)
  inOrder : s.processed.Pairwise fun p p' => p.txTimestamp ≤ p'.txTimestamp

/-- What holds whether the timer has just run or not. -/
structure Kept (s : RmcatSender R) : Prop where
  bytes : s.rateShapingBytes = BitVec.ofNat 32 (bytesOf s.rateShapingBuf)
  consecutive : s.processed.map (·.sequence) =
    (List.range s.processed.length).map (BitVec.ofNat 32)
  next : s.started = true → s.sequence = BitVec.ofNat 32 s.processed.length
  unstarted : s.started = false → s.processed = [] ∧ s.queue.pending = []
  inOrder : s.processed.Pairwise fun p p' => p.txTimestamp ≤ p'.txTimestamp
  past : ∀ p ∈ s.processed, p.txTimestamp ≤ s.nowMs

/-- **The invariant**: the handle `m_sendEvent` follows the send timer, which is pending
while there is something to send. -/
structure Inv (s : RmcatSender R) : Prop extends Kept s where
  follows : s.queue.Follows s.sendEvent IsSend
  pending_iff : s.queue.AnyPending IsSend ↔ s.rateShapingBuf ≠ []

theorem Inv.shaped (h : Inv s) : Shaped s where
  pending_iff := h.pending_iff
  bytes := by
    rw [h.bytes, BitVec.toNat_ofNat]
  send_nonempty := by
    intro e queue hpop hsend
    exact h.pending_iff.mp ⟨e, (pop_eq_some hpop).1, hsend⟩
  consecutive := h.consecutive
  inOrder := h.inOrder

theorem inv_new (zero initBw : R) : Inv (new zero initBw) where
  bytes := rfl
  consecutive := rfl
  next := nofun
  unstarted := fun _ => ⟨rfl, rfl⟩
  inOrder := .nil
  past := nofun
  follows := ⟨nofun, nofun⟩
  pending_iff := by
    constructor
    · rintro ⟨e, he, _⟩
      exact absurd he List.not_mem_nil
    · exact fun h => absurd rfl h

@[simp] theorem bytesOf_append (buf : List (BitVec 32)) (b : BitVec 32) :
    bytesOf (buf ++ [b]) = bytesOf buf + b.toNat := by
  simp [bytesOf]

@[simp] theorem bytesOf_cons (b : BitVec 32) (buf : List (BitVec 32)) :
    bytesOf (b :: buf) = b.toNat + bytesOf buf := by
  simp [bytesOf]

/-! ## The queue changes -/

/-- Time passes, and events that are not sends come and go. -/
theorem Kept.setQueue (h : Kept s) (hstarted : s.started = true) {queue : EventQueue RmcatEvent}
    (hnow : s.queue.now ≤ queue.now) : Kept { s with queue } where
  bytes := h.bytes
  consecutive := h.consecutive
  next := h.next
  unstarted := fun hnot => absurd hstarted (by simp_all)
  inOrder := h.inOrder
  past := fun p hp => (h.past p hp).trans (Nat.div_le_div_right hnow)

/-- A packet is going to be enqueued. -/
theorem Inv.scheduleEnqueue (h : Inv s) (hstarted : s.started = true) (delay : Nat) :
    Inv { s with
      enqueueEvent := s.queue.nextId
      queue := s.queue.schedule delay .enqueuePacket } where
  toKept := ⟨h.bytes, h.consecutive, h.next, fun hnot => absurd hstarted (by simp_all),
    h.inOrder, h.past⟩
  follows := h.follows.schedule not_false
  pending_iff := by
    rw [anyPending_schedule, ← h.pending_iff]
    simp [IsSend]

/-! ## The calls -/

theorem Inv.startApplication (h : Inv s) (hnot : s.started = false) :
    Inv s.startApplication where
  bytes := h.bytes
  consecutive := h.consecutive
  next := by
    intro _
    show (0 : BitVec 32) = BitVec.ofNat 32 s.processed.length
    rw [(h.unstarted hnot).1]
    rfl
  unstarted := nofun
  inOrder := h.inOrder
  past := h.past
  follows := h.follows.schedule not_false
  pending_iff := by
    show (s.queue.schedule 0 .enqueuePacket).AnyPending IsSend ↔ s.rateShapingBuf ≠ []
    rw [anyPending_schedule, ← h.pending_iff]
    simp [IsSend]

/-- Clearing the buffer cancels the timer. -/
theorem Inv.clearBuffer (h : Inv s) (hstarted : s.started = true) : Inv s.clearBuffer where
  bytes := rfl
  consecutive := h.consecutive
  next := h.next
  unstarted := fun hnot => absurd hstarted (by simp_all [RmcatSender.clearBuffer])
  inOrder := h.inOrder
  past := h.past
  follows := h.follows.cancel.cancel.cancel
  pending_iff := by
    refine iff_of_false ?_ (fun hne => hne rfl)
    intro hpending
    -- the second handle that is cancelled is the one of the timer
    exact h.follows.cancel.not_pending
      (hpending.of_subset fun _ he => (mem_cancel.mp he).1)

theorem Inv.pauseResume (h : Inv s) (hstarted : s.started = true) {pause : Bool}
    (hcall : s.pauseResume pause = some s') : Inv s' := by
  unfold RmcatSender.pauseResume at hcall
  split at hcall
  · obtain rfl := Option.some.inj hcall
    cases pause with
    | true =>
        have hclear := h.clearBuffer hstarted
        exact ⟨⟨hclear.bytes, hclear.consecutive, hclear.next, hclear.unstarted,
          hclear.inOrder, hclear.past⟩, hclear.follows, hclear.pending_iff⟩
    | false =>
        have hresume := h.scheduleEnqueue hstarted 0
        exact ⟨⟨hresume.bytes, hresume.consecutive, hresume.next, hresume.unstarted,
          hresume.inOrder, hresume.past⟩, hresume.follows, hresume.pending_iff⟩
  · cases hcall

/-! ## The events -/

theorem length_append_eq_one {buf : List (BitVec 32)} {b : BitVec 32} :
    (buf ++ [b]).length = 1 ↔ buf = [] := by
  simp

/-- **A packet is enqueued**: the timer starts if the buffer was empty. -/
theorem Inv.enqueuePacket (h : Inv s) (hstarted : s.started = true) {bytesToSend tNext : Nat}
    (hcall : s.enqueuePacket bytesToSend tNext = some s') : Inv s' := by
  unfold RmcatSender.enqueuePacket at hcall
  split at hcall
  · obtain rfl := Option.some.inj hcall
    have hbytes : s.rateShapingBytes + BitVec.ofNat 32 bytesToSend =
        BitVec.ofNat 32 (bytesOf (s.rateShapingBuf ++ [BitVec.ofNat 32 bytesToSend])) := by
      rw [h.bytes, bytesOf_append, BitVec.ofNat_add, BitVec.ofNat_toNat, BitVec.setWidth_eq]
    have hnext := h.scheduleEnqueue hstarted tNext
    have hnonempty : s.rateShapingBuf ++ [BitVec.ofNat 32 bytesToSend] ≠ [] := by simp
    unfold startSendTimer
    dsimp only
    split
    · rename_i hone
      have hempty : s.rateShapingBuf = [] := length_append_eq_one.mp hone
      have hnone : ¬(s.queue.schedule tNext .enqueuePacket).AnyPending IsSend :=
        fun hpending => hnext.pending_iff.mp hpending hempty
      refine ⟨⟨hbytes, h.consecutive, h.next, ?_, h.inOrder, h.past⟩,
        Follows.of_schedule hnone trivial, ?_⟩
      · exact fun hnot => absurd hstarted (by simp_all)
      · exact iff_of_true (anyPending_schedule.mpr (.inr trivial)) hnonempty
    · rename_i hmore
      have hpending : s.queue.AnyPending IsSend :=
        h.pending_iff.mpr fun hempty => hmore (length_append_eq_one.mpr hempty)
      refine ⟨⟨hbytes, h.consecutive, h.next, ?_, h.inOrder, h.past⟩, hnext.follows, ?_⟩
      · exact fun hnot => absurd hstarted (by simp_all)
      · exact iff_of_true (anyPending_schedule.mpr (.inl hpending)) hnonempty
  · cases hcall

/-- What the controller has been passed, with one more packet. -/
theorem Kept.process (h : Kept s) (hstarted : s.started = true) {p : ProcessedPacket}
    (htx : p.txTimestamp = s.nowMs) (hseq : p.sequence = s.sequence) :
    (s.processed ++ [p]).map (·.sequence) =
        (List.range (s.processed ++ [p]).length).map (BitVec.ofNat 32) ∧
      s.sequence + 1 = BitVec.ofNat 32 (s.processed ++ [p]).length ∧
      (s.processed ++ [p]).Pairwise (fun p p' => p.txTimestamp ≤ p'.txTimestamp) ∧
      ∀ p' ∈ s.processed ++ [p], p'.txTimestamp ≤ s.nowMs := by
  have hnext := h.next hstarted
  refine ⟨?_, ?_, ?_, ?_⟩
  · rw [List.map_append, h.consecutive, List.length_append, List.length_singleton,
      List.range_succ, List.map_append, List.map_singleton, List.map_singleton, hseq, hnext]
  · rw [hnext, List.length_append, List.length_singleton, BitVec.ofNat_add]
    rfl
  · refine List.pairwise_append.mpr ⟨h.inOrder, List.pairwise_singleton _ _, ?_⟩
    intro p₁ hp₁ p₂ hp₂
    obtain rfl := List.mem_singleton.mp hp₂
    exact htx ▸ h.past p₁ hp₁
  · intro p' hp'
    rcases List.mem_append.mp hp' with hp' | hp'
    · exact h.past p' hp'
    · obtain rfl := List.mem_singleton.mp hp'
      exact Nat.le_of_eq htx

/-- **A packet is sent** when the timer has run: it starts again if there are more. -/
theorem Kept.sendPacket (h : Kept s) (hstarted : s.started = true)
    (hfollows : s.queue.Follows s.sendEvent IsSend) (hnone : ¬s.queue.AnyPending IsSend)
    {msSlept rand : Nat} (hcall : s.sendPacket ms msSlept rand = some s') : Inv s' := by
  unfold RmcatSender.sendPacket at hcall
  split at hcall
  · cases hcall
  · rename_i bytesToSend buf hbuf
    split at hcall
    · obtain rfl := Option.some.inj hcall
      have hbytes : s.rateShapingBytes - bytesToSend = BitVec.ofNat 32 (bytesOf buf) := by
        rw [h.bytes, hbuf, bytesOf_cons, BitVec.ofNat_add, BitVec.ofNat_toNat,
          BitVec.setWidth_eq, BitVec.add_comm, BitVec.add_sub_cancel]
      obtain ⟨hconsecutive, hnext, hordered, hpast⟩ :=
        h.process hstarted (p := ⟨s.nowMs, s.sequence, bytesToSend⟩) rfl rfl
      have hunstarted : s.started = true → ¬s.started = false := by simp_all
      generalize hqueue : s.queue.schedule _ (.sendOverSleep s.sequence bytesToSend) = queue
      have hfollows' : queue.Follows s.sendEvent IsSend :=
        hqueue ▸ hfollows.schedule not_false
      have hnone' : ¬queue.AnyPending IsSend := by
        rw [← hqueue, anyPending_schedule]
        simpa [IsSend] using hnone
      have hnow : queue.now = s.queue.now := by
        rw [← hqueue]
        rfl
      have hpast' : ∀ p ∈ s.processed ++ [⟨s.nowMs, s.sequence, bytesToSend⟩],
          p.txTimestamp ≤ getMilliSeconds queue.now :=
        fun p hp => (hpast p hp).trans (hnow ▸ Nat.le_refl _)
      unfold scheduleNext
      dsimp only
      split
      · rename_i hlast
        have hempty : buf = [] := List.length_eq_zero_iff.mp hlast
        exact ⟨⟨hbytes, hconsecutive, fun _ => hnext,
          fun hnot => absurd hnot (hunstarted hstarted), hordered, hpast'⟩, hfollows',
          iff_of_false hnone' (fun hne => hne hempty)⟩
      · rename_i hmore
        have hnonempty : buf ≠ [] := fun hempty => hmore (by simp [hempty])
        exact ⟨⟨hbytes, hconsecutive, fun _ => hnext,
          fun hnot => absurd hnot (hunstarted hstarted), hordered, hpast'⟩,
          Follows.of_schedule hnone' trivial,
          iff_of_true (anyPending_schedule.mpr (.inr trivial)) hnonempty⟩
    · cases hcall

/-- Time goes on. -/
theorem Inv.advance (h : Inv s) {t : Nat} (hstep : s.step ms (.advance t) = some s') : Inv s' := by
  obtain ⟨queue, hadvance, hstep⟩ := Option.bind_eq_some_iff.mp hstep
  obtain rfl := Option.some.inj hstep
  obtain ⟨hpending, hnow, hnext⟩ := advance?_eq_some hadvance
  have hlater : s.queue.now ≤ queue.now := hnow ▸ le_of_advance? hadvance
  refine ⟨⟨h.bytes, h.consecutive, h.next, ?_, h.inOrder, ?_⟩, ?_, ?_⟩
  · exact fun hnot => ⟨(h.unstarted hnot).1, hpending.trans (h.unstarted hnot).2⟩
  · exact fun p hp => (h.past p hp).trans (Nat.div_le_div_right hlater)
  · exact h.follows.of_subset hnext.ge (by simp [hpending])
  · show queue.AnyPending IsSend ↔ _
    rw [AnyPending, hpending]
    exact h.pending_iff

/-- No event is pending before the start. -/
theorem Kept.started_of_mem (h : Kept s) {e : Event RmcatEvent}
    (he : e ∈ s.queue.pending) : s.started = true := by
  by_contra hnot
  rw [(h.unstarted (eq_false_of_ne_true hnot)).2] at he
  exact List.not_mem_nil he

/-- The next event runs. -/
theorem Inv.runEvent (h : Inv s) {bytesToSend tNext rand : Nat}
    (hstep : s.step ms (.runEvent bytesToSend tNext rand) = some s') : Inv s' := by
  obtain ⟨⟨e, queue⟩, hpop, hstep⟩ := Option.bind_eq_some_iff.mp hstep
  obtain ⟨hmem, hnow, _⟩ := pop_eq_some hpop
  have hstarted := h.started_of_mem hmem
  have hkept : Kept { s with queue } :=
    h.setQueue hstarted (hnow ▸ s.queue.now_le e hmem)
  have hfollows := h.follows.pop hpop
  rcases e with ⟨uid, ts, action⟩
  cases action with
  | enqueuePacket =>
      have hinv : Inv { s with queue } :=
        ⟨hkept, hfollows, (anyPending_pop hpop not_false).trans h.pending_iff⟩
      exact hinv.enqueuePacket hstarted hstep
  | sendPacket msSlept =>
      have hsend : IsSend (.sendPacket msSlept) := trivial
      exact hkept.sendPacket hstarted hfollows (h.follows.not_pending_of_pop hsend hpop) hstep
  | sendOverSleep seq bytes =>
      obtain rfl := Option.some.inj hstep
      exact ⟨hkept, hfollows, (anyPending_pop hpop not_false).trans h.pending_iff⟩

/-- Every input keeps the invariant. -/
theorem Inv.step (h : Inv s) {input : RmcatInput R} (hstep : s.step ms input = some s') :
    Inv s' := by
  cases input with
  | startApplication =>
      rw [RmcatSender.step] at hstep
      split at hstep
      · cases hstep
      · rename_i hnot
        exact Option.some.inj hstep ▸ h.startApplication (eq_false_of_ne_true hnot)
  | pauseResume pause =>
      rw [RmcatSender.step] at hstep
      split at hstep
      · rename_i hstarted
        exact h.pauseResume hstarted hstep
      · cases hstep
  | stopApplication =>
      rw [RmcatSender.step] at hstep
      split at hstep
      · rename_i hstarted
        exact Option.some.inj hstep ▸ h.clearBuffer hstarted
      · cases hstep
  | recvPacket rVin rSend =>
      rw [RmcatSender.step] at hstep
      split at hstep
      · obtain rfl := Option.some.inj hstep
        exact ⟨⟨h.bytes, h.consecutive, h.next, h.unstarted, h.inOrder, h.past⟩, h.follows,
          h.pending_iff⟩
      · cases hstep
  | advance t => exact h.advance hstep
  | runEvent bytesToSend tNext rand => exact h.runEvent hstep

/-- **The buffer and its timer agree in every reachable state**, whatever the codec yields
and in whatever order the rates change, the sender is paused, resumed and stopped: the
counter is the number of buffered bytes modulo `2 ^ 32`. -/
theorem shaped_of_run {zero initBw : R} {inputs : List (RmcatInput R)}
    (hrun : Run (fun s input s' => s.step ms input = some s') (new zero initBw) inputs s) :
    Shaped s := by
  have hinv : Inv s :=
    hrun.stateInvariant (inv_new zero initBw) fun _ _ _ hi hstep => hi.step hstep
  exact hinv.shaped

/-- A packet is sent, the sender is paused with another one in the buffer, and resumed. -/
theorem shaped_of_run_pause : ∃ s, Run (fun s input s' => s.step (fun _ _ => 8) input = some s')
    (new () ()) [.startApplication, .runEvent 1000 1 0, .runEvent 0 0 0, .runEvent 0 0 0,
      .runEvent 500 1 0, .pauseResume true, .recvPacket () (), .pauseResume false] s ∧
    Shaped s := by
  have hrun : Run (fun s input s' => s.step (fun _ _ => 8) input = some s') (new () ())
      [.startApplication, .runEvent 1000 1 0, .runEvent 0 0 0, .runEvent 0 0 0,
        .runEvent 500 1 0, .pauseResume true, .recvPacket () (), .pauseResume false] _ :=
    .snoc (.snoc (.snoc (.snoc (.snoc (.snoc (.snoc (.snoc .nil rfl) rfl) rfl) rfl) rfl)
      rfl) rfl) rfl
  exact ⟨_, hrun, shaped_of_run hrun⟩

/-! ## More bytes than the counter holds -/

/-- While the timer has 8 ms to go, `n` packets have been enqueued, one each nanosecond. -/
structure Filling (s : RmcatSender Unit) (n : Nat) : Prop where
  buf : s.rateShapingBuf = List.replicate n 1000
  pending : ∃ uid uid', s.queue.pending =
    [⟨uid, 8000001, .sendPacket 8⟩, ⟨uid', n + 1, .enqueuePacket⟩]

theorem enqueuePacket_of_nonempty (h : s.rateShapingBuf ≠ []) {bytesToSend : Nat}
    (hbytes : 0 < bytesToSend ∧ bytesToSend ≤ defaultPacketSize) (tNext : Nat) :
    s.enqueuePacket bytesToSend tNext = some { s with
      rateShapingBuf := s.rateShapingBuf ++ [BitVec.ofNat 32 bytesToSend]
      rateShapingBytes := s.rateShapingBytes + BitVec.ofNat 32 bytesToSend
      enqueueEvent := s.queue.nextId
      queue := s.queue.schedule tNext .enqueuePacket } := by
  rw [enqueuePacket, if_pos hbytes, startSendTimer,
    if_neg (fun hone => h (length_append_eq_one.mp hone))]

theorem step_of_pop {uid ts : Nat} {queue : EventQueue RmcatEvent}
    (hpop : s.queue.pop = some (⟨uid, ts, .enqueuePacket⟩, queue))
    (ms : BitVec 32 → R → Nat) (bytesToSend tNext rand : Nat) :
    s.step ms (.runEvent bytesToSend tNext rand) =
      { s with queue }.enqueuePacket bytesToSend tNext := by
  rw [step, hpop]
  rfl

/-- The next nanosecond. -/
theorem Filling.next {s : RmcatSender Unit} {n : Nat} (h : Filling s n) (h0 : 0 < n)
    (hn : n < 8000000) : ∃ s', s.step (fun _ _ => 8) (.runEvent 1000 1 0) = some s' ∧
      Filling s' (n + 1) := by
  obtain ⟨uid, uid', hpending⟩ := h.pending
  have hdistinct : uid ≠ uid' := by
    have := s.queue.uids_distinct
    rw [hpending] at this
    simpa using this
  obtain ⟨queue, hpop, hnow, hrest⟩ := pop_of_earliest (q := s.queue)
    (e := ⟨uid', n + 1, .enqueuePacket⟩) (by simp [hpending]) (by
      intro e' he' hne
      rw [hpending] at he'
      rcases List.mem_cons.mp he' with rfl | he'
      · exact Nat.succ_lt_succ hn
      · exact absurd (List.mem_singleton.mp he') hne)
  have hleft : queue.pending = [⟨uid, 8000001, .sendPacket 8⟩] := by
    rw [hrest, hpending]
    simp [hdistinct]
  have hmore : s.rateShapingBuf ≠ [] := by
    rw [h.buf]
    simp
    omega
  have hstep := (step_of_pop hpop (fun _ _ => 8) 1000 1 0).trans
    (enqueuePacket_of_nonempty (s := { s with queue }) hmore (by decide) 1)
  refine ⟨_, hstep, ?_, uid, queue.nextUid, ?_⟩
  · dsimp only
    rw [h.buf, List.replicate_succ']
    rfl
  · dsimp only
    rw [schedule_pending, hleft, hnow]
    rfl

theorem exists_filling : ∃ s, Run (fun s input s' => s.step (fun _ _ => 8) input = some s')
    (new () ()) [.startApplication, .runEvent 1000 1 0, .runEvent 0 0 0, .runEvent 0 0 0,
      .runEvent 1000 1 0, .runEvent 1000 1 0] s ∧ Filling s 2 := by
  refine ⟨_, .snoc (.snoc (.snoc (.snoc (.snoc (.snoc .nil rfl) rfl) rfl) rfl) rfl) rfl, ?_, ?_⟩
  · rfl
  · exact ⟨_, _, rfl⟩

theorem exists_filled (k : Nat) (hk : k < 8000000 - 2) :
    ∃ s, Run (fun s input s' => s.step (fun _ _ => 8) input = some s') (new () ())
      ([.startApplication, .runEvent 1000 1 0, .runEvent 0 0 0, .runEvent 0 0 0,
        .runEvent 1000 1 0, .runEvent 1000 1 0] ++ List.replicate k (.runEvent 1000 1 0)) s ∧
      Filling s (2 + k) := by
  induction k with
  | zero => exact exists_filling
  | succ k ih =>
      obtain ⟨s, hrun, hfilling⟩ := ih (by omega)
      obtain ⟨s', hstep, hnext⟩ := hfilling.next (by omega) (by omega)
      refine ⟨s', ?_, hnext⟩
      rw [List.replicate_succ', ← List.append_assoc]
      exact .snoc hrun hstep

theorem Filling.bytesOf {s : RmcatSender Unit} {n : Nat} (h : Filling s n) :
    bytesOf s.rateShapingBuf = n * 1000 := by
  rw [RmcatSender.bytesOf, h.buf, List.map_replicate, List.sum_replicate]
  rfl

/-- **The counter wraps around** when a codec yields 1000 bytes each nanosecond and a packet
takes 8 ms: 4294968 packets are buffered before the next one is sent. -/
theorem bytes_wrap : ∃ s, Run (fun s input s' => s.step (fun _ _ => 8) input = some s')
    (new () ()) ([.startApplication, .runEvent 1000 1 0, .runEvent 0 0 0, .runEvent 0 0 0,
      .runEvent 1000 1 0, .runEvent 1000 1 0] ++ List.replicate 4294966 (.runEvent 1000 1 0)) s ∧
    s.rateShapingBytes.toNat ≠ bytesOf s.rateShapingBuf := by
  obtain ⟨s, hrun, hfilling⟩ := exists_filled 4294966 (by omega)
  refine ⟨s, hrun, ?_⟩
  rw [(shaped_of_run hrun).bytes, hfilling.bytesOf]
  omega

end RmcatSender

end Rmcat
