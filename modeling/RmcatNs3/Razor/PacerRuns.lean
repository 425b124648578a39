import RmcatNs3.Lib.Runs
import RmcatNs3.Razor.PaceSender
import RmcatNs3.Razor.PacerQueueInvariant

/-!
# Every packet is sent exactly once

Runs of the pacer, and what holds after all of them: the two structures of the
queue agree, and the packets that have been accepted are, call by call, those
handed to `send_cb` and those still waiting.
-/

namespace Razor

open Runs PacerQueue MachineInt

namespace PaceSender

variable {pace : PaceSender} {L : List Queued} {now : Int}

/-- The calls of `send_cb` that some packets are for. -/
def calls (L : List Queued) : List SendCall := L.map fun p => p.event.call

/-- The calls that have been made, and those that the queue still owes. -/
def allCalls (pace : PaceSender) (L : List Queued) : List SendCall :=
  pace.sendLog ++ calls (unsent L)

/-- Calls move from the queue to the log, and packets that came first leave. -/
structure Moves (pace : PaceSender) (L : List Queued) (pace' : PaceSender) (L' : List Queued) :
    Prop where
  calls : (pace.allCalls L).Perm (pace'.allCalls L')
  log : pace.sendLog <+: pace'.sendLog
  seqs : L'.map (·.event.seq) <:+ L.map (·.event.seq)

theorem Moves.refl (pace : PaceSender) (L : List Queued) : Moves pace L pace L :=
  ⟨.refl _, List.prefix_rfl, List.suffix_rfl⟩

theorem Moves.trans {pace' pace'' : PaceSender} {L' L'' : List Queued}
    (h : Moves pace L pace' L') (h' : Moves pace' L' pace'' L'') : Moves pace L pace'' L'' :=
  ⟨h.calls.trans h'.calls, h.log.trans h'.log, h'.seqs.trans h.seqs⟩

/-- Only the log of a pacer matters. -/
theorem Moves.congr {pace₁ pace' pace₁' : PaceSender} {L' : List Queued}
    (h : Moves pace L pace' L') (hlog : pace₁.sendLog = pace.sendLog)
    (hlog' : pace₁'.sendLog = pace'.sendLog) : Moves pace₁ L pace₁' L' where
  calls := by
    unfold allCalls
    rw [hlog, hlog']
    exact h.calls
  log := by
    rw [hlog, hlog']
    exact h.log
  seqs := h.seqs

/-! ## The sending loop -/

/-- A packet is sent if there is budget left. -/
theorem send_eq (hcb : pace.sendCb = true) (ev : PacketEvent) :
    pace.send ev = (-1, pace) ∨
    ∃ pace', pace.send ev = (0, pace') ∧ pace'.sendLog = pace.sendLog ++ [ev.call] ∧
      pace'.que = pace.que ∧ pace'.alr = pace.alr ∧ pace'.sendCb = true := by
  unfold send
  by_cases hbudget : pace.mediaBudget.budgetRemaining = 0
  · left
    exact if_pos hbudget
  · right
    rw [if_neg hbudget]
    exact ⟨_, rfl, by simp [hcb], rfl, rfl, hcb⟩

/-- One turn of the loop, with the packet that is in front. -/
theorem transmitLoop_turn (nowTs : Int) (fuel : Nat) {p : Queued} (hp : p ∈ L)
    (h : Inv pace.que L now) (hfront : pace.que.front = some (some p.addr))
    (sentBytes : Int) :
    transmitLoop nowTs (fuel + 1) pace sentBytes =
      if (pace.send p.event).1 = 0 then do
        let pace' := (pace.send p.event).2
        let que ← pace'.que.sent p.event.seq
        transmitLoop nowTs fuel { pace' with
          firstSentTs := if pace'.firstSentTs = -1 then nowTs else pace'.firstSentTs
          que } (toSigned 32 (sentBytes + p.event.size))
      else some ((pace.send p.event).2, sentBytes) := by
  have hsize : ¬ pace.que.cache.size = 0 := fun h0 =>
    List.ne_nil_of_mem hp (h.holds.cache_size.mp h0)
  have hempty : ¬ pace.que.empty = 0 := by simp [empty, hsize]
  rw [transmitLoop, if_neg hempty, hfront]
  simp only [Option.bind_eq_bind, Option.bind_some, h.holds.packet hp]

/-- **The loop returns**, and moves calls from the queue to the log. -/
theorem transmitLoop_eq (nowTs : Int) {n : Nat} (h : Inv pace.que L now)
    (hcb : pace.sendCb = true) (sentBytes : Int) (hn : (unsent L).length ≤ n) :
    ∃ pace' L' bytes', (∀ fuel, n < fuel →
        transmitLoop nowTs fuel pace sentBytes = some (pace', bytes')) ∧
      Inv pace'.que L' now ∧ Moves pace L pace' L' ∧
      pace'.alr = pace.alr ∧ pace'.sendCb = true := by
  induction n generalizing pace L sentBytes with
  | zero =>
      have hnil : unsent L = [] := List.length_eq_zero_iff.mp (Nat.le_zero.mp hn)
      have hsize : pace.que.cache.size = 0 := h.cache_size_of_unsent hnil
      refine ⟨pace, L, sentBytes, ?_, h, .refl _ _, rfl, hcb⟩
      intro fuel hfuel
      obtain ⟨k, rfl⟩ := Nat.exists_eq_succ_of_ne_zero (Nat.ne_zero_of_lt hfuel)
      simp [transmitLoop, empty, hsize]
  | succ n ih =>
      rcases h.front with ⟨hnil, _⟩ | ⟨p, hp, hfront, _⟩
      · obtain ⟨pace', L', bytes', hloop, hrest⟩ := ih h hcb sentBytes (by simp [hnil])
        exact ⟨pace', L', bytes', fun fuel hfuel => hloop fuel (by omega), hrest⟩
      · have hturn := fun fuel =>
          transmitLoop_turn nowTs fuel (mem_unsent.mp hp).1 h hfront sentBytes
        rcases send_eq hcb p.event with hsend | ⟨pace₁, hsend, hlog, hque, halr, hcb₁⟩
        · -- the budget is used up
          refine ⟨pace, L, sentBytes, ?_, h, .refl _ _, rfl, hcb⟩
          intro fuel hfuel
          obtain ⟨k, rfl⟩ := Nat.exists_eq_succ_of_ne_zero (Nat.ne_zero_of_lt hfuel)
          rw [Nat.succ_eq_add_one, hturn, hsend]
          rfl
        · obtain ⟨que', L₂, hsent, hinv, hperm, hsuffix⟩ := h.sent hp
          let pace₂ : PaceSender := { pace₁ with
            firstSentTs := if pace₁.firstSentTs = -1 then nowTs else pace₁.firstSentTs
            que := que' }
          have hlen : (unsent L₂).length ≤ n := by
            have := hperm.length_eq
            simp only [List.length_cons] at this
            omega
          obtain ⟨pace', L', bytes', hloop, hinv', hmoves, halr', hcb'⟩ :=
            ih (show Inv pace₂.que L₂ now from hinv) hcb₁
              (toSigned 32 (sentBytes + p.event.size)) hlen
          refine ⟨pace', L', bytes', ?_, hinv', ?_, halr'.trans halr, hcb'⟩
          · intro fuel hfuel
            obtain ⟨k, rfl⟩ := Nat.exists_eq_succ_of_ne_zero (Nat.ne_zero_of_lt hfuel)
            rw [Nat.succ_eq_add_one, hturn, hsend, if_pos rfl]
            simp only [hque, hsent, Option.bind_eq_bind, Option.bind_some]
            exact hloop k (by omega)
          · have hmove : Moves pace L pace₂ L₂ := by
              refine ⟨?_, ⟨[p.event.call], hlog.symm⟩, hsuffix⟩
              show (pace.sendLog ++ calls (unsent L)).Perm
                (pace₁.sendLog ++ calls (unsent L₂))
              rw [hlog, List.append_assoc]
              exact (hperm.map _).append_left _
            exact hmove.trans hmoves

/-! ## One call -/

/-- The time since the last call, as `pace_try_transmit` computes it. -/
def elapsed (pace : PaceSender) (nowTs : Int) : Int := toSigned 32 (nowTs - pace.lastUpdateTs)

/-- The target rate of a call. -/
def targetKbps (pace : PaceSender) (nowTs : Int) : Nat :=
  if pace.que.totalSize > 0 then max pace.pacingBitrateKpbs (pace.que.targetBitrateKbps nowTs)
  else pace.pacingBitrateKpbs

/-- The budget with the target rate of a call. -/
def targetBudget (pace : PaceSender) (nowTs : Int) : IntervalBudget :=
  pace.mediaBudget.setTargetRateKbps (toSigned 32 (pace.targetKbps nowTs))

/-- The budget that the loop starts with. -/
def startBudget (pace : PaceSender) (nowTs : Int) : IntervalBudget :=
  (pace.targetBudget nowTs).increaseBudget (min (pace.elapsed nowTs) kMaxIntervalMs)

theorem tryTransmit_unfold (pace : PaceSender) (fuel : Nat) (nowTs sysMs : Int) :
    pace.tryTransmit fuel nowTs sysMs =
      if pace.elapsed nowTs < kMinPacketLimitMs then some pace
      else (transmitLoop nowTs fuel { pace with mediaBudget := pace.startBudget nowTs } 0).bind
        fun (pace', sentBytes) => (pace'.alr.bytesSent (toUnsigned 64 sentBytes)
          (min (pace.elapsed nowTs) kMaxIntervalMs) sysMs).bind
            fun alr => some { pace' with lastUpdateTs := nowTs, alr } := rfl

/-- The detector only fails by dividing by its empty budget. -/
theorem bytesSent_isSome_iff {alr : AlrDetector} {bytes : Nat} {deltaTs sysMs : Int} :
    (alr.bytesSent bytes deltaTs sysMs).isSome ↔ alr.budget.maxBytesInBudget ≠ 0 := by
  unfold AlrDetector.bytesSent IntervalBudget.budgetLevelPrecent
  by_cases hmax : alr.budget.maxBytesInBudget = 0
  · simp [IntervalBudget.useBudget, IntervalBudget.increaseBudget, hmax]
  · simp [IntervalBudget.useBudget, IntervalBudget.increaseBudget, hmax]

theorem maxBytes_bytesSent {alr alr' : AlrDetector} {bytes : Nat} {deltaTs sysMs : Int}
    (h : alr.bytesSent bytes deltaTs sysMs = some alr') :
    alr'.budget.maxBytesInBudget = alr.budget.maxBytesInBudget := by
  obtain ⟨percent, -, h⟩ := Option.bind_eq_some_iff.mp h
  obtain rfl := Option.some.inj h
  rfl

/-- **`pace_try_transmit`** moves calls from the queue to the log. It returns,
unless it divides by the empty budget of the detector. -/
theorem tryTransmit_eq (nowTs sysMs : Int) (h : Inv pace.que L now)
    (hcb : pace.sendCb = true) :
    (pace.alr.budget.maxBytesInBudget = 0 ∧ ∀ fuel, (unsent L).length < fuel →
      pace.tryTransmit fuel nowTs sysMs = none) ∨
    ∃ pace' L', (∀ fuel, (unsent L).length < fuel →
        pace.tryTransmit fuel nowTs sysMs = some pace') ∧
      Inv pace'.que L' now ∧ Moves pace L pace' L' ∧ pace'.sendCb = true := by
  simp only [tryTransmit_unfold]
  by_cases helapsed : pace.elapsed nowTs < kMinPacketLimitMs
  · right
    exact ⟨pace, L, fun _ _ => if_pos helapsed, h, .refl _ _, hcb⟩
  · simp only [if_neg helapsed]
    let pace₁ : PaceSender := { pace with mediaBudget := pace.startBudget nowTs }
    obtain ⟨pace', L', bytes', hloop, hinv, hmoves, halr, hcb'⟩ :=
      transmitLoop_eq nowTs (show Inv pace₁.que L now from h) hcb 0 (le_refl _)
    have hreached := @bytesSent_isSome_iff pace'.alr (toUnsigned 64 bytes')
      (min (pace.elapsed nowTs) kMaxIntervalMs) sysMs
    cases hbytes : pace'.alr.bytesSent (toUnsigned 64 bytes')
        (min (pace.elapsed nowTs) kMaxIntervalMs) sysMs with
    | none =>
        left
        rw [hbytes, halr] at hreached
        refine ⟨by simpa [pace₁] using hreached, ?_⟩
        intro fuel hfuel
        rw [hloop fuel hfuel, Option.bind_some]
        simp only [hbytes, Option.bind_none]
    | some alr =>
        right
        refine ⟨{ pace' with lastUpdateTs := nowTs, alr }, L', ?_, hinv, hmoves.congr rfl rfl,
          hcb'⟩
        intro fuel hfuel
        rw [hloop fuel hfuel, Option.bind_some]
        simp only [hbytes, Option.bind_some]

end PaceSender

/-! ## Runs -/

/-- The pacer, the time of its clock, and the calls that accepted packets are
for. -/
structure PaceRun where
  pace : PaceSender
  now : Int
  accepted : List SendCall

inductive PaceOp where
  | insertPacket (a : Addr) (seq : PacketSeq) (retrans : Int) (size : Nat) (nowTs : Int)
  | tryTransmit (nowTs sysMs : Int)
  | setEstimateBitrate (bitrateBps : Nat)
  | setBitrateLimits (minSentBitrate : Nat)

namespace PaceRun

def create (queMs : Nat) (sysMs : Int) : PaceRun :=
  ⟨.create true queMs sysMs, sysMs, []⟩

/-- One call. The clock does not go back, `calloc` returns an address that is
not in use, and the callers pass the size of a packet, which fits in 32 bits.
-/
def Step (c : PaceRun) : PaceOp → PaceRun → Prop
  | .insertPacket a seq retrans size nowTs, c' =>
      c.now ≤ nowTs ∧ c.pace.que.packets a = none ∧ size < 2 ^ 32 ∧
      c' = ⟨(c.pace.insertPacket a seq retrans size nowTs).2, nowTs,
        if (c.pace.insertPacket a seq retrans size nowTs).1 = 0 then
          c.accepted ++ [⟨seq, retrans, size⟩]
        else c.accepted⟩
  | .tryTransmit nowTs sysMs, c' =>
      c.now ≤ nowTs ∧ ∃ bound pace,
        (∀ fuel, bound ≤ fuel → c.pace.tryTransmit fuel nowTs sysMs = some pace) ∧
        c' = { c with pace, now := nowTs }
  | .setEstimateBitrate bitrateBps, c' =>
      c' = { c with pace := c.pace.setEstimateBitrate bitrateBps }
  | .setBitrateLimits minSentBitrate, c' =>
      c' = { c with pace := c.pace.setBitrateLimits minSentBitrate }

/-- The queue holds `L`, and the accepted packets are those sent and those
waiting. -/
structure Inv (c : PaceRun) (L : List Queued) : Prop where
  que : PacerQueue.Inv c.pace.que L c.now
  now : 0 ≤ c.now
  sendCb : c.pace.sendCb = true
  calls : c.accepted.Perm (c.pace.allCalls L)

variable {c c' : PaceRun} {L : List Queued}

/-- A packet is rejected, and the pacer stays as it is, or it is accepted. -/
theorem Inv.insertPacket (h : Inv c L) {a : Addr} (ha : c.pace.que.packets a = none)
    (seq : PacketSeq) (retrans : Int) {size : Nat} (hsize : size < 2 ^ 32) {nowTs : Int}
    (hnow : c.now ≤ nowTs) :
    c.pace.insertPacket a seq retrans size nowTs = (-1, c.pace) ∨
    (c.pace.insertPacket a seq retrans size nowTs).1 = 0 ∧
      ∃ L', Inv ⟨(c.pace.insertPacket a seq retrans size nowTs).2, nowTs,
        c.accepted ++ [⟨seq, retrans, size⟩]⟩ L' := by
  let ev : PacketEvent := { seq, retrans, size, queTs := nowTs, sent := false }
  by_cases hseen : ∃ p ∈ L, p.event.seq = seq
  · left
    obtain ⟨p, hp, hseq⟩ := hseen
    have hpush := h.que.push_seen a (show p ∈ L from hp) (show _ = ev.seq from hseq) hnow
    simp only [PaceSender.insertPacket]
    rw [hpush]
  · right
    have hne : ∀ p ∈ L, p.event.seq ≠ ev.seq := fun p hp heq => hseen ⟨p, hp, heq⟩
    obtain ⟨hret, hinv⟩ := h.que.push_new ha hne rfl (h.now.trans hnow) hnow hsize
    refine ⟨hret, _, hinv, h.now.trans hnow, h.sendCb, ?_⟩
    show (c.accepted ++ [ev.call]).Perm (c.pace.sendLog ++ PaceSender.calls _)
    rw [unsent_append, unsent_cons_of_unsent rfl, PaceSender.calls, List.map_append,
      ← List.append_assoc]
    exact h.calls.append_right _

/-- **One call** keeps the invariant. -/
theorem Inv.step (h : Inv c L) {op : PaceOp} (hstep : Step c op c') :
    ∃ L', Inv c' L' := by
  cases op with
  | insertPacket a seq retrans size nowTs =>
      obtain ⟨hnow, ha, hsize, rfl⟩ := hstep
      rcases h.insertPacket ha seq retrans hsize hnow with hrej | ⟨hret, L', hinv⟩
      · rw [hrej]
        exact ⟨L, h.que.later hnow, h.now.trans hnow, h.sendCb, h.calls⟩
      · rw [if_pos hret]
        exact ⟨L', hinv⟩
  | tryTransmit nowTs sysMs =>
      obtain ⟨hnow, bound, pace, hret, rfl⟩ := hstep
      -- as many iterations as both sides ask for
      let fuel := max bound ((unsent L).length + 1)
      have hfuel : (unsent L).length < fuel := Nat.le_max_right ..
      have hpace := hret fuel (Nat.le_max_left ..)
      rcases PaceSender.tryTransmit_eq nowTs sysMs (h.que.later hnow) h.sendCb with
        ⟨_, hnone⟩ | ⟨pace', L', hsome, hinv, hmoves, hcb⟩
      · exact absurd ((hnone fuel hfuel).symm.trans hpace) nofun
      · obtain rfl := Option.some.inj ((hsome fuel hfuel).symm.trans hpace)
        exact ⟨L', hinv, h.now.trans hnow, hcb, h.calls.trans hmoves.calls⟩
  | setEstimateBitrate bitrateBps =>
      obtain rfl := hstep
      exact ⟨L, h.que, h.now, h.sendCb, h.calls⟩
  | setBitrateLimits minSentBitrate =>
      obtain rfl := hstep
      exact ⟨L, h.que, h.now, h.sendCb, h.calls⟩

theorem create_inv (queMs : Nat) {sysMs : Int} (h : 0 ≤ sysMs) :
    Inv (create queMs sysMs) [] :=
  ⟨init_inv queMs sysMs, h, rfl, .refl _⟩

theorem inv_of_run {queMs : Nat} {sysMs : Int} (h0 : 0 ≤ sysMs) {ops : List PaceOp}
    (hrun : Run Step (create queMs sysMs) ops c) : ∃ L, Inv c L :=
  hrun.stateInvariant (I := fun c => ∃ L, Inv c L) ⟨[], create_inv queMs h0⟩
    fun _ _ _ ⟨_, h⟩ hstep => h.step hstep

/-- The oldest unsent packet is the first one. -/
theorem oldestTs_eq {que : PacerQueue} {now : Int} (h : PacerQueue.Inv que L now) :
    L = [] ∧ que.oldestTs = -1 ∨
    ∃ p ∈ unsent L, que.l.head? = some p.addr ∧ que.oldestTs = p.event.queTs ∧
      ∀ q ∈ unsent L, p.event.queTs ≤ q.event.queTs := by
  have holdest := h.oldestTs
  have hl := h.holds.l
  cases L with
  | nil => exact .inl ⟨rfl, holdest⟩
  | cons p rest =>
      right
      refine ⟨p, mem_unsent.mpr ⟨List.mem_cons_self, h.front_unsent p rfl⟩, ?_,
        holdest, ?_⟩
      · rw [hl]
        rfl
      · intro q hq
        rcases List.mem_cons.mp (mem_unsent.mp hq).1 with rfl | hq
        · exact le_refl _
        · exact (List.pairwise_cons.mp h.ordered).1 q hq

/-- A call of `pace_try_transmit` that finds a configured detector returns. -/
theorem Inv.transmits (h : Inv c L) {nowTs : Int} (hnow : c.now ≤ nowTs) (sysMs : Int)
    (hmax : c.pace.alr.budget.maxBytesInBudget ≠ 0) :
    ∃ c', Step c (.tryTransmit nowTs sysMs) c' := by
  rcases PaceSender.tryTransmit_eq nowTs sysMs h.que h.sendCb with
    ⟨h0, _⟩ | ⟨pace, _, hsome, _⟩
  · exact absurd h0 hmax
  · exact ⟨_, hnow, (unsent L).length + 1, pace, hsome, rfl⟩

/-- **No packet is lost or duplicated.** After every run of the pacer, the
cache and the list hold the same packets, the totals and the oldest time stamp
are those of the unsent packets, the front is the unsent packet with the least
sequence number, and the accepted packets are those handed to `send_cb` and
those still waiting. A rejected packet leaves the pacer as it is. -/
theorem pacer_of_run {queMs : Nat} {sysMs : Int} (h0 : 0 ≤ sysMs) {ops : List PaceOp}
    (hrun : Run Step (create queMs sysMs) ops c) :
    ∃ L, Holds c.pace.que L ∧ c.pace.que.totalSize = bytes (unsent L) ∧
      (L = [] ∧ c.pace.que.oldestTs = -1 ∨
        ∃ p ∈ unsent L, c.pace.que.l.head? = some p.addr ∧
          c.pace.que.oldestTs = p.event.queTs ∧
          ∀ q ∈ unsent L, p.event.queTs ≤ q.event.queTs) ∧
      (unsent L = [] ∧ c.pace.que.front = some none ∨
        ∃ p ∈ unsent L, c.pace.que.front = some (some p.addr) ∧
          ∀ q ∈ unsent L, p.event.seq ≤ q.event.seq) ∧
      c.accepted.Perm (c.pace.sendLog ++ PaceSender.calls (unsent L)) ∧
      (∀ a seq retrans size nowTs c', Step c (.insertPacket a seq retrans size nowTs) c' →
        c'.accepted = c.accepted ++ [⟨seq, retrans, size⟩] ∨
        c'.accepted = c.accepted ∧ c'.pace = c.pace) ∧
      ∀ nowTs sysMs, c.now ≤ nowTs → c.pace.alr.budget.maxBytesInBudget ≠ 0 →
        ∃ c', Step c (.tryTransmit nowTs sysMs) c' := by
  obtain ⟨L, h⟩ := inv_of_run h0 hrun
  refine ⟨L, h.que.holds, h.que.totalSize, oldestTs_eq h.que, h.que.front, h.calls, ?_,
    fun nowTs sysMs hnow => h.transmits hnow sysMs⟩
  intro a seq retrans size nowTs c' hstep
  obtain ⟨hnow, ha, hsize, rfl⟩ := hstep
  rcases h.insertPacket ha seq retrans hsize hnow with hrej | ⟨hret, _⟩
  · right
    rw [hrej]
    exact ⟨rfl, rfl⟩
  · left
    exact if_pos hret

/-- Two packets, out of order, and a call that sends. -/
theorem pacer_of_run_two : ∃ (c : PaceRun) (L : List Queued),
    c.accepted = [⟨5, 0, 100⟩, ⟨3, 1, 200⟩] ∧
    c.accepted.Perm (c.pace.sendLog ++ PaceSender.calls (unsent L)) := by
  have hinserts : ∃ c, Run Step (create 250 0)
      [.setEstimateBitrate 1000000, .insertPacket 0 5 0 100 1, .insertPacket 1 3 1 200 2] c ∧
      c.accepted = [⟨5, 0, 100⟩, ⟨3, 1, 200⟩] ∧ c.now = 2 ∧
      c.pace.alr.budget.maxBytesInBudget ≠ 0 := by
    let c₁ : PaceRun := { create 250 0 with
      pace := (create 250 0).pace.setEstimateBitrate 1000000 }
    let c₂ : PaceRun := ⟨(c₁.pace.insertPacket 0 5 0 100 1).2, 1, [⟨5, 0, 100⟩]⟩
    let c₃ : PaceRun := ⟨(c₂.pace.insertPacket 1 3 1 200 2).2, 2,
      [⟨5, 0, 100⟩, ⟨3, 1, 200⟩]⟩
    have h₁ : Step (create 250 0) (.setEstimateBitrate 1000000) c₁ := rfl
    have h₂ : Step c₁ (.insertPacket 0 5 0 100 1) c₂ := ⟨by decide, rfl, by decide, rfl⟩
    have h₃ : Step c₂ (.insertPacket 1 3 1 200 2) c₃ := ⟨by decide, rfl, by decide, rfl⟩
    exact ⟨c₃, .snoc (.snoc (.snoc .nil h₁) h₂) h₃, rfl, rfl, by decide⟩
  obtain ⟨c, hrun, hacc, hnow, hmax⟩ := hinserts
  obtain ⟨_, _, _, _, _, _, _, hnext⟩ := pacer_of_run (le_refl 0) hrun
  obtain ⟨c', hstep⟩ := hnext 10 10 (by omega) hmax
  obtain ⟨L, _, _, _, _, hcalls, _⟩ := pacer_of_run (le_refl 0) (.snoc hrun hstep)
  obtain ⟨_, _, pace, _, rfl⟩ := hstep
  exact ⟨{ c with pace, now := 10 }, L, hacc, hcalls⟩

end PaceRun

end Razor
