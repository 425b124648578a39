import RmcatNs3.Razor.PacerBudget

/-!
# A queue is not blocked

Runs in which the rate that the queue asks for is exact. The budget is exact after every
call, and while nothing is sent every call lowers a variant: the time until the queue is
given a single millisecond for its backlog, and then the budget that is overdrawn.
-/

namespace Razor

open MachineInt Runs PacerQueue IntervalBudget

/-- The arguments that are of type `uint32_t`. -/
def PaceOp.words : PaceOp → List Nat
  | .insertPacket _ _ _ _ _ => []
  | .tryTransmit _ _ => []
  | .setEstimateBitrate bitrateBps => [bitrateBps]
  | .setBitrateLimits minSentBitrate => [minSentBitrate]

namespace PaceSender

variable {pace pace' : PaceSender} {nowTs : Int} {queMs : Nat}

/-- The rate that the queue asks for is exact: its backlog, in bits, is at most 4294967
for every millisecond that is left. -/
def Asks (pace : PaceSender) (nowTs : Int) : Prop :=
  (pace.que.totalSize * 8 / pace.que.space nowTs : Nat) ≤ maxTargetKbps

instance (pace : PaceSender) (nowTs : Int) : Decidable (pace.Asks nowTs) :=
  inferInstanceAs (Decidable (_ ≤ _))

theorem Paying.create (sendCb : Bool) (queMs : Nat) (sysMs : Int) :
    Paying (create sendCb queMs sysMs) (max queMs kMaxPaceQueueMs) := by
  have hbudget : (IntervalBudget.init 0 (-1)).increaseBudget kMinPacketLimitMs = ⟨0, 0, 0, -1⟩ := by
    decide
  have hexact : Exact ⟨0, 0, 0, -1⟩ := ⟨by decide, by decide, by decide, by decide⟩
  have hzero : ((0 : Nat) : Int) ≤ maxTargetKbps := by decide
  refine ⟨?_, ⟨nofun, rfl⟩, rfl, hzero, hzero, Nat.two_pow_pos 32⟩
  show Exact ((IntervalBudget.init 0 (-1)).increaseBudget kMinPacketLimitMs)
  rwa [hbudget]

/-- The rate of a queue with a backlog. -/
theorem Paying.targetBitrate_eq (h : Paying pace queMs) (hque : queMs < 2 ^ 32)
    (hasks : pace.Asks nowTs) (hsize : pace.que.cache.size > 0) (htotal : pace.que.totalSize > 0) :
    pace.que.targetBitrateKbps nowTs = pace.que.totalSize * 8 / pace.que.space nowTs :=
  targetBitrateKbps_eq (h.que.maxQueMs.symm ▸ hque) hsize htotal hasks

theorem Paying.targetBitrate_le (h : Paying pace queMs) (hque : queMs < 2 ^ 32)
    (hasks : pace.Asks nowTs) : (pace.que.targetBitrateKbps nowTs : Int) ≤ maxTargetKbps := by
  by_cases hsome : pace.que.cache.size > 0 ∧ pace.que.totalSize > 0
  · rw [h.targetBitrate_eq hque hasks hsome.1 hsome.2]
    exact hasks
  · have hzero : pace.que.targetBitrateKbps nowTs = 0 := if_neg hsome
    rw [hzero]
    decide

/-- **The target rate** is exact. -/
theorem Paying.target_le (h : Paying pace queMs) (hque : queMs < 2 ^ 32)
    (hasks : pace.Asks nowTs) :
    (pace.targetKbps nowTs : Int) ≤ maxTargetKbps ∧
      toSigned 32 (pace.targetKbps nowTs) = pace.targetKbps nowTs := by
  have hasked := h.targetBitrate_le hque hasks
  have hpacing := h.pacing
  have hle : (pace.targetKbps nowTs : Int) ≤ maxTargetKbps := by
    unfold targetKbps
    split <;> omega
  unfold maxTargetKbps at hle ⊢
  exact ⟨hle, by rw [toSigned_of_bounds] <;> omega⟩

/-- The budget with the target rate. -/
theorem Paying.targetBudget (h : Paying pace queMs) (hque : queMs < 2 ^ 32)
    (hasks : pace.Asks nowTs) :
    Exact (pace.targetBudget nowTs) ∧
      (pace.targetBudget nowTs).targetRateKbps = pace.targetKbps nowTs ∧
      (pace.mediaBudget.bytesRemaining ≤ 0 →
        pace.mediaBudget.bytesRemaining ≤ (pace.targetBudget nowTs).bytesRemaining) ∧
      (0 ≤ pace.mediaBudget.bytesRemaining → 0 ≤ (pace.targetBudget nowTs).bytesRemaining) := by
  obtain ⟨hle, heq⟩ := h.target_le hque hasks
  obtain ⟨hexact, hneg, hpos⟩ := pace.mediaBudget.setTarget_exact
    (Int.natCast_nonneg (pace.targetKbps nowTs)) hle
  unfold PaceSender.targetBudget
  rw [heq]
  exact ⟨hexact, rfl, hneg, hpos⟩

/-- The time that a call gives budget for. -/
theorem elapsed_bounds (h : kMinPacketLimitMs ≤ pace.elapsed nowTs) :
    5 ≤ min (pace.elapsed nowTs) kMaxIntervalMs ∧ min (pace.elapsed nowTs) kMaxIntervalMs ≤ 30 := by
  unfold kMinPacketLimitMs at h
  unfold kMaxIntervalMs
  omega

/-- **The loop starts** with an exact budget. -/
theorem Paying.start (h : Paying pace queMs) (hque : queMs < 2 ^ 32) (hasks : pace.Asks nowTs)
    (helapsed : kMinPacketLimitMs ≤ pace.elapsed nowTs) :
    Paying { pace with mediaBudget := pace.startBudget nowTs } queMs := by
  obtain ⟨hlow, hhigh⟩ := elapsed_bounds helapsed
  have hnonneg : 0 ≤ min (pace.elapsed nowTs) kMaxIntervalMs := Int.le_trans (by decide) hlow
  have hexact : Exact (pace.startBudget nowTs) :=
    ((h.targetBudget hque hasks).1.increase hnonneg hhigh).1
  have hbuilding : (pace.startBudget nowTs).canBuildUpUnderuse = -1 := by
    rw [startBudget, canBuildUpUnderuse_increaseBudget, PaceSender.targetBudget,
      canBuildUpUnderuse_setTargetRateKbps]
    exact h.building
  exact ⟨hexact, h.que, hbuilding, h.pacing, h.minSender, h.estimated⟩

/-- **A call** keeps the budget exact. -/
theorem Paying.tryTransmit (h : Paying pace queMs) (hque : queMs < 2 ^ 32)
    (hasks : pace.elapsed nowTs < kMinPacketLimitMs ∨ pace.Asks nowTs) {fuel : Nat} {sysMs : Int}
    (hcall : pace.tryTransmit fuel nowTs sysMs = some pace') : Paying pace' queMs := by
  rcases tryTransmit_cases hcall with ⟨-, rfl⟩ | ⟨helapsed, pace₁, alr, hturns, -, rfl⟩
  · exact h
  · have hasks := hasks.resolve_left (Int.not_lt.mpr helapsed)
    have hpaying := (h.start hque hasks helapsed).turns hturns
    exact ⟨hpaying.budget, hpaying.que, hpaying.building, hpaying.pacing, hpaying.minSender,
      hpaying.estimated⟩

end PaceSender

namespace PaceRun

open PaceSender

/-- What a call needs for the budget to stay exact. -/
def Meets (c : PaceRun) : PaceOp → Prop
  | .insertPacket _ _ _ size _ => size < 2 ^ 31
  | .tryTransmit nowTs _ => c.pace.elapsed nowTs < kMinPacketLimitMs ∨ c.pace.Asks nowTs
  | _ => True

/-- A call with arguments of their types that meets the condition. -/
def MeetingStep (c : PaceRun) (op : PaceOp) (c' : PaceRun) : Prop :=
  Step c op c' ∧ (∀ x ∈ op.words, x < 2 ^ 32) ∧ Meets c op

variable {c c' : PaceRun} {op : PaceOp} {queMs : Nat}

theorem kbps_le {bitrate : Nat} (h : bitrate < 2 ^ 32) :
    ((bitrate / 1000 : Nat) : Int) ≤ maxTargetKbps := by
  unfold maxTargetKbps
  omega

/-- **Every call** that meets the condition keeps the budget exact. -/
theorem Paying.step (h : Paying c.pace queMs) (hque : queMs < 2 ^ 32)
    (hstep : MeetingStep c op c') : Paying c'.pace queMs := by
  obtain ⟨hstep, hwords, hmeets⟩ := hstep
  cases op with
  | insertPacket a seq retrans size nowTs =>
      obtain ⟨-, -, -, rfl⟩ := hstep
      exact ⟨h.budget, h.que.push hmeets, h.building, h.pacing, h.minSender, h.estimated⟩
  | tryTransmit nowTs sysMs =>
      obtain ⟨-, bound, pace, hcall, rfl⟩ := hstep
      exact h.tryTransmit hque hmeets (hcall bound (Nat.le_refl bound))
  | setEstimateBitrate bitrateBps =>
      obtain rfl := hstep
      have hbitrate : bitrateBps < 2 ^ 32 := hwords _ (List.mem_singleton.mpr rfl)
      have hkbps := kbps_le hbitrate
      have hmin := h.minSender
      refine ⟨h.budget, h.que, h.building, ?_, hmin, hbitrate⟩
      show ((max (bitrateBps / 1000) c.pace.minSenderBitrateKpbs : Nat) : Int) ≤ maxTargetKbps
      omega
  | setBitrateLimits minSentBitrate =>
      obtain rfl := hstep
      have hmin := kbps_le (hwords _ (List.mem_singleton.mpr rfl))
      have hkbps := kbps_le h.estimated
      refine ⟨h.budget, h.que, h.building, ?_, hmin, h.estimated⟩
      show ((max (c.pace.estimatedBitrate / 1000) (minSentBitrate / 1000) : Nat) : Int)
        ≤ maxTargetKbps
      omega

end PaceRun

/-! ## While nothing is sent -/

namespace PaceSender

variable {pace pace' : PaceSender} {nowTs : Int} {queMs : Nat}

/-- A turn is seen in the log. -/
theorem turns_log (hturns : Relation.ReflTransGen (Turn nowTs) pace pace')
    (hcb : pace.sendCb = true) :
    pace'.sendCb = true ∧ (pace' = pace ∨ pace.sendLog.length < pace'.sendLog.length) := by
  induction hturns with
  | refl => exact ⟨hcb, .inl rfl⟩
  | tail _ hturn ih =>
      obtain ⟨hcb', hlog⟩ := ih
      obtain ⟨-, hbudget, a, ev, que, -, -, -, rfl⟩ := hturn
      rw [send_remaining hbudget]
      refine ⟨hcb', .inr ?_⟩
      simp only [hcb', if_true, List.length_append, List.length_singleton]
      rcases hlog with rfl | hlog
      · exact Nat.lt_succ_self _
      · exact Nat.lt_succ_of_lt hlog

/-- The budget that is overdrawn. -/
def overdrawn (pace : PaceSender) : Nat := (-pace.mediaBudget.bytesRemaining).toNat

/-- How long the oldest packet had waited at the last call, modulo `2 ^ 32` ms. -/
def age (pace : PaceSender) : Nat := toUnsigned 32 (pace.lastUpdateTs - pace.que.oldestTs)

/-- How many calls it may take until it has waited for `max_que_ms`. -/
def patience (pace : PaceSender) : Nat := (pace.que.maxQueMs + 4) / 5

def waiting (pace : PaceSender) : Nat :=
  if pace.age < pace.que.maxQueMs then (pace.que.maxQueMs - pace.age + 4) / 5
  else pace.patience + 1

/-- What every call lowers while nothing is sent. -/
def variant (pace : PaceSender) : Nat := pace.overdrawn * (pace.patience + 2) + pace.waiting

/-- A call does not overdraw the budget any further before it sends. -/
theorem Paying.start_remaining (h : Paying pace queMs) (hque : queMs < 2 ^ 32)
    (hasks : pace.Asks nowTs) (helapsed : kMinPacketLimitMs ≤ pace.elapsed nowTs) :
    pace.mediaBudget.bytesRemaining ≤ (pace.startBudget nowTs).bytesRemaining ∨
      0 ≤ (pace.startBudget nowTs).bytesRemaining := by
  obtain ⟨hlow, hhigh⟩ := elapsed_bounds helapsed
  obtain ⟨hexact, htarget, hneg, hpos⟩ := h.targetBudget hque hasks
  have hbytes : 0 ≤ (pace.targetBudget nowTs).targetRateKbps
      * min (pace.elapsed nowTs) kMaxIntervalMs / 8 :=
    Int.ediv_nonneg (Int.mul_nonneg hexact.target.1 (by omega)) (by decide)
  have hmax := hexact.nonneg
  rw [startBudget, (hexact.increase (by omega) hhigh).2]
  generalize (pace.targetBudget nowTs).targetRateKbps * min (pace.elapsed nowTs) kMaxIntervalMs / 8
    = bytes at *
  generalize pace.targetBudget nowTs = budget at *
  split <;> omega

/-- Once the oldest packet has waited for long enough, the budget grows. -/
theorem Paying.start_grows (h : Paying pace queMs) (hque : queMs < 2 ^ 32)
    (hasks : pace.Asks nowTs) (helapsed : kMinPacketLimitMs ≤ pace.elapsed nowTs)
    (hsize : pace.que.cache.size > 0) (htotal : pace.que.totalSize > 0)
    (hspace : pace.que.space nowTs = 1)
    (hnone : (pace.startBudget nowTs).bytesRemaining ≤ 0) :
    pace.mediaBudget.bytesRemaining < (pace.startBudget nowTs).bytesRemaining := by
  obtain ⟨hlow, hhigh⟩ := elapsed_bounds helapsed
  obtain ⟨hexact, htarget, hneg, hpos⟩ := h.targetBudget hque hasks
  -- a single byte that is due within 1 ms asks for 8 kbps
  have hrate : (8 : Int) ≤ (pace.targetBudget nowTs).targetRateKbps := by
    have hqueue := h.targetBitrate_eq hque hasks hsize htotal
    rw [hspace, Nat.div_one] at hqueue
    have hmax : pace.targetKbps nowTs
        = max pace.pacingBitrateKpbs (pace.que.targetBitrateKbps nowTs) := if_pos htotal
    omega
  have hbytes : (8 : Int) * 5 ≤ (pace.targetBudget nowTs).targetRateKbps
      * min (pace.elapsed nowTs) kMaxIntervalMs :=
    Int.mul_le_mul hrate hlow (by decide) (by omega)
  have hmax := hexact.max
  unfold kWindowMs at hmax
  -- the budget is kept from call to call, so what is added to it stays
  have hbuilding : ¬(pace.targetBudget nowTs).canBuildUpUnderuse = 0 := by
    rw [PaceSender.targetBudget, canBuildUpUnderuse_setTargetRateKbps, h.building]
    decide
  rw [startBudget, (hexact.increase (by omega) hhigh).2] at hnone ⊢
  generalize (pace.targetBudget nowTs).targetRateKbps * min (pace.elapsed nowTs) kMaxIntervalMs
    = product at *
  generalize pace.targetBudget nowTs = budget at *
  split at hnone
  · rename_i hoverdrawn
    have hoverdrawn := hoverdrawn.resolve_right hbuilding
    rw [if_pos (.inl hoverdrawn)]
    omega
  · omega

/-- The age grows by the time between two calls. -/
theorem age_later (pace : PaceSender) (nowTs : Int) :
    (toUnsigned 32 (nowTs - pace.que.oldestTs) : Int)
        = (pace.age + pace.elapsed nowTs) % 2 ^ 32 ∧
      pace.elapsed nowTs < 2 ^ 31 := by
  have hlater := toUnsigned_cast 32 (nowTs - pace.que.oldestTs)
  have hbefore := toUnsigned_cast 32 (pace.lastUpdateTs - pace.que.oldestTs)
  have hbound : pace.elapsed nowTs < 2 ^ 31 := by
    have hlt := Int.bmod_lt (x := nowTs - pace.lastUpdateTs) (m := 2 ^ 32) (by decide)
    unfold elapsed toSigned
    omega
  -- the age is unsigned and the time between two calls signed: they agree on the circle
  have hmod : pace.elapsed nowTs % 2 ^ 32 = (nowTs - pace.lastUpdateTs) % 2 ^ 32 := by
    unfold elapsed toSigned
    exact Int.bmod_emod
  refine ⟨?_, hbound⟩
  unfold age
  omega

/-- The space is down to 1 ms once the age has come to `max_que_ms`. -/
theorem space_eq_one (holdest : 0 ≤ pace.que.oldestTs) (hnow : pace.que.oldestTs ≤ nowTs)
    (hage : pace.que.maxQueMs ≤ toUnsigned 32 (nowTs - pace.que.oldestTs)) :
    pace.que.space nowTs = 1 := by
  have hmin := pace.que.maxQueMs_ge
  unfold kMaxPaceQueueMs at hmin
  have hlater : pace.que.oldestTs ≠ -1 ∧ nowTs > pace.que.oldestTs := by
    refine ⟨by omega, ?_⟩
    rcases Int.lt_or_eq_of_le hnow with hlt | heq
    · exact hlt
    · have hzero : toUnsigned 32 (nowTs - pace.que.oldestTs) = 0 := by
        rw [← heq, Int.sub_self]
        rfl
      omega
  exact (if_pos hlater).trans (if_pos hage)

/-- **The variant** gets smaller with every call that sends nothing. -/
theorem variant_lt (pace : PaceSender) (nowTs : Int) (alr : AlrDetector)
    (hque : pace.que.maxQueMs ≤ 2 ^ 31)
    (helapsed : kMinPacketLimitMs ≤ pace.elapsed nowTs)
    (hless : pace.mediaBudget.bytesRemaining ≤ (pace.startBudget nowTs).bytesRemaining ∨
      0 ≤ (pace.startBudget nowTs).bytesRemaining)
    (hgrows : pace.que.maxQueMs ≤ toUnsigned 32 (nowTs - pace.que.oldestTs) →
      pace.mediaBudget.bytesRemaining < (pace.startBudget nowTs).bytesRemaining)
    (hnone : (pace.startBudget nowTs).bytesRemaining ≤ 0) :
    variant { pace with mediaBudget := pace.startBudget nowTs, lastUpdateTs := nowTs, alr }
      < pace.variant := by
  obtain ⟨hage, hbound⟩ := age_later pace nowTs
  have hbefore : pace.age < 2 ^ 32 := toUnsigned_lt 32 _
  unfold kMinPacketLimitMs at helapsed
  have hafter : variant { pace with
        mediaBudget := pace.startBudget nowTs, lastUpdateTs := nowTs, alr }
      = (-(pace.startBudget nowTs).bytesRemaining).toNat * (pace.patience + 2)
        + if toUnsigned 32 (nowTs - pace.que.oldestTs) < pace.que.maxQueMs then
            (pace.que.maxQueMs - toUnsigned 32 (nowTs - pace.que.oldestTs) + 4) / 5
          else pace.patience + 1 := rfl
  rw [hafter]
  unfold variant overdrawn waiting
  generalize pace.startBudget nowTs = budget at *
  generalize toUnsigned 32 (nowTs - pace.que.oldestTs) = later at *
  by_cases hold : pace.que.maxQueMs ≤ later
  · -- the budget has grown
    have hgrown := hgrows hold
    rw [if_neg (Nat.not_lt.mpr hold)]
    have hmul : ((-budget.bytesRemaining).toNat + 1) * (pace.patience + 2)
        ≤ (-pace.mediaBudget.bytesRemaining).toNat * (pace.patience + 2) :=
      Nat.mul_le_mul_right _ (by omega)
    rw [Nat.add_mul] at hmul
    omega
  · -- the packet has waited for longer
    rw [if_pos (Nat.not_le.mp hold)]
    have hmul : (-budget.bytesRemaining).toNat * (pace.patience + 2)
        ≤ (-pace.mediaBudget.bytesRemaining).toNat * (pace.patience + 2) :=
      Nat.mul_le_mul_right _ (by omega)
    have hwait : (pace.que.maxQueMs - later + 4) / 5
        < if pace.age < pace.que.maxQueMs then (pace.que.maxQueMs - pace.age + 4) / 5
          else pace.patience + 1 := by
      unfold patience
      split <;> omega
    omega

end PaceSender

namespace PaceRun

open PaceSender

variable {c c' : PaceRun} {op : PaceOp} {ops : List PaceOp} {L : List Queued} {queMs : Nat}

/-- A call of `pace_try_transmit` that is not too early. -/
def Transmits (c : PaceRun) (op : PaceOp) (c' : PaceRun) : Prop :=
  MeetingStep c op c' ∧
    ∃ nowTs sysMs, op = .tryTransmit nowTs sysMs ∧ kMinPacketLimitMs ≤ c.pace.elapsed nowTs

/-- A queue with a backlog has a packet, and the oldest one is not from the future. -/
theorem Inv.backlog (h : Inv c L) (htotal : c.pace.que.totalSize > 0) :
    c.pace.que.cache.size > 0 ∧ 0 ≤ c.pace.que.oldestTs ∧ c.pace.que.oldestTs ≤ c.now := by
  have hne : L ≠ [] := by
    rintro rfl
    rw [h.que.totalSize] at htotal
    exact absurd htotal (Nat.lt_irrefl 0)
  obtain ⟨p, rest, rfl⟩ := List.exists_cons_of_ne_nil hne
  have htimes := h.que.times p (List.mem_cons_self ..)
  have holdest : c.pace.que.oldestTs = p.event.queTs := h.que.oldestTs
  refine ⟨Nat.pos_of_ne_zero fun hzero => hne (h.que.holds.cache_size.mp hzero), ?_, ?_⟩
  · rw [holdest]
    exact htimes.1
  · rw [holdest]
    exact htimes.2

/-- **A call** sends, or leaves the queue and lowers the variant. -/
theorem Transmits.progress (h : Inv c L) (hpaying : Paying c.pace queMs) (hque : queMs ≤ 2 ^ 31)
    (htotal : c.pace.que.totalSize > 0) (hstep : Transmits c op c') :
    c.pace.sendLog.length < c'.pace.sendLog.length ∨
      c'.pace.sendLog = c.pace.sendLog ∧ c'.pace.que = c.pace.que ∧
        c'.pace.variant < c.pace.variant := by
  obtain ⟨⟨hcall, -, hmeets⟩, nowTs, sysMs, rfl, helapsed⟩ := hstep
  obtain ⟨hnow, bound, pace', hret, rfl⟩ := hcall
  have hasks : c.pace.Asks nowTs := hmeets.resolve_left (Int.not_lt.mpr helapsed)
  obtain ⟨hsize, holdest, hpast⟩ := h.backlog htotal
  rcases tryTransmit_cases (hret bound (Nat.le_refl bound)) with
    ⟨hearly, -⟩ | ⟨-, pace₁, alr, hturns, hend, rfl⟩
  · exact absurd hearly (Int.not_lt.mpr helapsed)
  · rcases (turns_log hturns h.sendCb).2 with rfl | hlog
    · right
      refine ⟨rfl, rfl, ?_⟩
      have hused : (c.pace.startBudget nowTs).budgetRemaining = 0 := by
        refine hend.resolve_left fun hempty => ?_
        have hfull : c.pace.que.empty = -1 := if_neg (by omega)
        exact absurd (hfull.symm.trans hempty) (by decide)
      have hnone := remaining_nonpos hused
      have hlt : queMs < 2 ^ 32 := by omega
      have hpatient : c.pace.que.maxQueMs ≤ 2 ^ 31 := by rwa [hpaying.que.maxQueMs]
      have hless := hpaying.start_remaining hlt hasks helapsed
      have hgrows := fun hage => hpaying.start_grows hlt hasks helapsed hsize htotal
        (space_eq_one holdest (Int.le_trans hpast hnow) hage) hnone
      exact variant_lt c.pace nowTs alr hpatient helapsed hless hgrows hnone
    · exact .inl hlog

/-- The log only grows. -/
theorem Transmits.log_le (h : Inv c L) (hstep : Transmits c op c') :
    c.pace.sendLog.length ≤ c'.pace.sendLog.length := by
  obtain ⟨⟨hcall, -, -⟩, nowTs, sysMs, rfl, -⟩ := hstep
  obtain ⟨-, bound, pace', hret, rfl⟩ := hcall
  rcases tryTransmit_cases (hret bound (Nat.le_refl bound)) with
    ⟨-, rfl⟩ | ⟨-, pace₁, alr, hturns, -, rfl⟩
  · exact Nat.le_refl _
  · rcases (turns_log hturns h.sendCb).2 with rfl | hlog
    · exact Nat.le_refl _
    · exact Nat.le_of_lt hlog

/-- **A backlog is not blocked**: calls that send nothing lower the variant one by one. -/
theorem Transmits.run_length (h : Inv c L) (hpaying : Paying c.pace queMs) (hque : queMs ≤ 2 ^ 31)
    (htotal : c.pace.que.totalSize > 0) (hrun : Run Transmits c ops c') :
    c.pace.sendLog.length < c'.pace.sendLog.length ∨ ops.length ≤ c.pace.variant := by
  have hinv : (∃ L, Inv c' L) ∧ Paying c'.pace queMs ∧
      (c.pace.sendLog.length < c'.pace.sendLog.length ∨
        c'.pace.sendLog = c.pace.sendLog ∧ c'.pace.que = c.pace.que ∧
          ops.length + c'.pace.variant ≤ c.pace.variant) := by
    apply hrun.invariant (I := fun ops c' => (∃ L, Inv c' L) ∧ Paying c'.pace queMs ∧
      (c.pace.sendLog.length < c'.pace.sendLog.length ∨
        c'.pace.sendLog = c.pace.sendLog ∧ c'.pace.que = c.pace.que ∧
          ops.length + c'.pace.variant ≤ c.pace.variant))
    · exact ⟨⟨L, h⟩, hpaying, .inr ⟨rfl, rfl, Nat.le_of_eq (Nat.zero_add _)⟩⟩
    · intro ops s op s' _ hs hstep
      obtain ⟨⟨M, hi⟩, hp, hs⟩ := hs
      refine ⟨hi.step hstep.1.1, Paying.step hp (by omega) hstep.1, ?_⟩
      rcases hs with hsent | ⟨hlog, hsame, hle⟩
      · exact .inl (Nat.lt_of_lt_of_le hsent (hstep.log_le hi))
      · rcases hstep.progress hi hp hque (hsame.symm ▸ htotal) with hsent | ⟨hlog', hsame', hlt⟩
        · exact .inl (hlog ▸ hsent)
        · refine .inr ⟨hlog'.trans hlog, hsame'.trans hsame, ?_⟩
          rw [List.length_append, List.length_singleton]
          omega
  rcases hinv.2.2 with hsent | ⟨-, -, hle⟩
  · exact .inl hsent
  · exact .inr (by omega)

theorem paying_of_run {sysMs : Int} (hque : queMs < 2 ^ 32)
    (hrun : Run MeetingStep (create queMs sysMs) ops c) :
    Paying c.pace (max queMs kMaxPaceQueueMs) := by
  have hmax : max queMs kMaxPaceQueueMs < 2 ^ 32 := by
    unfold kMaxPaceQueueMs
    omega
  exact hrun.stateInvariant (I := fun c => Paying c.pace _) (.create true queMs sysMs)
    fun _ _ _ hp hstep => Paying.step hp hmax hstep

/-- **The budget is exact** after every run in which the queue asks for an exact rate: no
computation of the next call overflows, up to every turn of its loop. And then a backlog
is not blocked for ever. -/
theorem budget_of_run {sysMs : Int} (h0 : 0 ≤ sysMs) (hque : queMs < 2 ^ 32)
    (hrun : Run MeetingStep (create queMs sysMs) ops c) :
    (c.pace.mediaBudget.maxBytesInBudget = 500 * c.pace.mediaBudget.targetRateKbps / 8 ∧
      0 ≤ c.pace.mediaBudget.maxBytesInBudget ∧
      -c.pace.mediaBudget.maxBytesInBudget ≤ c.pace.mediaBudget.bytesRemaining ∧
      c.pace.mediaBudget.bytesRemaining ≤ c.pace.mediaBudget.maxBytesInBudget) ∧
    (∀ nowTs, c.pace.Asks nowTs → kMinPacketLimitMs ≤ c.pace.elapsed nowTs →
      FitsInt (c.pace.targetKbps nowTs) ∧ FitsInt (500 * c.pace.targetKbps nowTs) ∧
      IncreaseFits (c.pace.targetBudget nowTs) (min (c.pace.elapsed nowTs) kMaxIntervalMs) ∧
      ∀ pace a ev, Relation.ReflTransGen (Turn nowTs)
          { c.pace with mediaBudget := c.pace.startBudget nowTs } pace →
        pace.que.packets a = some ev → pace.mediaBudget.budgetRemaining ≠ 0 →
        FitsInt ev.size ∧ FitsInt (pace.mediaBudget.bytesRemaining - ev.size)) ∧
    (queMs ≤ 2 ^ 31 → c.pace.que.totalSize > 0 → ∃ bound, ∀ ops' c', Run Transmits c ops' c' →
      bound < ops'.length → c.pace.sendLog.length < c'.pace.sendLog.length) := by
  have hpaying := paying_of_run hque hrun
  have hmax : max queMs kMaxPaceQueueMs < 2 ^ 32 := by
    unfold kMaxPaceQueueMs
    omega
  obtain ⟨L, hinv⟩ := inv_of_run h0 (hrun.mono fun _ _ _ h => h.1)
  refine ⟨⟨hpaying.budget.max, hpaying.budget.nonneg, hpaying.budget.low, hpaying.budget.high⟩,
    ?_, ?_⟩
  · intro nowTs hasks helapsed
    obtain ⟨hle, -⟩ := hpaying.target_le hmax hasks
    have hproduct := target_fits (Int.natCast_nonneg (c.pace.targetKbps nowTs)) hle
    obtain ⟨hlow, hhigh⟩ := elapsed_bounds helapsed
    refine ⟨?_, hproduct, (hpaying.targetBudget hmax hasks).1.increaseFits (by omega) hhigh, ?_⟩
    · unfold maxTargetKbps at hle
      unfold FitsInt
      omega
    · intro pace a ev hturns hpacket hbudget
      have hp := (hpaying.start hmax hasks helapsed).turns hturns
      have hsize := hp.que.sizes a ev hpacket
      refine ⟨?_, (hp.budget.use (remaining_pos hbudget) (Int.natCast_nonneg _) (by omega)).1⟩
      unfold FitsInt
      omega
  · intro hque' htotal
    have hmax' : max queMs kMaxPaceQueueMs ≤ 2 ^ 31 := by
      unfold kMaxPaceQueueMs
      omega
    refine ⟨c.pace.variant, fun ops' c' hrun' hlong => ?_⟩
    exact (Transmits.run_length hinv hpaying hmax' htotal hrun').resolve_right
      (Nat.not_le.mpr hlong)

/-- A packet of 1000 bytes that has waited for 300 ms. -/
theorem budget_of_run_waiting :
    ∃ c, Run MeetingStep (create 250 0)
        [.setEstimateBitrate 1000000, .insertPacket 0 5 0 1000 1] c ∧
      IncreaseFits (c.pace.targetBudget 300) 30 ∧
      ∃ bound, ∀ ops c', Run Transmits c ops c' → bound < ops.length →
        c.pace.sendLog.length < c'.pace.sendLog.length := by
  let c₁ : PaceRun := { create 250 0 with
    pace := (create 250 0).pace.setEstimateBitrate 1000000 }
  let c₂ : PaceRun := ⟨(c₁.pace.insertPacket 0 5 0 1000 1).2, 1, [⟨5, 0, 1000⟩]⟩
  have h₁ : MeetingStep (create 250 0) (.setEstimateBitrate 1000000) c₁ :=
    ⟨rfl, by decide, trivial⟩
  have h₂ : MeetingStep c₁ (.insertPacket 0 5 0 1000 1) c₂ :=
    ⟨⟨by decide, rfl, by decide, rfl⟩, nofun, by show 1000 < 2 ^ 31; decide⟩
  have hrun : Run MeetingStep (create 250 0)
      [.setEstimateBitrate 1000000, .insertPacket 0 5 0 1000 1] c₂ := .snoc (.snoc .nil h₁) h₂
  obtain ⟨-, hcall, hprogress⟩ := budget_of_run (Int.le_refl 0) (by decide) hrun
  exact ⟨c₂, hrun, (hcall 300 (by decide +kernel) (by decide +kernel)).2.2.1,
    hprogress (by decide) (by decide +kernel)⟩

/-- A backlog of 600000 bytes that has waited for 300 ms makes the budget negative. -/
theorem not_budget_backlog :
    ∃ c : PaceRun, Run Step (create 250 0)
        [.setEstimateBitrate 1000000, .insertPacket 0 5 0 600000 1, .tryTransmit 301 301] c ∧
      c.pace.mediaBudget.maxBytesInBudget < 0 ∧
      c.pace.mediaBudget.bytesRemaining < -c.pace.mediaBudget.maxBytesInBudget ∧
      c.pace.sendLog = [] := by
  let c₁ : PaceRun := { create 250 0 with
    pace := (create 250 0).pace.setEstimateBitrate 1000000 }
  let c₂ : PaceRun := ⟨(c₁.pace.insertPacket 0 5 0 600000 1).2, 1, [⟨5, 0, 600000⟩]⟩
  have h₁ : Step (create 250 0) (.setEstimateBitrate 1000000) c₁ := rfl
  have h₂ : Step c₁ (.insertPacket 0 5 0 600000 1) c₂ := ⟨by decide, rfl, by decide, rfl⟩
  have hrun : Run Step (create 250 0)
      [.setEstimateBitrate 1000000, .insertPacket 0 5 0 600000 1] c₂ := .snoc (.snoc .nil h₁) h₂
  obtain ⟨L, hinv⟩ := inv_of_run (Int.le_refl 0) hrun
  obtain ⟨c₃, h₃⟩ := hinv.transmits (show c₂.now ≤ 301 by decide) 301 (by decide +kernel)
  refine ⟨c₃, .snoc hrun h₃, ?_⟩
  obtain ⟨-, bound, pace, hret, rfl⟩ := h₃
  rcases tryTransmit_cases (hret bound (Nat.le_refl bound)) with
    ⟨hearly, -⟩ | ⟨-, pace₁, alr, hturns, -, rfl⟩
  · exact absurd hearly (by decide +kernel)
  · -- no turn is taken
    have hused : (c₂.pace.startBudget 301).budgetRemaining = 0 := by decide +kernel
    have hmax : (c₂.pace.startBudget 301).maxBytesInBudget < 0 := by decide +kernel
    have hlow : (c₂.pace.startBudget 301).bytesRemaining
        < -(c₂.pace.startBudget 301).maxBytesInBudget := by decide +kernel
    rcases Relation.ReflTransGen.cases_head hturns with rfl | ⟨_, hturn, -⟩
    · exact ⟨hmax, hlow, rfl⟩
    · exact absurd hused hturn.2.1

end PaceRun

end Razor
