import Mathlib.Logic.Relation
import RmcatNs3.Razor.PacerRuns

/-!
# The budget of the pacer

The target rate is multiplied by 500 in an `int`, so it is only exact up to 4294967 kbps.
The pacing rate is always below that, as it is a 32-bit bitrate in kbps. The rate that the
queue asks for is not: its backlog is divided by the time that is left for it.
-/

namespace Razor

open MachineInt Runs

/-- A value of type `int`. -/
def FitsInt (x : Int) : Prop := -2 ^ 31 ≤ x ∧ x < 2 ^ 31

instance (x : Int) : Decidable (FitsInt x) := inferInstanceAs (Decidable (_ ∧ _))

theorem FitsInt.toSigned {x : Int} (h : FitsInt x) : toSigned 32 x = x :=
  toSigned_of_bounds h.1 h.2

/-- The highest target rate that is exact. -/
def maxTargetKbps : Int := 4294967

namespace IntervalBudget

/-- What a budget is between two calls. -/
structure Exact (budget : IntervalBudget) : Prop where
  target : 0 ≤ budget.targetRateKbps ∧ budget.targetRateKbps ≤ maxTargetKbps
  max : budget.maxBytesInBudget = kWindowMs * budget.targetRateKbps / 8
  low : -budget.maxBytesInBudget ≤ budget.bytesRemaining
  high : budget.bytesRemaining ≤ budget.maxBytesInBudget

variable {budget : IntervalBudget} {target deltaTs bytes : Int}

theorem canBuildUpUnderuse_setTargetRateKbps (budget : IntervalBudget) (target : Int) :
    (budget.setTargetRateKbps target).canBuildUpUnderuse = budget.canBuildUpUnderuse := rfl

theorem canBuildUpUnderuse_increaseBudget (budget : IntervalBudget) (deltaTs : Int) :
    (budget.increaseBudget deltaTs).canBuildUpUnderuse = budget.canBuildUpUnderuse := rfl

theorem Exact.nonneg (h : Exact budget) : 0 ≤ budget.maxBytesInBudget := by
  have hlow := h.low
  have hhigh := h.high
  omega

/-- The products with the window and with the time. -/
theorem target_fits (hlow : 0 ≤ target) (hhigh : target ≤ maxTargetKbps) :
    FitsInt (kWindowMs * target) := by
  unfold maxTargetKbps at hhigh
  unfold FitsInt kWindowMs
  omega

/-- **A new target** is exact. -/
theorem setTarget_exact (budget : IntervalBudget) (hlow : 0 ≤ target)
    (hhigh : target ≤ maxTargetKbps) :
    Exact (budget.setTargetRateKbps target) ∧
      (budget.bytesRemaining ≤ 0 →
        budget.bytesRemaining ≤ (budget.setTargetRateKbps target).bytesRemaining) ∧
      (0 ≤ budget.bytesRemaining →
        0 ≤ (budget.setTargetRateKbps target).bytesRemaining) := by
  have hfits := (target_fits hlow hhigh).toSigned
  have hnonneg : 0 ≤ kWindowMs * target / 8 := by
    unfold kWindowMs
    omega
  have hmax : (budget.setTargetRateKbps target).maxBytesInBudget = kWindowMs * target / 8 := by
    rw [setTargetRateKbps, hfits, Int.tdiv_eq_ediv_of_nonneg]
    unfold kWindowMs
    omega
  have hrem : (budget.setTargetRateKbps target).bytesRemaining
      = min (Max.max (-(budget.setTargetRateKbps target).maxBytesInBudget) budget.bytesRemaining)
          (budget.setTargetRateKbps target).maxBytesInBudget := rfl
  rw [hmax] at hrem
  refine ⟨⟨⟨hlow, hhigh⟩, hmax, ?_, ?_⟩, ?_, ?_⟩
  · rw [hmax, hrem]
    omega
  · rw [hmax, hrem]
    omega
  · rw [hrem]
    omega
  · rw [hrem]
    omega

/-- The computations of `increase_budget`. -/
def IncreaseFits (budget : IntervalBudget) (deltaTs : Int) : Prop :=
  FitsInt (budget.targetRateKbps * deltaTs) ∧
    FitsInt (budget.bytesRemaining + budget.targetRateKbps * deltaTs / 8)

theorem Exact.increaseFits (h : Exact budget) (hlow : 0 ≤ deltaTs) (hhigh : deltaTs ≤ 30) :
    IncreaseFits budget deltaTs := by
  obtain ⟨htarget, hmax, hlow', hhigh'⟩ := h
  unfold maxTargetKbps at htarget
  unfold kWindowMs at hmax
  have hbytes : 0 ≤ budget.targetRateKbps * deltaTs := Int.mul_nonneg htarget.1 hlow
  have hbytes' : budget.targetRateKbps * deltaTs ≤ 4294967 * 30 :=
    Int.mul_le_mul htarget.2 hhigh hlow (by decide)
  unfold IncreaseFits FitsInt
  omega

/-- **An increase** is exact, and leaves less than nothing only if there was less. -/
theorem Exact.increase (h : Exact budget) (hlow : 0 ≤ deltaTs) (hhigh : deltaTs ≤ 30) :
    Exact (budget.increaseBudget deltaTs) ∧
      (budget.increaseBudget deltaTs).bytesRemaining =
        if budget.bytesRemaining < 0 ∨ budget.canBuildUpUnderuse = 0 then
          min (budget.bytesRemaining + budget.targetRateKbps * deltaTs / 8)
            budget.maxBytesInBudget
        else min (budget.targetRateKbps * deltaTs / 8) budget.maxBytesInBudget := by
  obtain ⟨hproduct, hsum⟩ := h.increaseFits hlow hhigh
  have hnonneg : 0 ≤ budget.targetRateKbps * deltaTs := Int.mul_nonneg h.target.1 hlow
  have hmax := h.nonneg
  have hremaining : (budget.increaseBudget deltaTs).bytesRemaining =
      if budget.bytesRemaining < 0 ∨ budget.canBuildUpUnderuse = 0 then
        min (budget.bytesRemaining + budget.targetRateKbps * deltaTs / 8)
          budget.maxBytesInBudget
      else min (budget.targetRateKbps * deltaTs / 8) budget.maxBytesInBudget := by
    rw [increaseBudget]
    simp only [hproduct.toSigned, Int.tdiv_eq_ediv_of_nonneg hnonneg, hsum.toSigned]
  refine ⟨⟨h.target, h.max, ?_, ?_⟩, hremaining⟩
  · show -budget.maxBytesInBudget ≤ _
    have hlow := h.low
    rw [hremaining]
    split <;> omega
  · show _ ≤ budget.maxBytesInBudget
    rw [hremaining]
    split <;> omega

/-- **A use** is exact while some budget is left. -/
theorem Exact.use (h : Exact budget) (hrem : 0 < budget.bytesRemaining) (hlow : 0 ≤ bytes)
    (hhigh : bytes < 2 ^ 31) :
    FitsInt (budget.bytesRemaining - bytes) ∧ Exact (budget.useBudget bytes) := by
  have hmax := h.max
  have htarget := h.target
  have hle := h.high
  unfold maxTargetKbps at htarget
  unfold kWindowMs at hmax
  have hfits : FitsInt (budget.bytesRemaining - bytes) := by
    unfold FitsInt
    omega
  have hremaining : (budget.useBudget bytes).bytesRemaining
      = Max.max (-budget.maxBytesInBudget) (budget.bytesRemaining - bytes) := by
    rw [useBudget, hfits.toSigned]
  refine ⟨hfits, h.target, h.max, ?_, ?_⟩
  · show -budget.maxBytesInBudget ≤ _
    rw [hremaining]
    omega
  · show _ ≤ budget.maxBytesInBudget
    rw [hremaining]
    omega

end IntervalBudget

/-! ## The sending loop -/

namespace PacerQueue

variable {que que' : PacerQueue}

/-- The sizes of the packets fit in an `int`, and the queue may wait for `queMs`. -/
structure Small (que : PacerQueue) (queMs : Nat) : Prop where
  sizes : ∀ a ev, que.packets a = some ev → ev.size < 2 ^ 31
  maxQueMs : que.maxQueMs = queMs

variable {queMs : Nat}

theorem Small.setPacket (h : Small que queMs) {a : Addr} {p : Option PacketEvent}
    (hp : ∀ ev, p = some ev → ev.size < 2 ^ 31) : Small (que.setPacket a p) queMs := by
  refine ⟨?_, h.maxQueMs⟩
  intro b ev hev
  simp only [PacerQueue.setPacket] at hev
  split at hev
  · exact hp ev hev
  · exact h.sizes b ev hev

theorem Small.cacheRemove (h : Small que queMs) {seq : PacketSeq}
    (heq : que.cacheRemove seq = some que') : Small que' queMs := by
  unfold PacerQueue.cacheRemove at heq
  split at heq
  · exact Option.some.inj heq ▸ h
  · rename_i a _
    obtain ⟨_, _, hsome⟩ := Option.bind_eq_some_iff.mp heq
    obtain rfl := Option.some.inj hsome
    have hset : Small (que.setPacket a none) queMs := h.setPacket nofun
    exact ⟨hset.sizes, hset.maxQueMs⟩

theorem Small.finalLoop {l : List Addr} (h : Small que queMs)
    (heq : finalLoop l que = some que') : Small que' queMs := by
  induction l generalizing que with
  | nil => exact Option.some.inj heq ▸ h
  | cons a rest ih =>
      unfold PacerQueue.finalLoop at heq
      obtain ⟨packet, _, heq⟩ := Option.bind_eq_some_iff.mp heq
      split at heq
      · obtain ⟨que₁, hremove, heq⟩ := Option.bind_eq_some_iff.mp heq
        have hpopped : Small { que with l := rest } queMs := ⟨h.sizes, h.maxQueMs⟩
        exact ih (hpopped.cacheRemove hremove) heq
      · exact Option.some.inj heq ▸ h

theorem Small.final (h : Small que queMs) (heq : que.final = some que') : Small que' queMs := by
  obtain ⟨que₁, hloop, heq⟩ := Option.bind_eq_some_iff.mp heq
  have h₁ := h.finalLoop hloop
  split at heq
  · obtain rfl := Option.some.inj heq
    refine ⟨?_, h₁.maxQueMs⟩
    intro a ev hev
    simp only [cacheClear] at hev
    split at hev
    · cases hev
    · exact h₁.sizes a ev hev
  · obtain ⟨_, _, hsome⟩ := Option.bind_eq_some_iff.mp heq
    obtain rfl := Option.some.inj hsome
    exact ⟨h₁.sizes, h₁.maxQueMs⟩

theorem Small.sent (h : Small que queMs) {seq : PacketSeq} (heq : que.sent seq = some que') :
    Small que' queMs := by
  unfold PacerQueue.sent at heq
  split at heq
  · exact Option.some.inj heq ▸ h
  · split at heq
    · exact Option.some.inj heq ▸ h
    · rename_i a _
      obtain ⟨packet, hpacket, heq⟩ := Option.bind_eq_some_iff.mp heq
      have hmarked : Small (que.setPacket a (some { packet with sent := true })) queMs :=
        h.setPacket fun ev hev => Option.some.inj hev ▸ h.sizes _ packet hpacket
      refine Small.final ?_ heq
      exact ⟨hmarked.sizes, hmarked.maxQueMs⟩

theorem Small.push (h : Small que queMs) {a : Addr} {ev : PacketEvent} (hsize : ev.size < 2 ^ 31) :
    Small (que.push a ev).2 queMs := by
  have hset : Small (que.setPacket a (some { ev with sent := false })) queMs :=
    h.setPacket fun ev' hev => Option.some.inj hev ▸ hsize
  unfold PacerQueue.push
  cases hfind : que.cache.find? ev.seq with
  | none =>
      simp only
      split <;> exact ⟨hset.sizes, hset.maxQueMs⟩
  | some _ =>
      simp only
      split <;> exact ⟨h.sizes, h.maxQueMs⟩

end PacerQueue

namespace PaceSender

/-- One turn of the loop of `pace_try_transmit`: the packet in front is sent. -/
def Turn (nowTs : Int) (pace pace' : PaceSender) : Prop :=
  pace.que.empty ≠ 0 ∧ pace.mediaBudget.budgetRemaining ≠ 0 ∧
    ∃ a ev que, pace.que.front = some (some a) ∧ pace.que.packets a = some ev ∧
      (pace.send ev).2.que.sent ev.seq = some que ∧
      pace' = { (pace.send ev).2 with
        firstSentTs := if (pace.send ev).2.firstSentTs = -1 then nowTs
          else (pace.send ev).2.firstSentTs
        que }

variable {nowTs : Int} {pace pace' : PaceSender}

theorem send_remaining (h : pace.mediaBudget.budgetRemaining ≠ 0) (ev : PacketEvent) :
    pace.send ev = (0, { pace with
      sendLog := if pace.sendCb then pace.sendLog ++ [ev.call] else pace.sendLog
      mediaBudget := pace.mediaBudget.useBudget (toSigned 32 ev.size) }) := if_neg h

/-- **The loop** takes turns until the queue is empty or the budget is used up. -/
theorem transmitLoop_turns {fuel : Nat} {sentBytes bytes' : Int}
    (h : transmitLoop nowTs fuel pace sentBytes = some (pace', bytes')) :
    Relation.ReflTransGen (Turn nowTs) pace pace' ∧
      (pace'.que.empty = 0 ∨ pace'.mediaBudget.budgetRemaining = 0) := by
  induction fuel generalizing pace sentBytes with
  | zero => cases h
  | succ fuel ih =>
      unfold transmitLoop at h
      by_cases hempty : pace.que.empty = 0
      · rw [if_pos hempty] at h
        obtain ⟨rfl, -⟩ := Prod.mk.inj (Option.some.inj h)
        exact ⟨.refl, .inl hempty⟩
      · rw [if_neg hempty] at h
        obtain ⟨p, hfront, hload⟩ := Option.bind_eq_some_iff.mp h
        obtain ⟨a, rfl, hsend⟩ := Option.bind_eq_some_iff.mp hload
        obtain ⟨ev, hpacket, hdone⟩ := Option.bind_eq_some_iff.mp hsend
        by_cases hbudget : pace.mediaBudget.budgetRemaining = 0
        · have hkept : pace.send ev = (-1, pace) := if_pos hbudget
          have hret : ¬(-1 : Int) = 0 := by decide
          simp only [hkept, if_neg hret, Option.some.injEq, Prod.mk.injEq] at hdone
          exact ⟨hdone.1 ▸ .refl, .inr (hdone.1 ▸ hbudget)⟩
        · have hret : (pace.send ev).1 = 0 := by rw [send_remaining hbudget]
          simp only [hret, if_true] at hdone
          obtain ⟨que, hsent, hrest⟩ := Option.bind_eq_some_iff.mp hdone
          obtain ⟨hturns, hend⟩ := ih hrest
          exact ⟨.head ⟨hempty, hbudget, a, ev, que, hfront, hpacket, hsent, rfl⟩ hturns, hend⟩

/-- What holds between two calls, and between two turns. -/
structure Paying (pace : PaceSender) (queMs : Nat) : Prop where
  budget : IntervalBudget.Exact pace.mediaBudget
  que : pace.que.Small queMs
  building : pace.mediaBudget.canBuildUpUnderuse = -1
  pacing : pace.pacingBitrateKpbs ≤ maxTargetKbps
  minSender : pace.minSenderBitrateKpbs ≤ maxTargetKbps
  estimated : pace.estimatedBitrate < 2 ^ 32

variable {queMs : Nat}

theorem remaining_pos {budget : IntervalBudget} (h : budget.budgetRemaining ≠ 0) :
    0 < budget.bytesRemaining := by
  by_contra hle
  exact h (if_neg hle)

theorem remaining_nonpos {budget : IntervalBudget} (h : budget.budgetRemaining = 0) :
    budget.bytesRemaining ≤ 0 := by
  by_contra hpos
  have heq : budget.budgetRemaining = budget.bytesRemaining.toNat := if_pos (Int.not_le.mp hpos)
  omega

/-- The bytes of a packet, as they are taken from the budget. -/
theorem size_toSigned {size : Nat} (h : size < 2 ^ 31) : toSigned 32 size = size := by
  rw [toSigned_of_bounds] <;> omega

/-- **One turn** keeps the budget exact. -/
theorem Paying.turn (h : Paying pace queMs) (hturn : Turn nowTs pace pace') :
    Paying pace' queMs := by
  obtain ⟨-, hbudget, a, ev, que, -, hpacket, hsent, rfl⟩ := hturn
  have hsize := h.que.sizes a ev hpacket
  rw [send_remaining hbudget] at hsent ⊢
  refine ⟨?_, h.que.sent hsent, h.building, h.pacing, h.minSender, h.estimated⟩
  simp only [size_toSigned hsize]
  exact (h.budget.use (remaining_pos hbudget) (Int.natCast_nonneg _) (by omega)).2

theorem Paying.turns (h : Paying pace queMs)
    (hturns : Relation.ReflTransGen (Turn nowTs) pace pace') : Paying pace' queMs := by
  induction hturns with
  | refl => exact h
  | tail _ hturn ih => exact ih.turn hturn

/-! ## One call -/

/-- **A call** is too early, or sets the budget and takes turns. -/
theorem tryTransmit_cases {fuel : Nat} {sysMs : Int}
    (h : pace.tryTransmit fuel nowTs sysMs = some pace') :
    pace.elapsed nowTs < kMinPacketLimitMs ∧ pace' = pace ∨
    kMinPacketLimitMs ≤ pace.elapsed nowTs ∧ ∃ pace₁ alr,
      Relation.ReflTransGen (Turn nowTs) { pace with mediaBudget := pace.startBudget nowTs } pace₁ ∧
      (pace₁.que.empty = 0 ∨ pace₁.mediaBudget.budgetRemaining = 0) ∧
      pace' = { pace₁ with lastUpdateTs := nowTs, alr } := by
  rw [tryTransmit_unfold] at h
  by_cases hearly : pace.elapsed nowTs < kMinPacketLimitMs
  · rw [if_pos hearly] at h
    exact .inl ⟨hearly, (Option.some.inj h).symm⟩
  · rw [if_neg hearly] at h
    obtain ⟨⟨pace₁, sentBytes⟩, hloop, h⟩ := Option.bind_eq_some_iff.mp h
    obtain ⟨alr, -, h⟩ := Option.bind_eq_some_iff.mp h
    obtain ⟨hturns, hend⟩ := transmitLoop_turns hloop
    exact .inr ⟨Int.not_lt.mp hearly, pace₁, alr, hturns, hend, (Option.some.inj h).symm⟩

/-! ## What sending leaves alone -/

/-- The bitrate that the pacer was set to, and the budget that this gave its detector. -/
def SetAs (pace pace' : PaceSender) : Prop :=
  pace'.alr.budget.maxBytesInBudget = pace.alr.budget.maxBytesInBudget ∧
    pace'.estimatedBitrate = pace.estimatedBitrate

theorem Turn.setAs (h : Turn nowTs pace pace') : SetAs pace pace' := by
  obtain ⟨-, hbudget, a, ev, que, -, -, -, rfl⟩ := h
  rw [send_remaining hbudget]
  exact ⟨rfl, rfl⟩

theorem turns_setAs (h : Relation.ReflTransGen (Turn nowTs) pace pace') : SetAs pace pace' := by
  induction h with
  | refl => exact ⟨rfl, rfl⟩
  | tail _ hturn ih => exact ⟨hturn.setAs.1.trans ih.1, hturn.setAs.2.trans ih.2⟩

theorem tryTransmit_setAs {fuel : Nat} {sysMs : Int}
    (h : pace.tryTransmit fuel nowTs sysMs = some pace') :
    SetAs pace pace' := by
  rw [tryTransmit_unfold] at h
  by_cases hearly : pace.elapsed nowTs < kMinPacketLimitMs
  · rw [if_pos hearly] at h
    obtain rfl := Option.some.inj h
    exact ⟨rfl, rfl⟩
  · rw [if_neg hearly] at h
    obtain ⟨⟨pace₁, sentBytes⟩, hloop, h⟩ := Option.bind_eq_some_iff.mp h
    obtain ⟨alr, hbytes, h⟩ := Option.bind_eq_some_iff.mp h
    obtain ⟨hmax, hestimated⟩ := turns_setAs (transmitLoop_turns hloop).1
    obtain rfl := Option.some.inj h
    exact ⟨(maxBytes_bytesSent hbytes).trans hmax, hestimated⟩

end PaceSender

namespace PacerQueue

/-- The time that is left for the queue, as `pacer_queue_target_bitrate_kbps` computes it. -/
def space (que : PacerQueue) (nowTs : Int) : Nat :=
  if que.oldestTs ≠ -1 ∧ nowTs > que.oldestTs then
    let space := toUnsigned 32 (nowTs - que.oldestTs)
    if space ≥ que.maxQueMs then 1 else que.maxQueMs - space
  else que.maxQueMs - 1

variable {que : PacerQueue} {nowTs : Int}

theorem space_bounds (que : PacerQueue) (nowTs : Int) :
    0 < que.space nowTs ∧ que.space nowTs ≤ que.maxQueMs := by
  have hmin := que.maxQueMs_ge
  unfold kMaxPaceQueueMs at hmin
  unfold space
  simp only
  split_ifs <;> omega

/-- The rate is that of the backlog, as long as it is small enough. -/
theorem targetBitrateKbps_eq (hque : que.maxQueMs < 2 ^ 32) (hsize : que.cache.size > 0)
    (htotal : que.totalSize > 0)
    (hfits : (que.totalSize * 8 / que.space nowTs : Nat) ≤ maxTargetKbps) :
    que.targetBitrateKbps nowTs = que.totalSize * 8 / que.space nowTs := by
  obtain ⟨hpos, hle⟩ := que.space_bounds nowTs
  have heq : que.targetBitrateKbps nowTs
      = toUnsigned 32 ((que.totalSize * 8 % 2 ^ 64 / que.space nowTs : Nat)) :=
    if_pos ⟨hsize, htotal⟩
  have hfits : que.totalSize * 8 / que.space nowTs ≤ 4294967 := Int.ofNat_le.mp hfits
  have hlt : que.totalSize * 8 < 2 ^ 64 := by
    have hdiv := Nat.lt_of_div_lt_div (a := que.totalSize * 8)
      (b := 4294968 * que.space nowTs) (c := que.space nowTs) (by
        rw [Nat.mul_div_cancel _ hpos]
        omega)
    have hspace : 4294968 * que.space nowTs ≤ 4294968 * 2 ^ 32 :=
      Nat.mul_le_mul_left _ (by omega)
    omega
  rw [heq, Nat.mod_eq_of_lt hlt, toUnsigned_of_lt (by omega)]

end PacerQueue

end Razor
