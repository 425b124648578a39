import RmcatNs3.Lib.Runs
import RmcatNs3.Razor.PacerBudget
import RmcatNs3.Razor.PacingRate

/-!
# The divisor of the detector

Runs of the congestion controller of a `SimSender`. `budget_level_precent` divides by the
budget of the bitrate that the pacer was set to last; it is zero if there is none yet, or
if 60 % of it is below 1 kbps, and negative if the product with 60 overflows. `Reset`
creates a new controller and goes on with the heartbeat.
-/

namespace Razor

open MachineInt Runs

/-- The budget of the detector after it was set to a bitrate. -/
def alrMaxBytes (bitrate : Nat) : Int :=
  (toSigned 32 (500 * (toSigned 32 (60 * bitrate)).tdiv 100000)).tdiv 8

/-- A division that rounds to zero is positive from the divisor on. -/
theorem tdiv_pos_iff {product divisor : Int} (hdivisor : 0 < divisor) :
    0 < product.tdiv divisor ↔ divisor ≤ product := by
  constructor
  · intro hpos
    by_contra hlt
    by_cases hnonneg : 0 ≤ product
    · rw [Int.tdiv_eq_zero_of_lt hnonneg (Int.not_le.mp hlt)] at hpos
      exact Int.lt_irrefl 0 hpos
    · have hle := Int.tdiv_le_tdiv hdivisor (Int.le_of_lt (Int.not_le.mp hnonneg))
      rw [Int.zero_tdiv] at hle
      exact Int.not_le.mpr hpos hle
  · intro hle
    have hone : 1 * divisor ≤ product := by rwa [Int.one_mul]
    exact Int.le_tdiv_of_mul_le hdivisor hone

/-- The target of 60 % fits, and so does its product with the window. -/
theorem alrTarget_fits (bitrate : Nat) :
    FitsInt (500 * (toSigned 32 (60 * bitrate)).tdiv 100000) := by
  have hlow : -2 ^ 31 ≤ toSigned 32 (60 * bitrate) := by
    have := @Int.le_bmod (60 * bitrate) (2 ^ 32) (by decide)
    unfold toSigned
    omega
  have hhigh : toSigned 32 (60 * bitrate) ≤ 2 ^ 31 := by
    have := @Int.bmod_lt (60 * bitrate) (2 ^ 32) (by decide)
    unfold toSigned
    omega
  have hlow' := @Int.tdiv_le_tdiv _ _ 100000 (by decide) hlow
  have hhigh' := @Int.tdiv_le_tdiv _ _ 100000 (by decide) hhigh
  have hleast : (-2 ^ 31 : Int).tdiv 100000 = -21474 := by decide
  have hmost : (2 ^ 31 : Int).tdiv 100000 = 21474 := by decide
  unfold FitsInt
  omega

/-- It is positive from 1 kbps on, unless the product with 60 overflows. -/
theorem alrMaxBytes_pos_iff (bitrate : Nat) :
    0 < alrMaxBytes bitrate ↔ 100000 ≤ toSigned 32 (60 * bitrate) := by
  have htarget := @tdiv_pos_iff (toSigned 32 (60 * bitrate)) 100000 (by decide)
  rw [alrMaxBytes, (alrTarget_fits bitrate).toSigned, tdiv_pos_iff (by decide), ← htarget]
  omega

namespace AlrDetector

variable {alr : AlrDetector}

theorem maxBytes_setBitrate (alr : AlrDetector) (bitrate : Nat) :
    (alr.setBitrate (toSigned 32 bitrate)).budget.maxBytesInBudget = alrMaxBytes bitrate := by
  have hproduct : toSigned 32 (toSigned 32 bitrate * 60) = toSigned 32 (60 * bitrate) := by
    rw [toSigned, toSigned, toSigned, Int.bmod_mul_bmod, Int.mul_comm]
  unfold setBitrate IntervalBudget.setTargetRateKbps kAlrBanwidthUseagePercent
  simp only [hproduct]
  rfl

/-- The budget whose level is taken in `alr_detector_bytes_sent`. -/
def levelBudget (alr : AlrDetector) (bytes : Nat) (deltaTs : Int) : IntervalBudget :=
  (alr.budget.useBudget (toSigned 32 bytes)).increaseBudget (toSigned 32 deltaTs)

end AlrDetector

namespace PaceSender

variable {pace pace' : PaceSender} {fuel : Nat} {nowTs sysMs : Int}

/-- The budget that `budget_level_precent` is called with in `pace_try_transmit`, if it is
called. -/
def levelBudget (pace : PaceSender) (fuel : Nat) (nowTs : Int) : Option IntervalBudget :=
  if pace.elapsed nowTs < kMinPacketLimitMs then none
  else (transmitLoop nowTs fuel { pace with mediaBudget := pace.startBudget nowTs } 0).map
    fun (pace', sentBytes) => pace'.alr.levelBudget (toUnsigned 64 sentBytes)
      (min (pace.elapsed nowTs) kMaxIntervalMs)

/-- **A call that takes the level** crashes exactly if the divisor is zero. -/
theorem tryTransmit_isSome_iff {budget : IntervalBudget}
    (h : pace.levelBudget fuel nowTs = some budget) :
    (pace.tryTransmit fuel nowTs sysMs).isSome ↔ budget.maxBytesInBudget ≠ 0 := by
  unfold levelBudget at h
  rw [tryTransmit_unfold]
  by_cases hearly : pace.elapsed nowTs < kMinPacketLimitMs
  · rw [if_pos hearly] at h
    cases h
  · rw [if_neg hearly] at h ⊢
    obtain ⟨⟨pace₁, sentBytes⟩, hloop, rfl⟩ := Option.map_eq_some_iff.mp h
    have hlevel := @bytesSent_isSome_iff pace₁.alr (toUnsigned 64 sentBytes)
      (min (pace.elapsed nowTs) kMaxIntervalMs) sysMs
    rw [hloop, Option.bind_some, Option.isSome_bind]
    -- the level is taken of a budget that was spent and filled up, with the same maximum
    show _ ↔ pace₁.alr.budget.maxBytesInBudget ≠ 0
    simpa using hlevel

/-- The bitrate that the pacer was set to last is the one that its detector was set to. -/
def AlrFollows (pace : PaceSender) : Prop :=
  pace.alr.budget.maxBytesInBudget = alrMaxBytes pace.estimatedBitrate

theorem AlrFollows.setAs (h : AlrFollows pace) (hset : SetAs pace pace') : AlrFollows pace' := by
  obtain ⟨hmax, hestimated⟩ := hset
  rw [AlrFollows, hmax, hestimated]
  exact h

theorem create_alrFollows (sendCb : Bool) (queMs : Nat) (sysMs : Int) :
    AlrFollows (create sendCb queMs sysMs) := by
  show AlrDetector.create.budget.maxBytesInBudget = alrMaxBytes 0
  decide +kernel

theorem setEstimateBitrate_alrFollows (pace : PaceSender) (bitrateBps : Nat) :
    AlrFollows (pace.setEstimateBitrate bitrateBps) :=
  pace.alr.maxBytes_setBitrate bitrateBps

theorem insertPacket_setAs (pace : PaceSender) (a : Addr) (seq : PacketSeq) (retrans : Int)
    (size : Nat) (nowTs : Int) : SetAs pace (pace.insertPacket a seq retrans size nowTs).2 :=
  ⟨rfl, rfl⟩

/-- **The level is taken with the divisor** of the bitrate that the pacer was set to. -/
theorem AlrFollows.levelBudget (h : AlrFollows pace) {budget : IntervalBudget}
    (hlevel : pace.levelBudget fuel nowTs = some budget) :
    budget.maxBytesInBudget = alrMaxBytes pace.estimatedBitrate := by
  unfold PaceSender.levelBudget at hlevel
  split at hlevel
  · cases hlevel
  · obtain ⟨⟨pace₁, sentBytes⟩, hloop, rfl⟩ := Option.map_eq_some_iff.mp hlevel
    have hset := turns_setAs (transmitLoop_turns hloop).1
    exact hset.1.trans h

end PaceSender

/-! ## The calls of a `SimSender` -/

/-- What a `SimSender` does with its controller: a call, or `SimSender::Reset`. -/
inductive SimSenderOp where
  | call (op : RateOp)
  | reset (data : StructMemory.Mem) (queueMs : Nat) (sysMs : Int)

namespace SenderController

variable {fl : LossFloats} {cc cc' : SenderController}

/-- One call, with any bitrates. -/
def operate (fl : LossFloats) (cc : SenderController) : RateOp → Option SenderController
  | .setBitrates sysMs minBitrate startBitrate maxBitrate =>
      some (cc.setBitrates fl sysMs minBitrate startBitrate maxBitrate)
  | .feedback input feedback msg => cc.onFeedback fl input feedback msg
  | .updateRtt rtt => some (cc.updateRtt rtt)
  | .heartbeat fuel nowTs sysMs => cc.heartbeat fl fuel nowTs sysMs
  | .addPacePacket a packetId retrans size sysMs =>
      some (cc.addPacePacket a packetId retrans size sysMs).2
  | .onSendPacket sendTs nowTs seq size => some (cc.onSendPacket sendTs nowTs seq size)

/-- One step of a `SimSender`. -/
def SimStep (fl : LossFloats) (cc : SenderController) : SimSenderOp → SenderController → Prop
  | .call op, cc' => cc.operate fl op = some cc'
  | .reset data queueMs sysMs, cc' => cc' = create data true queueMs sysMs

open PaceSender in
/-- **A call of the bitrate controller** sets the pacer and its detector together. -/
theorem call_alrFollows (h : AlrFollows cc.pacer) (sysMs : Int) (c : ControllerCall) :
    AlrFollows (cc.call fl sysMs c).pacer := by
  rcases cc.call_cases fl sysMs c with ⟨-, heq⟩ | ⟨n, -, heq⟩
  · rw [heq]
    exact h
  · rw [heq]
    exact setEstimateBitrate_alrFollows cc.pacer n.bitrate

theorem alrFollows_kept (fl : LossFloats) : Kept fl fun cc => cc.pacer.AlrFollows where
  call := fun _ sysMs c _ h => call_alrFollows h sysMs c
  adapter := fun _ _ h => h
  strm := fun _ _ h => h
  wasInAlr := fun _ _ h => h

open PaceSender in
/-- **Every step** keeps the two together. -/
theorem SimStep.alrFollows {op : SimSenderOp} (h : AlrFollows cc.pacer)
    (hstep : SimStep fl cc op cc') : AlrFollows cc'.pacer := by
  cases op with
  | reset data queueMs sysMs =>
      obtain rfl := hstep
      exact create_alrFollows true (min queueMs kMaxQueueMs) sysMs
  | call op =>
      cases op with
      | setBitrates sysMs minBitrate startBitrate maxBitrate =>
          obtain rfl := Option.some.inj hstep
          exact (cc.call fl sysMs _).pacer.setEstimateBitrate_alrFollows _
      | feedback input feedback msg => exact (alrFollows_kept fl).onFeedback h hstep
      | updateRtt rtt => exact Option.some.inj hstep ▸ h
      | heartbeat fuel nowTs sysMs =>
          obtain ⟨pacer, htransmit, heq⟩ := Option.bind_eq_some_iff.mp hstep
          obtain rfl := Option.some.inj heq
          exact call_alrFollows (h.setAs (tryTransmit_setAs htransmit)) sysMs _
      | addPacePacket a packetId retrans size sysMs =>
          obtain rfl := Option.some.inj hstep
          exact h.setAs (cc.pacer.insertPacket_setAs a packetId retrans size sysMs)
      | onSendPacket sendTs nowTs seq size => exact Option.some.inj hstep ▸ h

/-- **The divisor is positive** exactly if 60 times the bitrate that the pacer was set to
last is at least 100000, as an `int`. -/
theorem divisor_pos_iff {data : StructMemory.Mem} {queueMs fuel : Nat} {createMs nowTs : Int}
    {ops : List SimSenderOp} {budget : IntervalBudget}
    (hrun : Run (SimStep fl) (create data true queueMs createMs) ops cc)
    (hlevel : cc.pacer.levelBudget fuel nowTs = some budget) :
    0 < budget.maxBytesInBudget ↔ 100000 ≤ toSigned 32 (60 * cc.pacer.estimatedBitrate) := by
  have hfollows : cc.pacer.AlrFollows := by
    apply hrun.stateInvariant
    · exact PaceSender.create_alrFollows true (min queueMs kMaxQueueMs) createMs
    · intro s e s' hi hstep
      exact hstep.alrFollows hi
  rw [hfollows.levelBudget hlevel, alrMaxBytes_pos_iff]

/-- The controller of a `SimSender` that was given a start of `startBitrate`, at the time 0. -/
def started (startBitrate : Nat) : SenderController :=
  (create (fun _ => 0) true 3000 0).setBitrates .exact 0 10000 startBitrate startBitrate

theorem divisor_pos_iff_started : ∃ budget,
    (started 500000).pacer.levelBudget 1 5 = some budget ∧ budget.maxBytesInBudget = 18750 ∧
    (0 < budget.maxBytesInBudget ↔
      100000 ≤ toSigned 32 (60 * (started 500000).pacer.estimatedBitrate)) := by
  have hrun : Run (SimStep .exact) (create (fun _ => 0) true 3000 0)
      [.call (.setBitrates 0 10000 500000 500000)] (started 500000) := .snoc .nil rfl
  obtain ⟨budget, hlevel, hmax⟩ := Option.map_eq_some_iff.mp
    (show ((started 500000).pacer.levelBudget 1 5).map (·.maxBytesInBudget) = some 18750 by
      decide +kernel)
  exact ⟨budget, hlevel, hmax, divisor_pos_iff hrun hlevel⟩

/-- After `Reset` the heartbeat goes on without a bitrate, and divides by zero; and a
bitrate of 36 Mbps makes the divisor negative. -/
theorem not_divisor_pos :
    (∃ cc budget, Run (SimStep .exact) (create (fun _ => 0) true 3000 0)
        [.call (.setBitrates 0 10000 500000 500000), .call (.heartbeat 1 5 5),
          .reset (fun _ => 0) 3000 10] cc ∧
      cc.pacer.levelBudget 1 15 = some budget ∧ budget.maxBytesInBudget = 0 ∧
      cc.operate .exact (.heartbeat 1 15 15) = none) ∧
    ∃ cc budget, Run (SimStep .exact) (create (fun _ => 0) true 3000 0)
        [.call (.setBitrates 0 10000 36000000 36000000)] cc ∧
      cc.pacer.levelBudget 1 5 = some budget ∧ budget.maxBytesInBudget = -1334312 := by
  refine ⟨?_, ?_⟩
  · obtain ⟨cc, hbeat⟩ := Option.isSome_iff_exists.mp
      (show ((started 500000).operate .exact (.heartbeat 1 5 5)).isSome by decide +kernel)
    obtain ⟨budget, hlevel, hzero⟩ := Option.map_eq_some_iff.mp
      (show ((create (fun _ => 0) true 3000 10).pacer.levelBudget 1 15).map
        (·.maxBytesInBudget) = some 0 by decide +kernel)
    have hcrash : ((create (fun _ => 0) true 3000 10).operate .exact
        (.heartbeat 1 15 15)).isNone := by decide +kernel
    exact ⟨_, budget, .snoc (.snoc (.snoc .nil rfl) hbeat) rfl, hlevel, hzero,
      Option.isNone_iff_eq_none.mp hcrash⟩
  · obtain ⟨budget, hlevel, hneg⟩ := Option.map_eq_some_iff.mp
      (show ((started 36000000).pacer.levelBudget 1 5).map (·.maxBytesInBudget)
        = some (-1334312) by decide +kernel)
    exact ⟨_, budget, .snoc .nil rfl, hlevel, hneg⟩

end SenderController

/-! ## Bitrates in range -/

/-- The highest bitrate whose product with 60 fits. -/
def maxAlrBitrate : Nat := 35791394

/-- A bitrate of which 60 % are at least 1 kbps, without overflow. -/
def InAlrRange (bitrate : Nat) : Prop := 1667 ≤ bitrate ∧ bitrate ≤ maxAlrBitrate

theorem InAlrRange.product {bitrate : Nat} (h : InAlrRange bitrate) :
    100000 ≤ toSigned 32 (60 * bitrate) := by
  unfold InAlrRange maxAlrBitrate at h
  rw [toSigned_of_bounds] <;> omega

namespace SenderEstimation

/-- The limits and the current bitrate do not exceed a bound. -/
structure Below (est : SenderEstimation) (bound : Nat) : Prop where
  min : est.minConfBitrate ≤ bound
  max : est.maxConfBitrate ≤ bound
  curr : est.currBitrate ≤ bound

variable {est est' : SenderEstimation} {fl : LossFloats} {bound : Nat}

/-- A bitrate that was capped by limits below the bound. -/
theorem Below.of_limits (h : Below est bound) (hlimits : est'.limits = est.limits)
    (hcurr : est'.currBitrate ≤ Max.max est.minConfBitrate est.maxConfBitrate) :
    Below est' bound := by
  obtain ⟨hmin, hmax⟩ := Prod.mk.inj hlimits
  have hle := Nat.max_le.mpr ⟨h.min, h.max⟩
  exact ⟨hmin ▸ h.min, hmax ▸ h.max, Nat.le_trans hcurr hle⟩

theorem Below.setMinmaxBitrate (h : Below est bound) {minBitrate maxBitrate : Nat}
    (hmin : minBitrate ≤ bound) (hpos : 0 < maxBitrate) (hmax : maxBitrate ≤ bound) :
    Below (est.setMinmaxBitrate minBitrate maxBitrate) bound := by
  have hle := Nat.max_le.mpr ⟨h.min, hmin⟩
  refine ⟨hle, ?_, h.curr⟩
  simp only [SenderEstimation.setMinmaxBitrate, gt_iff_lt, if_pos hpos]
  exact Nat.max_le.mpr ⟨hle, hmax⟩

theorem Below.update (h : Below est bound) (curTs : Int) : Below (est.update fl curTs) bound :=
  h.of_limits (limits_update curTs) (update_bounds curTs).2

theorem Below.updateBlock (h : Below est bound) (fractionLoss rtt : Nat)
    (numberOfPackets curTs : Int) :
    Below (est.updateBlock fl fractionLoss rtt numberOfPackets curTs) bound := by
  rw [updateBlock_eq]
  have hlimits : (est.beginBlock fractionLoss rtt numberOfPackets curTs).1.limits = est.limits :=
    limits_beginBlock fractionLoss rtt numberOfPackets curTs
  obtain ⟨hmin, hmax⟩ := Prod.mk.inj hlimits
  by_cases hupdate : (est.beginBlock fractionLoss rtt numberOfPackets curTs).2
  · rw [if_pos hupdate]
    refine h.of_limits ((limits_update curTs).trans hlimits) ?_
    rw [← hmin, ← hmax]
    exact (update_bounds curTs).2
  · rw [if_neg hupdate]
    exact ⟨hmin ▸ h.min, hmax ▸ h.max, (beginBlock_stored hupdate).1 ▸ h.curr⟩

end SenderEstimation

namespace BitrateController

/-- New limits are not above the bound, and there is a maximum. -/
def LimitsBelow (bound : Nat) : ControllerCall → Prop
  | .setBitrates _ minBitrate maxBitrate =>
      minBitrate ≤ bound ∧ 0 < maxBitrate ∧ maxBitrate ≤ bound
  | _ => True

variable {ctrl : BitrateController} {fl : LossFloats} {call : ControllerCall} {bound : Nat}

/-- **A call** whose limits are below the bound keeps all below it. -/
theorem below_perform (h : ctrl.est.Below bound) (hcall : LimitsBelow bound call) (sysMs : Int) :
    (ctrl.perform fl sysMs call).2.est.Below bound := by
  rw [est_perform]
  cases call with
  | setBitrates bitrate minBitrate maxBitrate =>
      -- the bitrate is capped to the new limits, so the old ones do not matter
      obtain ⟨hmin, hpos, hmax⟩ := hcall
      have hset := h.setMinmaxBitrate hmin hpos hmax
      have hcap := hset.of_limits (SenderEstimation.limits_capBitrateToThreshold bitrate)
        (SenderEstimation.cap_bounds _ bitrate).2
      exact ⟨hcap.min, hcap.max, hcap.curr⟩
  | onRemb bitrate => exact h.of_limits rfl (SenderEstimation.cap_bounds _ _).2
  | onReport rtt curTs fractionLoss packetsNum =>
      unfold estAfter
      simp only
      split
      · exact h.updateBlock fractionLoss rtt packetsNum curTs
      · exact h
  | onBasedelayResult update probe targetBitrate recoveredFromOveruse =>
      unfold estAfter
      simp only
      split
      · exact h
      · exact h.of_limits rfl (SenderEstimation.cap_bounds _ _).2
  | heartbeat curTs =>
      unfold estAfter
      simp only
      split
      · exact h
      · exact h.update curTs

/-- **What is notified** is between the minimum and the bound. -/
theorem notified_bounds (h : ctrl.est.Below bound) (hcall : LimitsBelow bound call)
    {sysMs : Int} {n : Notification} (hn : (ctrl.perform fl sysMs call).1 = some n) :
    ctrl.est.minConfBitrate ≤ n.bitrate ∧ n.bitrate ≤ bound := by
  have hbelow : (ctrl.perform fl sysMs call).2.est.Below bound := below_perform h hcall sysMs
  have hmin := ctrl.minConfBitrate_perform_le fl sysMs call
  rw [(ctrl.perform_answers fl sysMs call).notified n hn, usableBitrate]
  have hcurr := hbelow.curr
  have hmin' := hbelow.min
  omega

end BitrateController

namespace SenderController

variable {fl : LossFloats} {cc cc' : SenderController}

/-- The limits of the bitrate controller are in the range. -/
structure Limited (cc : SenderController) : Prop where
  below : cc.bitrateController.est.Below maxAlrBitrate
  minConf : 10000 ≤ cc.bitrateController.est.minConfBitrate

/-- So is the bitrate that the pacer was set to last. -/
structure InRange (cc : SenderController) : Prop extends Limited cc where
  estimated : InAlrRange cc.pacer.estimatedBitrate

theorem create_limited (data : StructMemory.Mem) (queueMs : Nat) (sysMs : Int) :
    Limited (create data true queueMs sysMs) := by
  have hbelow : (SenderEstimation.create 10000 1500000).Below maxAlrBitrate := by
    refine ⟨?_, ?_, ?_⟩ <;> decide
  exact ⟨hbelow, Nat.le_refl _⟩

theorem Limited.call (h : Limited cc) {c : ControllerCall}
    (hcall : BitrateController.LimitsBelow maxAlrBitrate c) (sysMs : Int) :
    Limited (cc.call fl sysMs c) := by
  have hmin := cc.bitrateController.minConfBitrate_perform_le fl sysMs c
  refine ⟨?_, ?_⟩
  · rw [bitrateController_call]
    exact BitrateController.below_perform h.below hcall sysMs
  · rw [bitrateController_call]
    exact Nat.le_trans h.minConf hmin

theorem InRange.call (h : InRange cc) {c : ControllerCall}
    (hcall : BitrateController.LimitsBelow maxAlrBitrate c) (sysMs : Int) :
    InRange (cc.call fl sysMs c) := by
  refine ⟨h.toLimited.call hcall sysMs, ?_⟩
  rcases cc.call_cases fl sysMs c with ⟨-, heq⟩ | ⟨n, hn, heq⟩
  · rw [heq]
    exact h.estimated
  · obtain ⟨hlow, hhigh⟩ := BitrateController.notified_bounds h.below hcall hn
    have hconf := h.minConf
    have hrange : InAlrRange n.bitrate := ⟨by omega, hhigh⟩
    rw [heq]
    exact hrange

theorem limitsBelow_ofFeedback {c : ControllerCall} (h : OfFeedback c) (bound : Nat) :
    BitrateController.LimitsBelow bound c := by
  cases c with
  | setBitrates _ _ _ => exact h.elim
  | onRemb _ => trivial
  | onReport _ _ _ _ => trivial
  | onBasedelayResult _ _ _ _ => trivial
  | heartbeat _ => trivial

theorem inRange_kept (fl : LossFloats) : Kept fl InRange where
  call := fun _ sysMs _ hof h => h.call (limitsBelow_ofFeedback hof maxAlrBitrate) sysMs
  adapter := fun _ _ h => ⟨⟨h.below, h.minConf⟩, h.estimated⟩
  strm := fun _ _ h => ⟨⟨h.below, h.minConf⟩, h.estimated⟩
  wasInAlr := fun _ _ h => ⟨⟨h.below, h.minConf⟩, h.estimated⟩

/-- The bitrates that are set are in the range, and so is the start bitrate as
`sender_cc_set_bitrates` limits it. -/
def SetInRange : RateOp → Prop
  | .setBitrates _ minBitrate startBitrate maxBitrate =>
      minBitrate ≤ maxAlrBitrate ∧ maxBitrate ≤ maxAlrBitrate ∧
        1667 ≤ min (max startBitrate minBitrate) maxBitrate
  | _ => True

/-- **Setting the bitrates** sets the pacer. -/
theorem Limited.setBitrates (h : Limited cc) {minBitrate startBitrate maxBitrate : Nat}
    {sysMs : Int} (hset : SetInRange (.setBitrates sysMs minBitrate startBitrate maxBitrate)) :
    InRange (cc.setBitrates fl sysMs minBitrate startBitrate maxBitrate) := by
  obtain ⟨hmin, hmax, hstart⟩ := hset
  have hlimits : BitrateController.LimitsBelow maxAlrBitrate
      (.setBitrates (min (max startBitrate minBitrate) maxBitrate) minBitrate maxBitrate) :=
    ⟨hmin, by omega, hmax⟩
  have hcall : Limited (cc.call fl sysMs _) := h.call hlimits sysMs
  have hrange : InAlrRange (min (max startBitrate minBitrate) maxBitrate) := ⟨hstart, by omega⟩
  exact ⟨⟨hcall.below, hcall.minConf⟩, hrange⟩

theorem InRange.operate (h : InRange cc) {op : RateOp} (hset : SetInRange op)
    (hop : cc.operate fl op = some cc') : InRange cc' := by
  cases op with
  | setBitrates sysMs minBitrate startBitrate maxBitrate =>
      obtain rfl := Option.some.inj hop
      exact h.toLimited.setBitrates hset
  | feedback input feedback msg => exact (inRange_kept fl).onFeedback h hop
  | updateRtt rtt => exact Option.some.inj hop ▸ ⟨⟨h.below, h.minConf⟩, h.estimated⟩
  | heartbeat fuel nowTs sysMs =>
      obtain ⟨pacer, htransmit, heq⟩ := Option.bind_eq_some_iff.mp hop
      obtain rfl := Option.some.inj heq
      have hsame : InRange { cc with pacer } := by
        refine ⟨⟨h.below, h.minConf⟩, ?_⟩
        show InAlrRange pacer.estimatedBitrate
        rw [(PaceSender.tryTransmit_setAs htransmit).2]
        exact h.estimated
      have hbeat : BitrateController.LimitsBelow maxAlrBitrate (.heartbeat nowTs) := trivial
      exact hsame.call hbeat sysMs
  | addPacePacket a packetId retrans size sysMs =>
      exact Option.some.inj hop ▸ ⟨⟨h.below, h.minConf⟩, h.estimated⟩
  | onSendPacket sendTs nowTs seq size =>
      exact Option.some.inj hop ▸ ⟨⟨h.below, h.minConf⟩, h.estimated⟩

/-- **The level never divides by zero** in a run that starts with bitrates in the range and
stays there: whatever the controller notifies is in the range, too. -/
theorem divisor_pos_of_inRange {data : StructMemory.Mem} {queueMs fuel : Nat}
    {createMs setMs nowTs : Int} {minBitrate startBitrate maxBitrate : Nat} {ops : List RateOp}
    {budget : IntervalBudget}
    (hset : SetInRange (.setBitrates setMs minBitrate startBitrate maxBitrate))
    (hrun : Run (fun cc op cc' => cc.operate fl op = some cc' ∧ SetInRange op)
      ((create data true queueMs createMs).setBitrates fl setMs minBitrate startBitrate maxBitrate)
      ops cc)
    (hlevel : cc.pacer.levelBudget fuel nowTs = some budget) : 0 < budget.maxBytesInBudget := by
  have hkept : InRange cc ∧ cc.pacer.AlrFollows := by
    refine hrun.stateInvariant (I := fun cc => InRange cc ∧ cc.pacer.AlrFollows) ?_ ?_
    · exact ⟨(create_limited data queueMs createMs).setBitrates hset,
        PaceSender.setEstimateBitrate_alrFollows _ _⟩
    · intro s e s' hi hstep
      have hsim : SimStep fl s (.call e) s' := hstep.1
      exact ⟨hi.1.operate hstep.2 hstep.1, hsim.alrFollows hi.2⟩
  rw [hkept.2.levelBudget hlevel, alrMaxBytes_pos_iff]
  exact hkept.1.estimated.product

end SenderController

end Razor
