import RmcatNs3.Lib.Runs
import RmcatNs3.Razor.BitrateController

/-!
# The configured limits

A notified bitrate is never below the configured minimum. It is above the maximum if the
maximum was lowered by `bitrate_controller_set_conf_bitrate`, which does not cap the
current bitrate, and the next notification comes from an operation that does not either.
-/

namespace Razor

open Runs SenderEstimation

/-- The operations of `bitrate_controller_t`. -/
inductive ControllerOp where
  | setStartBitrate (startBitrate : Nat)
  | setConfBitrate (minBitrate maxBitrate : Nat)
  | resetBitrates (bitrate minBitrate maxBitrate : Nat)
  | setReserved (bitrate : Nat)
  | call (call : ControllerCall)
  deriving DecidableEq, Repr

namespace BitrateController

def operate (fl : LossFloats) (ctrl : BitrateController) (sysMs : Int) :
    ControllerOp → Option Notification × BitrateController
  | .setStartBitrate startBitrate => ctrl.setStartBitrate sysMs startBitrate
  | .setConfBitrate minBitrate maxBitrate => ctrl.setConfBitrate sysMs minBitrate maxBitrate
  | .resetBitrates bitrate minBitrate maxBitrate =>
      ctrl.resetBitrates sysMs bitrate minBitrate maxBitrate
  | .setReserved bitrate => ctrl.setReserved sysMs bitrate
  | .call call => ctrl.perform fl sysMs call

/-- One operation, at the time that `GET_SYS_MS` returns. -/
def Step (fl : LossFloats) (ctrl : BitrateController) (op : ControllerOp × Int)
    (ctrl' : BitrateController) : Prop :=
  ctrl' = (ctrl.operate fl op.2 op.1).2

/-- The limits that are in force. -/
def WithinLimits (ctrl : BitrateController) (bitrate : Nat) : Prop :=
  ctrl.est.minConfBitrate ≤ bitrate ∧ bitrate ≤ ctrl.est.maxConfBitrate

instance (ctrl : BitrateController) (bitrate : Nat) : Decidable (ctrl.WithinLimits bitrate) :=
  inferInstanceAs (Decidable (_ ∧ _))

/-- No maximum, or a minimum that is below the one this stands for. -/
def MinFits (minConfBitrate minBitrate maxBitrate : Nat) : Prop :=
  maxBitrate = 0 → max minConfBitrate minBitrate ≤ kMaxBitrateBps

/-- What an operation needs so that it does not notify a bitrate above the maximum. -/
def Fits (ctrl : BitrateController) : ControllerOp → Prop
  | .setConfBitrate minBitrate maxBitrate =>
      MinFits ctrl.est.minConfBitrate minBitrate maxBitrate
  | .call (.setBitrates _ minBitrate maxBitrate) =>
      MinFits ctrl.est.minConfBitrate minBitrate maxBitrate
  | .resetBitrates _ minBitrate maxBitrate => MinFits 10000 minBitrate maxBitrate
  | .setReserved bitrate =>
      bitrate = ctrl.reservedBitrateBps ∨
        ctrl.est.currBitrate - bitrate ≤ ctrl.est.maxConfBitrate
  | .call (.onReport rtt curTs fractionLoss packetsNum) =>
      (ctrl.est.beginBlock fractionLoss rtt packetsNum curTs).2 ∨ rtt = 0 ∨
        rtt = ctrl.est.lastRtt ∨
        ctrl.est.currBitrate - ctrl.reservedBitrateBps ≤ ctrl.est.maxConfBitrate
  | _ => True

/-! ## Notifications -/

variable {ctrl ctrl' : BitrateController} {fl : LossFloats} {op : ControllerOp} {sysMs : Int}
  {n : Notification}

/-- A trigger notifies a change, and there is none after it. -/
theorem maybeTrigger_spec (ctrl : BitrateController) (sysMs : Int) :
    (∀ n, (ctrl.maybeTriggerNetworkChanged sysMs).1 = some n →
      ctrl.Changed ∧ n.bitrate = ctrl.usableBitrate) ∧
    ¬(ctrl.maybeTriggerNetworkChanged sysMs).2.Changed := by
  unfold maybeTriggerNetworkChanged getParameter
  by_cases hchanged : ctrl.Changed
  · simp only [if_pos hchanged, if_true]
    refine ⟨?_, fun h => ?_⟩
    · intro n hn
      obtain rfl := Option.some.inj hn
      exact ⟨hchanged, rfl⟩
    · rcases h with h | h | h | h <;> exact h rfl
  · simp only [if_neg hchanged]
    exact ⟨nofun, hchanged⟩

/-- The bitrate is between the limits once it was capped. -/
theorem usable_within (hlimits : ctrl.est.minConfBitrate ≤ ctrl.est.maxConfBitrate)
    (hcurr : ctrl.est.currBitrate - ctrl.reservedBitrateBps ≤ ctrl.est.maxConfBitrate) :
    ctrl.WithinLimits ctrl.usableBitrate := by
  unfold WithinLimits usableBitrate
  omega

/-- What holds between two operations: the limits are in order, and the last notification
stands for what there is, unless no bitrate has been set. -/
structure Ordered (ctrl : BitrateController) : Prop where
  limits : ctrl.est.minConfBitrate ≤ ctrl.est.maxConfBitrate
  notified : ¬ctrl.Changed ∨ ctrl.est.currBitrate = 0

/-- What an operation does: the limits that it notifies are those that it leaves. -/
def Notifies (r : Option Notification × BitrateController) : Prop :=
  Ordered r.2 ∧ ∀ n, r.1 = some n → r.2.WithinLimits n.bitrate

theorem Ordered.nothing (h : Ordered ctrl) : Notifies (none, ctrl) :=
  ⟨h, fun n hn => absurd hn.symm (Option.some_ne_none n)⟩

/-- An operation ends with a trigger. -/
theorem notifies_trigger (hlimits : ctrl.est.minConfBitrate ≤ ctrl.est.maxConfBitrate)
    (hcurr : ctrl.Changed → ctrl.est.currBitrate - ctrl.reservedBitrateBps
      ≤ max ctrl.est.minConfBitrate ctrl.est.maxConfBitrate) :
    Notifies (ctrl.maybeTriggerNetworkChanged sysMs) := by
  obtain ⟨hsome, hnone⟩ := maybeTrigger_spec ctrl sysMs
  have hest := est_maybeTrigger ctrl sysMs
  refine ⟨⟨by rwa [hest], .inl hnone⟩, ?_⟩
  intro n hn
  obtain ⟨hchanged, hbitrate⟩ := hsome n hn
  have hcurr := hcurr hchanged
  rw [Nat.max_eq_right hlimits] at hcurr
  rw [WithinLimits, hest, hbitrate]
  exact usable_within hlimits hcurr

/-- The bitrate was capped before the trigger. -/
theorem notifies_capped (hlimits : ctrl.est.minConfBitrate ≤ ctrl.est.maxConfBitrate)
    (hcap : ctrl.est.currBitrate ≤ max ctrl.est.minConfBitrate ctrl.est.maxConfBitrate) :
    Notifies (ctrl.maybeTriggerNetworkChanged sysMs) :=
  notifies_trigger hlimits fun _ => Nat.le_trans (Nat.sub_le _ _) hcap

/-- New limits are in order. -/
theorem setMinmax_ordered {est : SenderEstimation} {minBitrate maxBitrate : Nat}
    (h : MinFits est.minConfBitrate minBitrate maxBitrate) :
    (est.setMinmaxBitrate minBitrate maxBitrate).minConfBitrate
      ≤ (est.setMinmaxBitrate minBitrate maxBitrate).maxConfBitrate := by
  simp only [setMinmaxBitrate]
  split
  · exact Nat.le_max_left _ _
  · exact h (by omega)

/-! ## The operations -/

/-- **New limits** change what is notified only where the new minimum is notified. -/
theorem Ordered.setConfBitrate (h : Ordered ctrl) {minBitrate maxBitrate : Nat}
    (hmin : MinFits ctrl.est.minConfBitrate minBitrate maxBitrate) :
    Notifies (ctrl.setConfBitrate sysMs minBitrate maxBitrate) := by
  refine notifies_trigger (setMinmax_ordered hmin) fun hchanged => ?_
  rcases h.notified with hsame | hzero
  · -- what has changed is the bitrate, and only a higher minimum can change it
    simp only [Changed, not_or, not_not] at hsame
    obtain ⟨hloss, hrtt, hbitrate, hreserved⟩ := hsame
    have hdiffers : usableBitrate { ctrl with
        est := ctrl.est.setMinmaxBitrate minBitrate maxBitrate } ≠ ctrl.lastBitrateBps := by
      rcases hchanged with h | h | h | h
      · exact absurd hloss h
      · exact absurd hrtt h
      · exact h
      · exact absurd hreserved h
    rw [← hbitrate] at hdiffers
    simp only [usableBitrate, setMinmaxBitrate] at hdiffers ⊢
    omega
  · simp only [setMinmaxBitrate, hzero]
    omega

/-- Nothing has changed, or the bitrate is zero. -/
theorem Ordered.of_unchanged (h : Ordered ctrl) (hlimits : ctrl'.est.limits = ctrl.est.limits)
    (hcurr : ctrl'.est.currBitrate = ctrl.est.currBitrate)
    (hsame : ctrl'.Changed → ctrl.Changed ∨
      ctrl.est.currBitrate - ctrl'.reservedBitrateBps ≤ ctrl.est.maxConfBitrate) :
    Notifies (ctrl'.maybeTriggerNetworkChanged sysMs) := by
  obtain ⟨hmin, hmax⟩ := Prod.mk.inj hlimits
  refine notifies_trigger (by rw [hmin, hmax]; exact h.limits) fun hchanged => ?_
  rw [hcurr, hmin, hmax]
  rcases hsame hchanged with hbefore | hle
  · have hzero := h.notified.resolve_left fun hn => hn hbefore
    omega
  · omega

/-- **A reserved bitrate** is taken away from the current one. -/
theorem Ordered.setReserved (h : Ordered ctrl) {bitrate : Nat}
    (hfits : Fits ctrl (.setReserved bitrate)) : Notifies (ctrl.setReserved sysMs bitrate) := by
  refine h.of_unchanged rfl rfl fun hchanged => ?_
  rcases hfits with rfl | hle
  · exact .inl hchanged
  · exact .inr hle

/-- **A report** ends with a cap if enough packets have been reported. -/
theorem Ordered.onReport (h : Ordered ctrl) {rtt fractionLoss : Nat} {curTs packetsNum : Int}
    (hfits : Fits ctrl (.call (.onReport rtt curTs fractionLoss packetsNum))) :
    Notifies (ctrl.onReport fl sysMs rtt curTs fractionLoss packetsNum) := by
  unfold BitrateController.onReport
  by_cases hpackets : packetsNum > 0
  · rw [if_pos hpackets]
    simp only [updateBlock_eq]
    have hlimits := @limits_beginBlock ctrl.est fractionLoss rtt packetsNum curTs
    by_cases hupdate : (ctrl.est.beginBlock fractionLoss rtt packetsNum curTs).2
    · have hcap := @update_bounds
        (ctrl.est.beginBlock fractionLoss rtt packetsNum curTs).1 fl curTs
      obtain ⟨hmin, hmax⟩ := Prod.mk.inj ((@limits_update (ctrl.est.beginBlock
        fractionLoss rtt packetsNum curTs).1 fl curTs).trans hlimits)
      obtain ⟨hmin', hmax'⟩ := Prod.mk.inj hlimits
      simp only [if_pos hupdate]
      refine notifies_capped ?_ ?_
      · rw [hmin, hmax]
        exact h.limits
      · rw [hmin, hmax, ← hmin', ← hmax']
        exact hcap.2
    -- without an update only the rtt may have changed, and no cap has been applied
    · obtain ⟨hcurr, hloss, hrtt⟩ := beginBlock_stored hupdate
      simp only [if_neg hupdate]
      refine h.of_unchanged hlimits hcurr fun hchanged => ?_
      by_cases hle : ctrl.est.currBitrate - ctrl.reservedBitrateBps ≤ ctrl.est.maxConfBitrate
      · exact .inr hle
      · left
        have hmin : (ctrl.est.beginBlock fractionLoss rtt packetsNum curTs).1.minConfBitrate
            = ctrl.est.minConfBitrate := congrArg Prod.fst hlimits
        have hsame : (ctrl.est.beginBlock fractionLoss rtt packetsNum curTs).1.lastRtt
            = ctrl.est.lastRtt := by
          rw [hrtt]
          rcases hfits with hyes | hzero | hsame | hle'
          · exact absurd hyes hupdate
          · exact if_neg (by omega)
          · rw [hsame, ite_self]
          · exact absurd hle' hle
        simpa only [Changed, usableBitrate, hcurr, hloss, hsame, hmin] using hchanged
  · rw [if_neg hpackets]
    exact h.nothing

/-- **The heartbeat** updates, so it caps. -/
theorem Ordered.heartbeat (h : Ordered ctrl) (curTs : Int) :
    Notifies (ctrl.heartbeat fl curTs) := by
  unfold BitrateController.heartbeat
  by_cases hearly : curTs < ctrl.lastBitrateUpdateTs + 100
  · rw [if_pos hearly]
    exact h.nothing
  · rw [if_neg hearly]
    obtain ⟨hmin, hmax⟩ := Prod.mk.inj (@limits_update ctrl.est fl curTs)
    have hcap := (@update_bounds ctrl.est fl curTs).2
    rw [← hmin, ← hmax] at hcap
    have hlimits := h.limits
    rw [← hmin, ← hmax] at hlimits
    have hwithin := @usable_within { ctrl with est := ctrl.est.update fl curTs } hlimits
      (by simp only; omega)
    unfold getParameter
    -- what is notified is capped by the update, whether it has changed or not
    by_cases hchanged : Changed { ctrl with est := ctrl.est.update fl curTs }
    · simp only [if_pos hchanged, if_true]
      refine ⟨⟨hlimits, .inl ?_⟩, ?_⟩
      · rintro (h | h | h | h) <;> exact h rfl
      · intro n hn
        obtain rfl := Option.some.inj hn
        exact hwithin
    · have hret : ¬(-1 : Int) = 0 := by decide
      simp only [if_neg hchanged, if_neg hret]
      split
      · refine ⟨⟨hlimits, .inl hchanged⟩, ?_⟩
        intro n hn
        obtain rfl := Option.some.inj hn
        exact hwithin
      · exact ⟨⟨hlimits, .inl hchanged⟩, nofun⟩

/-- **Every operation** that meets the condition notifies a bitrate between the limits. -/
theorem Ordered.operate (h : Ordered ctrl) (hfits : Fits ctrl op) :
    Notifies (ctrl.operate fl sysMs op) := by
  cases op with
  | setStartBitrate startBitrate =>
      exact notifies_capped h.limits (ctrl.est.cap_bounds startBitrate).2
  | setConfBitrate minBitrate maxBitrate => exact h.setConfBitrate hfits
  | resetBitrates bitrate minBitrate maxBitrate =>
      exact notifies_capped (setMinmax_ordered hfits) (cap_bounds _ bitrate).2
  | setReserved bitrate => exact h.setReserved hfits
  | call call =>
      cases call with
      | setBitrates bitrate minBitrate maxBitrate =>
          exact notifies_capped (setMinmax_ordered hfits) (cap_bounds _ bitrate).2
      | onRemb bitrate => exact notifies_capped h.limits (cap_bounds _ _).2
      | onReport rtt curTs fractionLoss packetsNum => exact h.onReport hfits
      | onBasedelayResult update probe targetBitrate recoveredFromOveruse =>
          show Notifies (ctrl.onBasedelayResult sysMs update targetBitrate)
          unfold onBasedelayResult
          split
          · exact h.nothing
          · exact notifies_capped h.limits (cap_bounds _ _).2
      | heartbeat curTs => exact h.heartbeat curTs

/-- **Every notification is between the limits** in a run whose operations meet the
condition. -/
theorem notified_within_limits {ops : List (ControllerOp × Int)} {createMs : Int}
    (hrun : Run (fun ctrl op ctrl' => Step fl ctrl op ctrl' ∧ Fits ctrl op.1) (create createMs)
      ops ctrl)
    (hfits : Fits ctrl op) (hn : (ctrl.operate fl sysMs op).1 = some n) :
    (ctrl.operate fl sysMs op).2.WithinLimits n.bitrate := by
  have hordered : Ordered ctrl := by
    apply hrun.stateInvariant
    · have hlimits : 10000 ≤ 1500000 := by decide
      exact ⟨hlimits, .inr rfl⟩
    · intro s e s' hi hstep
      obtain ⟨rfl, hfits⟩ := hstep
      exact (hi.operate hfits).1
  exact (hordered.operate hfits).2 n hn

/-- The minimum is raised above the current bitrate. -/
theorem notified_within_limits_raised :
    ∃ ctrl, Run (Step .exact) (create 0) [(.setStartBitrate 100000, 5)] ctrl ∧
      (ctrl.operate .exact 9 (.setConfBitrate 200000 300000)).1 = some ⟨200000, 0, 0⟩ ∧
      (ctrl.operate .exact 9 (.setConfBitrate 200000 300000)).2.WithinLimits 200000 := by
  have hrun : Run (fun ctrl op ctrl' => Step .exact ctrl op ctrl' ∧ Fits ctrl op.1) (create 0)
      [(.setStartBitrate 100000, 5)] _ := .snoc .nil ⟨rfl, trivial⟩
  have hnotified : (operate .exact ((create 0).operate .exact 5 (.setStartBitrate 100000)).2 9
      (.setConfBitrate 200000 300000)).1 = some ⟨200000, 0, 0⟩ := by decide +kernel
  have hfits : Fits ((create 0).operate .exact 5 (.setStartBitrate 100000)).2
      (.setConfBitrate 200000 300000) := fun hnone => absurd hnone (by decide)
  exact ⟨_, hrun.mono fun _ _ _ h => h.1, hnotified,
    notified_within_limits hrun hfits hnotified⟩

/-- The maximum is lowered below the current bitrate, and then a bitrate is reserved. -/
theorem not_notified_within_limits :
    ∃ ctrl n, Run (Step .exact) (create 0)
        [(.setStartBitrate 1000000, 1), (.setConfBitrate 0 500000, 2)] ctrl ∧
      (ctrl.operate .exact 3 (.setReserved 1000)).1 = some n ∧ n.bitrate = 999000 ∧
      (ctrl.operate .exact 3 (.setReserved 1000)).2.est.maxConfBitrate = 500000 ∧
      ¬(ctrl.operate .exact 3 (.setReserved 1000)).2.WithinLimits n.bitrate := by
  refine ⟨_, ⟨999000, 0, 0⟩, .snoc (.snoc .nil rfl) rfl, ?_, ?_, ?_, ?_⟩ <;> decide +kernel

end BitrateController

end Razor
