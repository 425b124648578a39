import RmcatNs3.Razor.SenderEstimation

/-!
# The bitrate controller

`razor/estimator/bitrate_controller.{c,h}`, as `sender_cc_t` uses it. Its trigger
is always set. A call of `trigger_func` is returned as a notification, and what
it does is left to the caller. The times that `GET_SYS_MS` returns are parameters.
-/

namespace Razor

/-- The arguments of a call of `trigger_func`. -/
structure Notification where
  bitrate : Nat
  fractionLoss : Nat
  rtt : Nat
  deriving DecidableEq, Repr

/-- `bitrate_controller_t`. -/
structure BitrateController where
  lastBitrateUpdateTs : Int
  notifyTs : Int
  reservedBitrateBps : Nat
  lastBitrateBps : Nat
  lastFractionLoss : Nat
  lastRtt : Nat
  lastReservedBitrateBps : Nat
  est : SenderEstimation

/-- The calls that `sender_cc_t` makes. -/
inductive ControllerCall where
  | setBitrates (bitrate minBitrate maxBitrate : Nat)
  | onRemb (bitrate : Nat)
  | onReport (rtt : Nat) (curTs : Int) (fractionLoss : Nat) (packetsNum : Int)
  | onBasedelayResult (update probe : Int) (targetBitrate : Nat) (recoveredFromOveruse : Int)
  | heartbeat (curTs : Int)
  deriving DecidableEq, Repr

namespace BitrateController

def kNormalNotifyTimer : Int := 2000

/-- `bitrate_controller_create`. -/
def create (sysMs : Int) : BitrateController where
  lastBitrateUpdateTs := sysMs
  notifyTs := sysMs
  reservedBitrateBps := 0
  lastBitrateBps := 0
  lastFractionLoss := 0
  lastRtt := 0
  lastReservedBitrateBps := 0
  est := .create 10000 1500000

/-- The bitrate that `bitrate_controller_get_parameter` computes. -/
def usableBitrate (ctrl : BitrateController) : Nat :=
  max (ctrl.est.currBitrate - min ctrl.est.currBitrate ctrl.reservedBitrateBps)
    ctrl.est.minConfBitrate

/-- The three values that `bitrate_controller_get_parameter` stores. -/
def parameter (ctrl : BitrateController) : Notification :=
  ⟨ctrl.usableBitrate, ctrl.est.lastFractionLoss, ctrl.est.lastRtt⟩

/-- Whether `bitrate_controller_get_parameter` returns `0`. -/
def Changed (ctrl : BitrateController) : Prop :=
  ctrl.est.lastFractionLoss ≠ ctrl.lastFractionLoss ∨ ctrl.est.lastRtt ≠ ctrl.lastRtt ∨
    ctrl.usableBitrate ≠ ctrl.lastBitrateBps ∨
    ctrl.lastReservedBitrateBps ≠ ctrl.reservedBitrateBps

instance (ctrl : BitrateController) : Decidable ctrl.Changed :=
  inferInstanceAs (Decidable (_ ∨ _))

/-- `bitrate_controller_get_parameter`; the result is the one it returns. -/
def getParameter (ctrl : BitrateController) : Int × Notification × BitrateController :=
  if ctrl.Changed then
    (0, ctrl.parameter, { ctrl with
      lastFractionLoss := ctrl.est.lastFractionLoss
      lastBitrateBps := ctrl.usableBitrate
      lastRtt := ctrl.est.lastRtt
      lastReservedBitrateBps := ctrl.reservedBitrateBps })
  else (-1, ctrl.parameter, ctrl)

/-- `maybe_trigger_network_changed`. -/
def maybeTriggerNetworkChanged (ctrl : BitrateController) (sysMs : Int) :
    Option Notification × BitrateController :=
  let (ret, n, ctrl) := ctrl.getParameter
  if ret = 0 then (some n, { ctrl with notifyTs := sysMs }) else (none, ctrl)

/-- `bitrate_controller_set_start_bitrate`. -/
def setStartBitrate (ctrl : BitrateController) (sysMs : Int) (startBitrate : Nat) :
    Option Notification × BitrateController :=
  { ctrl with est := ctrl.est.setSendBitrate startBitrate }.maybeTriggerNetworkChanged sysMs

/-- `bitrate_controller_set_conf_bitrate`. -/
def setConfBitrate (ctrl : BitrateController) (sysMs : Int) (minBitrate maxBitrate : Nat) :
    Option Notification × BitrateController :=
  let est := ctrl.est.setMinmaxBitrate minBitrate maxBitrate
  { ctrl with est }.maybeTriggerNetworkChanged sysMs

/-- `bitrate_controller_set_bitrates`. -/
def setBitrates (ctrl : BitrateController) (sysMs : Int) (bitrate minBitrate maxBitrate : Nat) :
    Option Notification × BitrateController :=
  let est := (ctrl.est.setMinmaxBitrate minBitrate maxBitrate).setSendBitrate bitrate
  { ctrl with est }.maybeTriggerNetworkChanged sysMs

/-- `bitrate_controller_reset_bitrates`. -/
def resetBitrates (ctrl : BitrateController) (sysMs : Int) (bitrate minBitrate maxBitrate : Nat) :
    Option Notification × BitrateController :=
  let est := ((SenderEstimation.create 10000 1500000).setMinmaxBitrate minBitrate
    maxBitrate).setSendBitrate bitrate
  { ctrl with est }.maybeTriggerNetworkChanged sysMs

/-- `bitrate_controller_set_reserved`. -/
def setReserved (ctrl : BitrateController) (sysMs : Int) (bitrate : Nat) :
    Option Notification × BitrateController :=
  { ctrl with reservedBitrateBps := bitrate }.maybeTriggerNetworkChanged sysMs

/-- `bitrate_controller_on_remb`. -/
def onRemb (ctrl : BitrateController) (sysMs : Int) (bitrate : Nat) :
    Option Notification × BitrateController :=
  { ctrl with est := ctrl.est.updateRemb bitrate }.maybeTriggerNetworkChanged sysMs

/-- `bitrate_controller_on_report`. -/
def onReport (fl : LossFloats) (ctrl : BitrateController) (sysMs : Int) (rtt : Nat)
    (curTs : Int) (fractionLoss : Nat) (packetsNum : Int) :
    Option Notification × BitrateController :=
  if packetsNum > 0 then
    let est := ctrl.est.updateBlock fl fractionLoss rtt packetsNum curTs
    { ctrl with est }.maybeTriggerNetworkChanged sysMs
  else (none, ctrl)

/-- `bitrate_controller_on_basedelay_result`. -/
def onBasedelayResult (ctrl : BitrateController) (sysMs update : Int) (targetBitrate : Nat) :
    Option Notification × BitrateController :=
  if update = -1 then (none, ctrl)
  else { ctrl with est := ctrl.est.updateDelayBase targetBitrate }.maybeTriggerNetworkChanged sysMs

/-- `bitrate_controller_heartbeat`. -/
def heartbeat (fl : LossFloats) (ctrl : BitrateController) (curTs : Int) :
    Option Notification × BitrateController :=
  if curTs < ctrl.lastBitrateUpdateTs + 100 then (none, ctrl)
  else
    let (ret, n, ctrl) := { ctrl with est := ctrl.est.update fl curTs }.getParameter
    if ret = 0 then
      (some n, { ctrl with notifyTs := curTs, lastBitrateUpdateTs := curTs })
    else if ctrl.notifyTs + kNormalNotifyTimer ≤ curTs then
      (some n, { ctrl with notifyTs := curTs, lastBitrateUpdateTs := curTs })
    else (none, { ctrl with lastBitrateUpdateTs := curTs })

def perform (fl : LossFloats) (ctrl : BitrateController) (sysMs : Int) :
    ControllerCall → Option Notification × BitrateController
  | .setBitrates bitrate minBitrate maxBitrate =>
      ctrl.setBitrates sysMs bitrate minBitrate maxBitrate
  | .onRemb bitrate => ctrl.onRemb sysMs bitrate
  | .onReport rtt curTs fractionLoss packetsNum =>
      ctrl.onReport fl sysMs rtt curTs fractionLoss packetsNum
  | .onBasedelayResult update _ targetBitrate _ =>
      ctrl.onBasedelayResult sysMs update targetBitrate
  | .heartbeat curTs => ctrl.heartbeat fl curTs

/-! ## What a call notifies -/

/-- The last bitrate that was notified is the one that the estimator stands for. -/
structure Settled (ctrl : BitrateController) : Prop where
  bitrate : ctrl.lastBitrateBps = ctrl.usableBitrate
  reserved : ctrl.lastReservedBitrateBps = ctrl.reservedBitrateBps

/-- What a call may do: nothing, or an update of the estimator after which a
change is notified. -/
structure Answers (ctrl : BitrateController) (r : Option Notification × BitrateController) :
    Prop where
  settled : r.2.Settled ∨ r = (none, ctrl)
  reserved : r.2.reservedBitrateBps = ctrl.reservedBitrateBps
  notified : ∀ n, r.1 = some n → n.bitrate = r.2.usableBitrate
  silent : r.1 = none → r.2.lastBitrateBps = ctrl.lastBitrateBps

variable {ctrl : BitrateController} {fl : LossFloats}

theorem Answers.nothing (ctrl : BitrateController) : Answers ctrl (none, ctrl) :=
  ⟨.inr rfl, rfl, nofun, fun _ => rfl⟩

/-- The values are stored if they have changed, and are the stored ones if not. -/
theorem getParameter_settled (ctrl : BitrateController) : ctrl.getParameter.2.2.Settled := by
  unfold getParameter
  by_cases hchanged : ctrl.Changed
  · rw [if_pos hchanged]
    exact ⟨rfl, rfl⟩
  · rw [if_neg hchanged]
    rw [Changed, not_or, not_or, not_or, not_not, not_not, not_not, not_not] at hchanged
    exact ⟨hchanged.2.2.1.symm, hchanged.2.2.2⟩

theorem maybeTrigger_answers (ctrl : BitrateController) (est : SenderEstimation) (sysMs : Int) :
    Answers ctrl ({ ctrl with est }.maybeTriggerNetworkChanged sysMs) := by
  have hsettled := getParameter_settled { ctrl with est }
  unfold maybeTriggerNetworkChanged
  unfold getParameter at hsettled ⊢
  by_cases hchanged : Changed { ctrl with est }
  · rw [if_pos hchanged] at hsettled ⊢
    refine ⟨.inl ⟨hsettled.bitrate, hsettled.reserved⟩, rfl, ?_, nofun⟩
    intro n hn
    obtain rfl := Option.some.inj hn
    rfl
  · rw [if_neg hchanged] at hsettled ⊢
    exact ⟨.inl hsettled, rfl, nofun, fun _ => rfl⟩

theorem heartbeat_answers (fl : LossFloats) (ctrl : BitrateController) (curTs : Int) :
    Answers ctrl (ctrl.heartbeat fl curTs) := by
  have hsettled := getParameter_settled { ctrl with est := ctrl.est.update fl curTs }
  unfold heartbeat
  by_cases hearly : curTs < ctrl.lastBitrateUpdateTs + 100
  · rw [if_pos hearly]
    exact .nothing ctrl
  · rw [if_neg hearly]
    unfold getParameter at hsettled ⊢
    by_cases hchanged : Changed { ctrl with est := ctrl.est.update fl curTs }
    · rw [if_pos hchanged] at hsettled ⊢
      refine ⟨.inl ⟨hsettled.bitrate, hsettled.reserved⟩, rfl, ?_, nofun⟩
      intro n hn
      obtain rfl := Option.some.inj hn
      rfl
    · -- every 2 s the same values are notified again
      rw [if_neg hchanged] at hsettled ⊢
      have hret : ¬ (-1 : Int) = 0 := by decide
      simp only [if_neg hret]
      split_ifs
      · refine ⟨.inl ⟨hsettled.bitrate, hsettled.reserved⟩, rfl, ?_, nofun⟩
        intro n hn
        obtain rfl := Option.some.inj hn
        rfl
      · exact ⟨.inl ⟨hsettled.bitrate, hsettled.reserved⟩, rfl, nofun, fun _ => rfl⟩

/-- **Every call answers** with what the estimator stands for, or does nothing. -/
theorem perform_answers (fl : LossFloats) (ctrl : BitrateController) (sysMs : Int)
    (call : ControllerCall) : Answers ctrl (ctrl.perform fl sysMs call) := by
  cases call with
  | setBitrates bitrate minBitrate maxBitrate => exact maybeTrigger_answers ctrl _ sysMs
  | onRemb bitrate => exact maybeTrigger_answers ctrl _ sysMs
  | onReport rtt curTs fractionLoss packetsNum =>
      unfold perform onReport
      simp only
      split
      · exact maybeTrigger_answers ctrl _ sysMs
      · exact .nothing ctrl
  | onBasedelayResult update probe targetBitrate recoveredFromOveruse =>
      unfold perform onBasedelayResult
      simp only
      split
      · exact .nothing ctrl
      · exact maybeTrigger_answers ctrl _ sysMs
  | heartbeat curTs => exact heartbeat_answers fl ctrl curTs

theorem perform_setBitrates_settled (fl : LossFloats) (ctrl : BitrateController) (sysMs : Int)
    (bitrate minBitrate maxBitrate : Nat) :
    (ctrl.perform fl sysMs (.setBitrates bitrate minBitrate maxBitrate)).2.Settled := by
  unfold perform setBitrates maybeTriggerNetworkChanged
  simp only
  split
  · exact ⟨(getParameter_settled _).bitrate, (getParameter_settled _).reserved⟩
  · exact getParameter_settled _

theorem est_maybeTrigger (ctrl : BitrateController) (sysMs : Int) :
    (ctrl.maybeTriggerNetworkChanged sysMs).2.est = ctrl.est := by
  unfold maybeTriggerNetworkChanged getParameter
  by_cases hchanged : ctrl.Changed
  · simp only [if_pos hchanged, if_true]
  · simp only [if_neg hchanged]
    rfl

/-- What a call does to the estimator. -/
def estAfter (fl : LossFloats) (ctrl : BitrateController) : ControllerCall → SenderEstimation
  | .setBitrates bitrate minBitrate maxBitrate =>
      (ctrl.est.setMinmaxBitrate minBitrate maxBitrate).setSendBitrate bitrate
  | .onRemb bitrate => ctrl.est.updateRemb bitrate
  | .onReport rtt curTs fractionLoss packetsNum =>
      if packetsNum > 0 then ctrl.est.updateBlock fl fractionLoss rtt packetsNum curTs
      else ctrl.est
  | .onBasedelayResult update _ targetBitrate _ =>
      if update = -1 then ctrl.est else ctrl.est.updateDelayBase targetBitrate
  | .heartbeat curTs =>
      if curTs < ctrl.lastBitrateUpdateTs + 100 then ctrl.est else ctrl.est.update fl curTs

/-- **A call changes the estimator** as it is told, whatever it notifies. -/
theorem est_perform (fl : LossFloats) (ctrl : BitrateController) (sysMs : Int)
    (call : ControllerCall) : (ctrl.perform fl sysMs call).2.est = ctrl.estAfter fl call := by
  cases call with
  | setBitrates bitrate minBitrate maxBitrate => exact est_maybeTrigger _ sysMs
  | onRemb bitrate => exact est_maybeTrigger _ sysMs
  | onReport rtt curTs fractionLoss packetsNum =>
      unfold perform onReport estAfter
      simp only
      split
      · exact est_maybeTrigger _ sysMs
      · rfl
  | onBasedelayResult update probe targetBitrate recoveredFromOveruse =>
      unfold perform onBasedelayResult estAfter
      simp only
      split
      · rfl
      · exact est_maybeTrigger _ sysMs
  | heartbeat curTs =>
      unfold perform heartbeat estAfter getParameter
      simp only
      split_ifs <;> rfl

/-- The configured minimum never gets smaller. -/
theorem minConfBitrate_perform_le (fl : LossFloats) (ctrl : BitrateController) (sysMs : Int)
    (call : ControllerCall) :
    ctrl.est.minConfBitrate ≤ (ctrl.perform fl sysMs call).2.est.minConfBitrate := by
  rw [est_perform]
  cases call with
  | setBitrates bitrate minBitrate maxBitrate => exact Nat.le_max_left _ _
  | onRemb bitrate => exact Nat.le_refl _
  | onReport rtt curTs fractionLoss packetsNum =>
      unfold estAfter
      simp only
      split
      · exact Nat.le_of_eq (congrArg Prod.fst (SenderEstimation.limits_updateBlock _ _ _ _)).symm
      · exact Nat.le_refl _
  | onBasedelayResult update probe targetBitrate recoveredFromOveruse =>
      unfold estAfter
      simp only
      split <;> exact Nat.le_refl _
  | heartbeat curTs =>
      unfold estAfter
      simp only
      split
      · exact Nat.le_refl _
      · exact Nat.le_of_eq (congrArg Prod.fst (SenderEstimation.limits_update curTs)).symm

end BitrateController

end Razor
