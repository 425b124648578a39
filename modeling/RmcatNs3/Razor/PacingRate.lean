import RmcatNs3.Razor.PacerBudget
import RmcatNs3.Razor.SenderController

/-!
# The rate of the pacer

Runs of the sender. The pacer is set to what the bitrate controller notifies, and
by `sender_cc_set_bitrates` to what it is asked for, which the controller may
have limited: the two are the same exactly as long as it has not.
-/

namespace Razor

open Runs

/-- The sender, and whether its bitrates have been set. -/
structure RateRun where
  cc : SenderController
  started : Bool

inductive RateOp where
  | setBitrates (sysMs : Int) (minBitrate startBitrate maxBitrate : Nat)
  | feedback (input : FeedbackInput) (feedback : List UInt8) (msg : FeedbackMsg)
  | updateRtt (rtt : Int)
  | heartbeat (fuel : Nat) (nowTs sysMs : Int)
  | addPacePacket (a : Addr) (packetId : PacketSeq) (retrans : Int) (size : Nat) (sysMs : Int)
  | onSendPacket (sendTs nowTs : Int) (seq : TransportSeq) (size : Nat)

namespace RateRun

def create (data : StructMemory.Mem) (sendCb : Bool) (queueMs : Nat) (sysMs : Int) : RateRun :=
  ⟨.create data sendCb queueMs sysMs, false⟩

/-- One call. -/
def Step (fl : LossFloats) (c : RateRun) : RateOp → RateRun → Prop
  | .setBitrates sysMs minBitrate startBitrate maxBitrate, c' =>
      minBitrate ≤ maxBitrate ∧
      c' = ⟨c.cc.setBitrates fl sysMs minBitrate startBitrate maxBitrate, true⟩
  | .feedback input feedback msg, c' =>
      ∃ cc, c.cc.onFeedback fl input feedback msg = some cc ∧ c' = { c with cc }
  | .updateRtt rtt, c' => c' = { c with cc := c.cc.updateRtt rtt }
  | .heartbeat fuel nowTs sysMs, c' =>
      ∃ cc, c.cc.heartbeat fl fuel nowTs sysMs = some cc ∧ c' = { c with cc }
  | .addPacePacket a packetId retrans size sysMs, c' =>
      c' = { c with cc := (c.cc.addPacePacket a packetId retrans size sysMs).2 }
  | .onSendPacket sendTs nowTs seq size, c' =>
      c' = { c with cc := c.cc.onSendPacket sendTs nowTs seq size }

/-- Once the bitrates have been set, the pacer has the bitrate that was notified
last, and this is what the estimator stood for then. -/
def Followed (c : RateRun) : Prop :=
  c.started = true → ∃ n ctrl, c.cc.notified.getLast? = some (n, ctrl) ∧
    c.cc.pacer.estimatedBitrate = n.bitrate ∧
    n.bitrate = max (ctrl.est.currBitrate - min ctrl.est.currBitrate ctrl.reservedBitrateBps)
      ctrl.est.minConfBitrate

/-- The estimator takes the bitrate that the sender starts from as it is: it is the
least that is configured, or no limit is below it. -/
def StartTaken (est : SenderEstimation) (minBitrate startBitrate maxBitrate : Nat) : Prop :=
  let startBitrate := min (max startBitrate minBitrate) maxBitrate
  startBitrate = max est.minConfBitrate minBitrate ∨
    est.minConfBitrate ≤ startBitrate ∧
      (est.bweIncoming = 0 ∨ startBitrate ≤ est.bweIncoming) ∧
      (est.delayBaseBitrate = 0 ∨ startBitrate ≤ est.delayBaseBitrate)

/-- The condition on a call. -/
def Taken (c : RateRun) : RateOp → Prop
  | .setBitrates _ minBitrate startBitrate maxBitrate =>
      StartTaken c.cc.bitrateController.est minBitrate startBitrate maxBitrate
  | _ => True

/-! ## The start bitrate -/

/-- What is left of the start bitrate. -/
theorem cap_startBitrate_iff (est : SenderEstimation) (startBitrate : Nat)
    {minBitrate maxBitrate : Nat} (hle : minBitrate ≤ maxBitrate) :
    ((est.setMinmaxBitrate minBitrate maxBitrate).capBitrateToThreshold
        (min (max startBitrate minBitrate) maxBitrate)).currBitrate
      = min (max startBitrate minBitrate) maxBitrate ↔
    StartTaken est minBitrate startBitrate maxBitrate := by
  unfold StartTaken SenderEstimation.capBitrateToThreshold SenderEstimation.setMinmaxBitrate
  simp only
  split_ifs <;> omega

/-! ## The invariant -/

/-- What holds after every run in which the start bitrates are taken. -/
structure Inv (c : RateRun) : Prop where
  reserved : c.cc.bitrateController.reservedBitrateBps = 0
  minConf : 10000 ≤ c.cc.bitrateController.est.minConfBitrate
  last : c.cc.notified.getLast? = none ∧ c.cc.bitrateController.lastBitrateBps = 0 ∨
    ∃ n ctrl, c.cc.notified.getLast? = some (n, ctrl) ∧
      n.bitrate = c.cc.bitrateController.lastBitrateBps ∧ n.bitrate = ctrl.usableBitrate
  settled : c.started = true → c.cc.bitrateController.Settled
  paced : ∀ n ctrl, c.cc.notified.getLast? = some (n, ctrl) →
    c.cc.pacer.estimatedBitrate = n.bitrate

variable {fl : LossFloats} {c c' : RateRun} {cc : SenderController} {started : Bool}

theorem create_inv (data : StructMemory.Mem) (sendCb : Bool) (queueMs : Nat) (sysMs : Int) :
    Inv (create data sendCb queueMs sysMs) where
  reserved := rfl
  minConf := Nat.le_refl _
  last := .inl ⟨rfl, rfl⟩
  settled := nofun
  paced := fun n ctrl h => absurd h.symm (Option.some_ne_none (n, ctrl))

/-- The invariant is about the controller, the notifications and the pacer's rate. -/
theorem Inv.congr (h : Inv c) (hstarted : c'.started = c.started)
    (hctrl : c'.cc.bitrateController = c.cc.bitrateController)
    (hnotified : c'.cc.notified = c.cc.notified)
    (hpacer : c'.cc.pacer.estimatedBitrate = c.cc.pacer.estimatedBitrate) : Inv c' := by
  refine ⟨?_, ?_, ?_, ?_, ?_⟩
  · rw [hctrl]
    exact h.reserved
  · rw [hctrl]
    exact h.minConf
  · rw [hctrl, hnotified]
    exact h.last
  · rw [hctrl, hstarted]
    exact h.settled
  · rw [hnotified, hpacer]
    exact h.paced

/-- What is notified last is what the controller stands for, and it is not `0`. -/
theorem Inv.followed (h : Inv c) : Followed c := by
  intro hstarted
  have hsettled := (h.settled hstarted).bitrate
  have hmin : c.cc.bitrateController.est.minConfBitrate
      ≤ c.cc.bitrateController.usableBitrate := Nat.le_max_right _ _
  have hconf := h.minConf
  rcases h.last with ⟨_, hzero⟩ | ⟨n, ctrl, hlast, _, husable⟩
  · omega
  · exact ⟨n, ctrl, hlast, h.paced n ctrl hlast, husable⟩

/-- **A call of the controller** keeps the invariant. -/
theorem Inv.call (h : Inv ⟨cc, started⟩) (sysMs : Int) (call : ControllerCall) :
    Inv ⟨cc.call fl sysMs call, started⟩ := by
  have hanswers := cc.bitrateController.perform_answers fl sysMs call
  have hmin := cc.bitrateController.minConfBitrate_perform_le fl sysMs call
  have hconf := h.minConf
  have hreserved := hanswers.reserved.trans h.reserved
  have hsettled : started = true →
      (cc.bitrateController.perform fl sysMs call).2.Settled := by
    intro hstarted
    rcases hanswers.settled with hsettled | hnothing
    · exact hsettled
    · rw [hnothing]
      exact h.settled hstarted
  rcases cc.call_cases fl sysMs call with ⟨hnone, heq⟩ | ⟨n, hsome, heq⟩
  · rw [heq]
    -- without a notification the last one still stands
    have hlast : cc.notified.getLast? = none ∧ cc.bitrateController.lastBitrateBps = 0 ∨
        ∃ (n : Notification) (ctrl : BitrateController), cc.notified.getLast? = some (n, ctrl) ∧
          n.bitrate = cc.bitrateController.lastBitrateBps ∧ n.bitrate = ctrl.usableBitrate :=
      h.last
    rw [← hanswers.silent hnone] at hlast
    exact ⟨hreserved, Nat.le_trans hconf hmin, hlast, hsettled, h.paced⟩
  · have husable := hanswers.notified n hsome
    rw [heq]
    refine ⟨hreserved, Nat.le_trans hconf hmin, .inr ⟨n, _, List.getLast?_concat, ?_, husable⟩,
      hsettled, ?_⟩
    -- whoever is notified is told of a settled bitrate
    · rcases hanswers.settled with hsettled | hnothing
      · exact husable.trans hsettled.bitrate.symm
      · rw [hnothing] at hsome
        cases hsome
    · intro n' ctrl' hlast
      have hlast' : (cc.notified ++ [(n, (cc.bitrateController.perform fl sysMs call).2)]).getLast?
          = some (n', ctrl') := hlast
      rw [List.getLast?_concat] at hlast'
      obtain ⟨rfl, _⟩ := Prod.mk.inj (Option.some.inj hlast')
      rfl

theorem inv_kept (fl : LossFloats) (started : Bool) :
    SenderController.Kept fl fun cc => Inv ⟨cc, started⟩ where
  call := fun _ sysMs call _ h => h.call sysMs call
  adapter := fun _ _ h => h.congr rfl rfl rfl rfl
  strm := fun _ _ h => h.congr rfl rfl rfl rfl
  wasInAlr := fun _ _ h => h.congr rfl rfl rfl rfl

theorem Inv.heartbeat (h : Inv ⟨cc, started⟩) {fuel : Nat} {nowTs sysMs : Int}
    {cc' : SenderController} (hbeat : cc.heartbeat fl fuel nowTs sysMs = some cc') :
    Inv ⟨cc', started⟩ := by
  obtain ⟨pacer, htransmit, hbeat⟩ := Option.bind_eq_some_iff.mp hbeat
  obtain rfl := Option.some.inj hbeat
  have hsame : Inv ⟨{ cc with pacer }, started⟩ :=
    h.congr rfl rfl rfl (PaceSender.tryTransmit_setAs htransmit).2
  exact hsame.call _ _

/-! ## Setting the bitrates -/

/-- What the controller stands for after its bitrates have been set. -/
theorem Inv.usableBitrate_setBitrates (h : Inv c) (fl : LossFloats) (sysMs : Int)
    (bitrate minBitrate maxBitrate : Nat) :
    (c.cc.call fl sysMs
        (.setBitrates bitrate minBitrate maxBitrate)).bitrateController.usableBitrate
      = ((c.cc.bitrateController.est.setMinmaxBitrate minBitrate
          maxBitrate).capBitrateToThreshold bitrate).currBitrate := by
  have hreserved := (c.cc.bitrateController.perform_answers fl sysMs
    (.setBitrates bitrate minBitrate maxBitrate)).reserved.trans h.reserved
  have hest : (c.cc.bitrateController.perform fl sysMs
      (.setBitrates bitrate minBitrate maxBitrate)).2.est
      = (c.cc.bitrateController.est.setMinmaxBitrate minBitrate maxBitrate).setSendBitrate
          bitrate := BitrateController.est_maybeTrigger _ sysMs
  have hcap := ((c.cc.bitrateController.est.setMinmaxBitrate minBitrate
    maxBitrate).cap_bounds bitrate).1
  rw [SenderController.bitrateController_call, BitrateController.usableBitrate, hreserved, hest,
    Nat.min_zero, Nat.sub_zero]
  exact Nat.max_eq_left hcap

/-- The state after the controller's part, before the pacer is set once more. -/
theorem Inv.call_setBitrates (h : Inv c) (fl : LossFloats) (sysMs : Int)
    (bitrate minBitrate maxBitrate : Nat) :
    Inv ⟨c.cc.call fl sysMs (.setBitrates bitrate minBitrate maxBitrate), true⟩ := by
  have hcall : Inv ⟨c.cc.call fl sysMs (.setBitrates bitrate minBitrate maxBitrate), c.started⟩ :=
    Inv.call h sysMs _
  refine ⟨hcall.reserved, hcall.minConf, hcall.last, fun _ => ?_, hcall.paced⟩
  show (c.cc.call fl sysMs _).bitrateController.Settled
  rw [SenderController.bitrateController_call]
  exact c.cc.bitrateController.perform_setBitrates_settled fl sysMs bitrate minBitrate maxBitrate

/-- **Setting the bitrates** keeps the pacer at the notified rate exactly if the start
bitrate is taken as it is. -/
theorem Inv.setBitrates (h : Inv c) (fl : LossFloats) (sysMs : Int)
    {minBitrate startBitrate maxBitrate : Nat} (hle : minBitrate ≤ maxBitrate) :
    (Followed ⟨c.cc.setBitrates fl sysMs minBitrate startBitrate maxBitrate, true⟩ ↔
      StartTaken c.cc.bitrateController.est minBitrate startBitrate maxBitrate) ∧
    (StartTaken c.cc.bitrateController.est minBitrate startBitrate maxBitrate →
      Inv ⟨c.cc.setBitrates fl sysMs minBitrate startBitrate maxBitrate, true⟩) := by
  let start := min (max startBitrate minBitrate) maxBitrate
  have hcall := h.call_setBitrates fl sysMs start minBitrate maxBitrate
  have hcap := cap_startBitrate_iff c.cc.bitrateController.est startBitrate hle
  obtain ⟨n, ctrl, hlast, _, hformula⟩ := hcall.followed rfl
  -- what was notified last is what is left of the start bitrate
  have hnotified : n.bitrate = ((c.cc.bitrateController.est.setMinmaxBitrate minBitrate
      maxBitrate).capBitrateToThreshold start).currBitrate := by
    have husable := h.usableBitrate_setBitrates fl sysMs start minBitrate maxBitrate
    rcases hcall.last with ⟨hnone, _⟩ | ⟨n', ctrl', hlast', hbps, _⟩
    · rw [hlast] at hnone
      cases hnone
    · obtain ⟨rfl, _⟩ := Prod.mk.inj (Option.some.inj (hlast.symm.trans hlast'))
      exact (hbps.trans (hcall.settled rfl).bitrate).trans husable
  have htaken : start = n.bitrate ↔
      StartTaken c.cc.bitrateController.est minBitrate startBitrate maxBitrate := by
    rw [hnotified]
    exact eq_comm.trans hcap
  constructor
  · constructor
    · intro hfollowed
      obtain ⟨n', ctrl', hlast', hrate, _⟩ := hfollowed rfl
      obtain ⟨rfl, _⟩ := Prod.mk.inj (Option.some.inj (hlast.symm.trans hlast'))
      exact htaken.mp hrate
    · intro hstart _
      exact ⟨n, ctrl, hlast, htaken.mpr hstart, hformula⟩
  · intro hstart
    refine ⟨hcall.reserved, hcall.minConf, hcall.last, hcall.settled, ?_⟩
    intro n' ctrl' hlast'
    obtain ⟨rfl, _⟩ := Prod.mk.inj (Option.some.inj (hlast.symm.trans hlast'))
    exact htaken.mpr hstart

/-! ## Every run -/

/-- **One call**: the pacer follows exactly if the start bitrate is taken. -/
theorem Inv.step (h : Inv c) {op : RateOp} (hstep : Step fl c op c') :
    (Followed c' ↔ c.Taken op) ∧ (c.Taken op → Inv c') := by
  cases op with
  | setBitrates sysMs minBitrate startBitrate maxBitrate =>
      obtain ⟨hle, rfl⟩ := hstep
      exact h.setBitrates fl sysMs hle
  | feedback input feedback msg =>
      obtain ⟨cc, hon, rfl⟩ := hstep
      have hinv : Inv { c with cc } := (inv_kept fl c.started).onFeedback h hon
      exact ⟨iff_of_true hinv.followed trivial, fun _ => hinv⟩
  | updateRtt rtt =>
      obtain rfl := hstep
      have hinv : Inv { c with cc := c.cc.updateRtt rtt } := h.congr rfl rfl rfl rfl
      exact ⟨iff_of_true hinv.followed trivial, fun _ => hinv⟩
  | heartbeat fuel nowTs sysMs =>
      obtain ⟨cc, hbeat, rfl⟩ := hstep
      have hinv : Inv { c with cc } := Inv.heartbeat h hbeat
      exact ⟨iff_of_true hinv.followed trivial, fun _ => hinv⟩
  | addPacePacket a packetId retrans size sysMs =>
      obtain rfl := hstep
      have hinv : Inv { c with cc := (c.cc.addPacePacket a packetId retrans size sysMs).2 } :=
        h.congr rfl rfl rfl rfl
      exact ⟨iff_of_true hinv.followed trivial, fun _ => hinv⟩
  | onSendPacket sendTs nowTs seq size =>
      obtain rfl := hstep
      have hinv : Inv { c with cc := c.cc.onSendPacket sendTs nowTs seq size } :=
        h.congr rfl rfl rfl rfl
      exact ⟨iff_of_true hinv.followed trivial, fun _ => hinv⟩

/-- **Pacer and encoder follow the same rate** in every state of a run exactly if every
call of `sender_cc_set_bitrates` has its start bitrate taken as it is. -/
theorem followed_iff_taken (fl : LossFloats) (data : StructMemory.Mem) (sendCb : Bool)
    (queueMs : Nat) (sysMs : Int) (ops : List RateOp) (c : RateRun) :
    Run (fun s op s' => Step fl s op s' ∧ Followed s') (create data sendCb queueMs sysMs) ops c ↔
      Run (fun s op s' => Step fl s op s' ∧ s.Taken op) (create data sendCb queueMs sysMs)
        ops c :=
  Run.restrict_iff (create_inv data sendCb queueMs sysMs) fun _ _ _ h hstep => h.step hstep

/-- A remb of 500 kbps. -/
def rembFeedback : List UInt8 := [1, 0x00, 0x07, 0xa1, 0x20]

/-- The bitrates have been set once. -/
def startedOnce : RateRun :=
  ⟨(create (fun _ => 0) true 250 0).cc.setBitrates SenderController.sampleFloats 0 100000
    1000000 2000000, true⟩

/-- The stream after the remb has been read. -/
def strmRead : BinStream :=
  ((startedOnce.cc.readFeedback rembFeedback SenderController.blankMsg).map (·.1)).getD
    startedOnce.cc.strm

/-- The state after the remb. -/
def limitedOnce : SenderController :=
  SenderController.call SenderController.sampleFloats { startedOnce.cc with strm := strmRead }
    70002 (.onRemb 500000)

theorem onFeedback_remb :
    startedOnce.cc.onFeedback SenderController.sampleFloats SenderController.blankInput
      rembFeedback SenderController.blankMsg = some limitedOnce := by
  have hview : (startedOnce.cc.readFeedback rembFeedback SenderController.blankMsg).map
      (fun r => (r.2.flag, r.2.remb)) = some (rembMsg, 500000) := by decide
  obtain ⟨⟨strm, msg⟩, hread, hview⟩ := Option.map_eq_some_iff.mp hview
  obtain ⟨hflag, hremb⟩ : msg.flag = rembMsg ∧ msg.remb = 500000 := Prod.mk.inj hview
  have hproxy : ¬ msg.hasFlag proxyTsMsg = true := by
    rw [FeedbackMsg.hasFlag, hflag]
    decide
  have hset : msg.hasFlag rembMsg = true := by
    rw [FeedbackMsg.hasFlag, hflag]
    decide
  have hloss : ¬ msg.hasFlag lossInfoMsg = true := by
    rw [FeedbackMsg.hasFlag, hflag]
    decide
  have hstrm : strmRead = strm := by rw [strmRead, hread, Option.map_some, Option.getD_some]
  rw [SenderController.onFeedback, if_neg (by decide), hread]
  show SenderController.onMessage _ { startedOnce.cc with strm } _ msg = _
  rw [SenderController.onMessage, if_neg hproxy, SenderController.onRembPart, if_pos hset,
    SenderController.onLossPart, if_neg hloss, hremb, limitedOnce, hstrm]
  rfl

/-- The state after the bitrates have been set once more, to the same values. -/
def setTwice : SenderController :=
  limitedOnce.setBitrates SenderController.sampleFloats 1 100000 1000000 2000000

theorem setTwice_notified : setTwice.notified.getLast?.map (·.1.bitrate) = some 500000 := by
  decide +kernel

theorem setTwice_pacer : setTwice.pacer.estimatedBitrate = 1000000 := rfl

/-- The receiver allows 500 kbps; then the bitrates are set once more, to the same
values. The encoder is left at 500 kbps, and the pacer is set to 1 Mbps. -/
theorem pacer_drifts : ∃ ops c, Run (Step SenderController.sampleFloats)
    (create (fun _ => 0) true 250 0) ops c ∧ ¬ Followed c := by
  have hfirst : Step SenderController.sampleFloats (create (fun _ => 0) true 250 0)
      (.setBitrates 0 100000 1000000 2000000) startedOnce := ⟨by decide, rfl⟩
  have hremb : Step SenderController.sampleFloats startedOnce
      (.feedback SenderController.blankInput rembFeedback SenderController.blankMsg)
      ⟨limitedOnce, true⟩ := ⟨limitedOnce, onFeedback_remb, rfl⟩
  have hagain : Step SenderController.sampleFloats ⟨limitedOnce, true⟩
      (.setBitrates 1 100000 1000000 2000000) ⟨setTwice, true⟩ := ⟨by decide, rfl⟩
  refine ⟨_, _, ((Run.nil.snoc hfirst).snoc hremb).snoc hagain, ?_⟩
  intro hfollowed
  obtain ⟨n, ctrl, hlast, hrate, _⟩ := hfollowed rfl
  have hsame : setTwice.notified.getLast?.map (·.1.bitrate) = some n.bitrate := by
    rw [hlast]
    rfl
  have heq := Option.some.inj (setTwice_notified.symm.trans hsame)
  have hwrong : (1000000 : Nat) = 500000 := setTwice_pacer.symm.trans (hrate.trans heq.symm)
  exact absurd hwrong (by decide)

end RateRun

end Razor
