import RmcatNs3.Razor.BitrateController
import RmcatNs3.Razor.FeedbackBounds
import RmcatNs3.Razor.PaceSender

/-!
# All of the sender's congestion controller

`razor/cc/sender_congestion_controller.c`, with the bitrate controller and the
pacer. The estimator of the delay and that of the acknowledged rate only meet the
rest in the `bwe_result_t` that they return, which is a parameter, as the times
are. The bitrate controller's trigger is `sender_cc_on_change_bitrate`.

A feedback has up to three parts. If none of the samples of the first part is
found in the history, the other two are not looked at.
-/

namespace Razor

open MachineInt FeedbackMsg

def kMaxQueueMs : Nat := 250
def kMinBitrateBps : Nat := 10000

/-- `bwe_result_t`. -/
structure BweResult where
  updated : Int
  probe : Int
  bitrate : Nat
  recoveredFromOveruse : Int
  deriving DecidableEq, Repr

/-- The rest of `sender_cc_t`. -/
structure SenderController extends SenderCc where
  wasInAlr : Int
  rtt : Int
  bitrateController : BitrateController
  pacer : PaceSender
  /-- The calls of the bitrate controller, oldest first. -/
  calls : List ControllerCall
  /-- The calls of `trigger_func`, oldest first, and the controller that made them. -/
  notified : List (Notification × BitrateController)

/-- What a feedback finds: the times that are read, and the result of
`delay_bwe_incoming`. -/
structure FeedbackInput where
  adapterTs : Int
  nowTs : Int
  sysMs : Int
  bweResult : BweResult

namespace SenderController

/-- `sender_cc_on_change_bitrate`. -/
def onChangeBitrate (cc : SenderController) (n : Notification) : SenderController :=
  { cc with
    pacer := cc.pacer.setEstimateBitrate n.bitrate
    notified := cc.notified ++ [(n, cc.bitrateController)] }

/-- A call of the bitrate controller, and what it triggers. -/
def call (fl : LossFloats) (cc : SenderController) (sysMs : Int) (c : ControllerCall) :
    SenderController :=
  let (n, bitrateController) := cc.bitrateController.perform fl sysMs c
  let cc := { cc with bitrateController, calls := cc.calls ++ [c] }
  match n with
  | none => cc
  | some n => cc.onChangeBitrate n

/-- `sender_cc_create`. -/
def create (data : StructMemory.Mem) (sendCb : Bool) (queueMs : Nat) (sysMs : Int) :
    SenderController where
  toSenderCc := .create data
  wasInAlr := -1
  rtt := 200
  bitrateController := .create sysMs
  pacer := (PaceSender.create sendCb (min queueMs kMaxQueueMs) sysMs).setBitrateLimits
    kMinBitrateBps
  calls := []
  notified := []

/-- `sender_cc_heartbeat`, with `fuel` turns allowed to the pacer. -/
def heartbeat (fl : LossFloats) (cc : SenderController) (fuel : Nat) (nowTs sysMs : Int) :
    Option SenderController := do
  let pacer ← cc.pacer.tryTransmit fuel nowTs sysMs
  some ({ cc with pacer }.call fl sysMs (.heartbeat nowTs))

/-- `sender_cc_add_pace_packet`. -/
def addPacePacket (cc : SenderController) (a : Addr) (packetId : PacketSeq) (retrans : Int)
    (size : Nat) (sysMs : Int) : Int × SenderController :=
  let (ret, pacer) := cc.pacer.insertPacket a packetId retrans size sysMs
  (ret, { cc with pacer })

/-- `sender_on_send_packet`. -/
def onSendPacket (cc : SenderController) (sendTs nowTs : Int) (seq : TransportSeq)
    (size : Nat) : SenderController :=
  { cc with toSenderCc := cc.toSenderCc.onSendPacket sendTs nowTs seq size }

/-- The proxy's part of a feedback, once some sample has been found. -/
def onProxyPart (fl : LossFloats) (cc : SenderController) (input : FeedbackInput) :
    SenderController :=
  let cc := { cc with wasInAlr := if cc.pacer.alr.alrStartedTs > 0 then 0 else -1 }
  if input.bweResult.updated = 0 then
    cc.call fl input.sysMs (.onBasedelayResult input.bweResult.updated input.bweResult.probe
      input.bweResult.bitrate input.bweResult.recoveredFromOveruse)
  else cc

/-- The remb part of a feedback. -/
def onRembPart (fl : LossFloats) (cc : SenderController) (input : FeedbackInput)
    (msg : FeedbackMsg) : SenderController :=
  if msg.hasFlag rembMsg then cc.call fl input.sysMs (.onRemb msg.remb.toNat) else cc

/-- The loss part of a feedback. -/
def onLossPart (fl : LossFloats) (cc : SenderController) (input : FeedbackInput)
    (msg : FeedbackMsg) : SenderController :=
  if msg.hasFlag lossInfoMsg then
    cc.call fl input.sysMs (.onReport (toUnsigned 32 cc.rtt) input.nowTs msg.fractionLoss.toNat
      msg.packetNum.toInt)
  else cc

/-- `sender_on_feedback`, once the message is decoded. -/
def onMessage (fl : LossFloats) (cc : SenderController) (input : FeedbackInput)
    (msg : FeedbackMsg) : Option SenderController :=
  if msg.hasFlag proxyTsMsg then do
    let adapter ← cc.adapter.onFeedback input.adapterTs msg
    let cc := { cc with adapter }
    if adapter.num ≤ 0 then some cc
    else some (((cc.onProxyPart fl input).onRembPart fl input msg).onLossPart fl input msg)
  else some ((cc.onRembPart fl input msg).onLossPart fl input msg)

/-- `sender_on_feedback`; `msg` is the message on the stack before it is decoded. -/
def onFeedback (fl : LossFloats) (cc : SenderController) (input : FeedbackInput)
    (feedback : List UInt8) (msg : FeedbackMsg) : Option SenderController :=
  if feedback.length > kMaxFeedbackSize then some cc
  else do
    let (strm, msg) ← cc.readFeedback feedback msg
    { cc with strm }.onMessage fl input msg

/-- `sender_cc_update_rtt`. -/
def updateRtt (cc : SenderController) (rtt : Int) : SenderController := { cc with rtt }

/-- `sender_cc_set_bitrates`. -/
def setBitrates (fl : LossFloats) (cc : SenderController) (sysMs : Int)
    (minBitrate startBitrate maxBitrate : Nat) : SenderController :=
  let startBitrate := min (max startBitrate minBitrate) maxBitrate
  let cc := cc.call fl sysMs (.setBitrates startBitrate minBitrate maxBitrate)
  { cc with
    pacer := (cc.pacer.setEstimateBitrate startBitrate).setBitrateLimits minBitrate }

/-! ## What a call changes -/

variable {fl : LossFloats} {cc cc' : SenderController}

/-- A call notifies nothing, or sets the pacer to the bitrate that it notifies. -/
theorem call_cases (fl : LossFloats) (cc : SenderController) (sysMs : Int)
    (c : ControllerCall) :
    ((cc.bitrateController.perform fl sysMs c).1 = none ∧
      cc.call fl sysMs c = { cc with
        bitrateController := (cc.bitrateController.perform fl sysMs c).2
        calls := cc.calls ++ [c] }) ∨
    ∃ n, (cc.bitrateController.perform fl sysMs c).1 = some n ∧
      cc.call fl sysMs c = { cc with
        bitrateController := (cc.bitrateController.perform fl sysMs c).2
        calls := cc.calls ++ [c]
        pacer := cc.pacer.setEstimateBitrate n.bitrate
        notified := cc.notified ++ [(n, (cc.bitrateController.perform fl sysMs c).2)] } := by
  unfold call
  rcases cc.bitrateController.perform fl sysMs c with ⟨n, ctrl⟩
  cases n with
  | none => exact .inl ⟨rfl, rfl⟩
  | some n => exact .inr ⟨n, rfl, rfl⟩

@[simp] theorem calls_call (fl : LossFloats) (cc : SenderController) (sysMs : Int)
    (c : ControllerCall) : (cc.call fl sysMs c).calls = cc.calls ++ [c] := by
  rcases cc.call_cases fl sysMs c with ⟨_, heq⟩ | ⟨n, _, heq⟩ <;> rw [heq]

@[simp] theorem toSenderCc_call (fl : LossFloats) (cc : SenderController) (sysMs : Int)
    (c : ControllerCall) : (cc.call fl sysMs c).toSenderCc = cc.toSenderCc := by
  rcases cc.call_cases fl sysMs c with ⟨_, heq⟩ | ⟨n, _, heq⟩ <;> rw [heq]

@[simp] theorem bitrateController_call (fl : LossFloats) (cc : SenderController) (sysMs : Int)
    (c : ControllerCall) :
    (cc.call fl sysMs c).bitrateController = (cc.bitrateController.perform fl sysMs c).2 := by
  rcases cc.call_cases fl sysMs c with ⟨_, heq⟩ | ⟨n, _, heq⟩ <;> rw [heq]

@[simp] theorem rtt_call (fl : LossFloats) (cc : SenderController) (sysMs : Int)
    (c : ControllerCall) : (cc.call fl sysMs c).rtt = cc.rtt := by
  rcases cc.call_cases fl sysMs c with ⟨_, heq⟩ | ⟨n, _, heq⟩ <;> rw [heq]

@[simp] theorem toSenderCc_onProxyPart (input : FeedbackInput) :
    (cc.onProxyPart fl input).toSenderCc = cc.toSenderCc := by
  unfold onProxyPart
  by_cases hupdated : input.bweResult.updated = 0
  · simp only [if_pos hupdated, toSenderCc_call]
  · simp only [if_neg hupdated]

@[simp] theorem toSenderCc_onRembPart (input : FeedbackInput) (msg : FeedbackMsg) :
    (cc.onRembPart fl input msg).toSenderCc = cc.toSenderCc := by
  unfold onRembPart
  split
  · rw [toSenderCc_call]
  · rfl

@[simp] theorem toSenderCc_onLossPart (input : FeedbackInput) (msg : FeedbackMsg) :
    (cc.onLossPart fl input msg).toSenderCc = cc.toSenderCc := by
  unfold onLossPart
  split
  · rw [toSenderCc_call]
  · rfl

theorem toSenderCc_onMessage (input : FeedbackInput) (msg : FeedbackMsg) :
    (cc.onMessage fl input msg).map (·.toSenderCc)
      = (SenderCc.onProxyPart cc.adapter input.adapterTs msg).map (⟨·, cc.strm⟩) := by
  unfold onMessage SenderCc.onProxyPart
  by_cases hset : msg.hasFlag proxyTsMsg = true
  · rw [if_pos hset, if_pos hset]
    cases cc.adapter.onFeedback input.adapterTs msg with
    | none => rfl
    | some adapter =>
        simp only [Option.bind_eq_bind, Option.bind_some, Option.map_some]
        split
        · rfl
        · rw [Option.map_some, toSenderCc_onLossPart, toSenderCc_onRembPart,
            toSenderCc_onProxyPart]
  · rw [if_neg hset, if_neg hset]
    simp only [Option.map_some, toSenderCc_onLossPart, toSenderCc_onRembPart]

/-- **A feedback does to the adapter and the stream** what it does to them alone. -/
theorem toSenderCc_onFeedback (input : FeedbackInput) (feedback : List UInt8)
    (msg : FeedbackMsg) :
    (cc.onFeedback fl input feedback msg).map (·.toSenderCc)
      = cc.toSenderCc.onFeedback input.adapterTs feedback msg := by
  unfold onFeedback SenderCc.onFeedback
  split
  · rfl
  · cases cc.readFeedback feedback msg with
    | none => rfl
    | some r =>
        show (SenderController.onMessage fl { cc with strm := r.1 } input r.2).map _ = _
        rw [toSenderCc_onMessage]
        show Option.map _ (SenderCc.onProxyPart cc.adapter input.adapterTs r.2)
          = (SenderCc.onProxyPart cc.adapter input.adapterTs r.2).bind _
        cases SenderCc.onProxyPart cc.adapter input.adapterTs r.2 <;> rfl

/-! ## What a feedback keeps -/

/-- The calls that a feedback makes. -/
def OfFeedback : ControllerCall → Prop
  | .setBitrates .. => False
  | .heartbeat _ => False
  | _ => True

/-- What these calls keep, and what is not about the fields that a feedback sets itself. -/
structure Kept (fl : LossFloats) (P : SenderController → Prop) : Prop where
  call : ∀ cc sysMs c, OfFeedback c → P cc → P (cc.call fl sysMs c)
  adapter : ∀ cc adapter, P cc → P { cc with adapter }
  strm : ∀ cc strm, P cc → P { cc with strm }
  wasInAlr : ∀ cc wasInAlr, P cc → P { cc with wasInAlr }

variable {P : SenderController → Prop}

theorem Kept.onRembPart (hkept : Kept fl P) (h : P cc) (input : FeedbackInput)
    (msg : FeedbackMsg) : P (cc.onRembPart fl input msg) := by
  unfold SenderController.onRembPart
  split
  · exact hkept.call _ _ _ trivial h
  · exact h

theorem Kept.onLossPart (hkept : Kept fl P) (h : P cc) (input : FeedbackInput)
    (msg : FeedbackMsg) : P (cc.onLossPart fl input msg) := by
  unfold SenderController.onLossPart
  split
  · exact hkept.call _ _ _ trivial h
  · exact h

theorem Kept.onProxyPart (hkept : Kept fl P) (h : P cc) (input : FeedbackInput) :
    P (cc.onProxyPart fl input) := by
  have hsame := hkept.wasInAlr cc (if cc.pacer.alr.alrStartedTs > 0 then 0 else -1) h
  unfold SenderController.onProxyPart
  by_cases hupdated : input.bweResult.updated = 0
  · simp only [if_pos hupdated]
    exact hkept.call _ _ _ trivial hsame
  · simp only [if_neg hupdated]
    exact hsame

theorem Kept.onMessage (hkept : Kept fl P) (h : P cc) {input : FeedbackInput}
    {msg : FeedbackMsg} (hon : cc.onMessage fl input msg = some cc') : P cc' := by
  unfold SenderController.onMessage at hon
  split at hon
  · obtain ⟨adapter, _, hon⟩ := Option.bind_eq_some_iff.mp hon
    have hsame := hkept.adapter cc adapter h
    split at hon
    · obtain rfl := Option.some.inj hon
      exact hsame
    · obtain rfl := Option.some.inj hon
      exact hkept.onLossPart (hkept.onRembPart (hkept.onProxyPart hsame input) input msg) input msg
  · obtain rfl := Option.some.inj hon
    exact hkept.onLossPart (hkept.onRembPart h input msg) input msg

/-- **A feedback keeps** what the calls that it makes keep. -/
theorem Kept.onFeedback (hkept : Kept fl P) (h : P cc) {input : FeedbackInput}
    {feedback : List UInt8} {msg : FeedbackMsg}
    (hon : cc.onFeedback fl input feedback msg = some cc') : P cc' := by
  unfold SenderController.onFeedback at hon
  split at hon
  · obtain rfl := Option.some.inj hon
    exact h
  · obtain ⟨⟨strm, msg'⟩, _, hon⟩ := Option.bind_eq_some_iff.mp hon
    exact hkept.onMessage (hkept.strm cc strm h) hon

/-! ## The parts of a feedback -/

/-- The calls that the remb part stands for. -/
def rembCalls (msg : FeedbackMsg) : List ControllerCall :=
  if msg.hasFlag rembMsg then [.onRemb msg.remb.toNat] else []

/-- The calls that the loss part stands for. -/
def lossCalls (rtt nowTs : Int) (msg : FeedbackMsg) : List ControllerCall :=
  if msg.hasFlag lossInfoMsg then
    [.onReport (toUnsigned 32 rtt) nowTs msg.fractionLoss.toNat msg.packetNum.toInt]
  else []

/-- The calls that the proxy's part stands for, once some sample has been found. -/
def proxyCalls (input : FeedbackInput) : List ControllerCall :=
  if input.bweResult.updated = 0 then
    [.onBasedelayResult input.bweResult.updated input.bweResult.probe input.bweResult.bitrate
      input.bweResult.recoveredFromOveruse]
  else []

@[simp] theorem calls_onRembPart (input : FeedbackInput) (msg : FeedbackMsg) :
    (cc.onRembPart fl input msg).calls = cc.calls ++ rembCalls msg := by
  unfold onRembPart rembCalls
  split <;> simp

@[simp] theorem rtt_onRembPart (input : FeedbackInput) (msg : FeedbackMsg) :
    (cc.onRembPart fl input msg).rtt = cc.rtt := by
  unfold onRembPart
  split <;> simp

@[simp] theorem calls_onLossPart (input : FeedbackInput) (msg : FeedbackMsg) :
    (cc.onLossPart fl input msg).calls = cc.calls ++ lossCalls cc.rtt input.nowTs msg := by
  unfold onLossPart lossCalls
  split <;> simp

@[simp] theorem calls_onProxyPart (input : FeedbackInput) :
    (cc.onProxyPart fl input).calls = cc.calls ++ proxyCalls input := by
  unfold onProxyPart proxyCalls
  by_cases hupdated : input.bweResult.updated = 0
  · simp only [if_pos hupdated, calls_call]
  · simp only [if_neg hupdated, List.append_nil]

@[simp] theorem rtt_onProxyPart (input : FeedbackInput) :
    (cc.onProxyPart fl input).rtt = cc.rtt := by
  unfold onProxyPart
  by_cases hupdated : input.bweResult.updated = 0
  · simp only [if_pos hupdated, rtt_call]
  · simp only [if_neg hupdated]

/-- **The calls of a feedback** are those of its parts, unless none of the samples
is found. -/
theorem calls_onMessage {input : FeedbackInput} {msg : FeedbackMsg}
    (h : cc.onMessage fl input msg = some cc') :
    (msg.hasFlag proxyTsMsg = true ∧
      ∃ adapter, cc.adapter.onFeedback input.adapterTs msg = some adapter ∧
        (adapter.num = 0 ∧ cc'.calls = cc.calls ∨
          adapter.num ≠ 0 ∧ cc'.calls = cc.calls ++ (proxyCalls input ++ rembCalls msg ++
            lossCalls cc.rtt input.nowTs msg))) ∨
    msg.hasFlag proxyTsMsg = false ∧
      cc'.calls = cc.calls ++ (rembCalls msg ++ lossCalls cc.rtt input.nowTs msg) := by
  unfold onMessage at h
  by_cases hset : msg.hasFlag proxyTsMsg = true
  · rw [if_pos hset] at h
    obtain ⟨adapter, hon, h⟩ := Option.bind_eq_some_iff.mp h
    refine .inl ⟨hset, adapter, hon, ?_⟩
    by_cases hnum : adapter.num ≤ 0
    · rw [if_pos hnum] at h
      obtain rfl := Option.some.inj h
      exact .inl ⟨Nat.le_zero.mp hnum, rfl⟩
    · rw [if_neg hnum] at h
      obtain rfl := Option.some.inj h
      refine .inr ⟨fun h0 => hnum (Nat.le_of_eq h0), ?_⟩
      simp only [calls_onLossPart, calls_onRembPart, calls_onProxyPart, rtt_onRembPart,
        rtt_onProxyPart, List.append_assoc]
  · rw [if_neg hset] at h
    obtain rfl := Option.some.inj h
    refine .inr ⟨Bool.eq_false_iff.mpr hset, ?_⟩
    simp only [calls_onLossPart, calls_onRembPart, rtt_onRembPart, List.append_assoc]

/-- The remb part and the loss part are applied whenever their flags are set. -/
def PartsApplied (cc : SenderController) (input : FeedbackInput) (msg : FeedbackMsg)
    (cc' : SenderController) : Prop :=
  ∃ calls, cc'.calls = cc.calls ++ calls ∧
    (calls.filter fun c => c matches .onRemb _) = rembCalls msg ∧
    (calls.filter fun c => c matches .onReport ..) = lossCalls cc.rtt input.nowTs msg

/-- Whether the history knows some sample of the proxy's part. -/
def SampleFound (cc : SenderController) (msg : FeedbackMsg) : Prop :=
  0 < cc.adapter.hist.hits (msg.seqsFrom 0 msg.samplesNum.toNat)

theorem filter_rembCalls (msg : FeedbackMsg) :
    ((rembCalls msg).filter fun c => c matches .onRemb _) = rembCalls msg ∧
      ((rembCalls msg).filter fun c => c matches .onReport ..) = [] := by
  unfold rembCalls
  split <;> exact ⟨rfl, rfl⟩

theorem filter_lossCalls (rtt nowTs : Int) (msg : FeedbackMsg) :
    ((lossCalls rtt nowTs msg).filter fun c => c matches .onRemb _) = [] ∧
      ((lossCalls rtt nowTs msg).filter fun c => c matches .onReport ..)
        = lossCalls rtt nowTs msg := by
  unfold lossCalls
  split <;> exact ⟨rfl, rfl⟩

theorem filter_proxyCalls (input : FeedbackInput) :
    ((proxyCalls input).filter fun c => c matches .onRemb _) = [] ∧
      ((proxyCalls input).filter fun c => c matches .onReport ..) = [] := by
  unfold proxyCalls
  split <;> exact ⟨rfl, rfl⟩

/-- What is looked at does not depend on the other parts. -/
theorem partsApplied_of_calls {input : FeedbackInput} {msg : FeedbackMsg}
    {calls : List ControllerCall}
    (hremb : (calls.filter fun c => c matches .onRemb _) = [])
    (hreport : (calls.filter fun c => c matches .onReport ..) = [])
    (h : cc'.calls = cc.calls ++ (calls ++ rembCalls msg ++
      lossCalls cc.rtt input.nowTs msg)) : cc.PartsApplied input msg cc' := by
  obtain ⟨hr₁, hr₂⟩ := filter_rembCalls msg
  obtain ⟨hl₁, hl₂⟩ := filter_lossCalls cc.rtt input.nowTs msg
  refine ⟨_, h, ?_, ?_⟩
  · rw [List.filter_append, List.filter_append, hremb, hr₁, hl₁, List.nil_append,
      List.append_nil]
  · rw [List.filter_append, List.filter_append, hreport, hr₂, hl₂, List.nil_append,
      List.nil_append]

/-- Nothing is applied if nothing is called. -/
theorem partsApplied_of_silent {input : FeedbackInput} {msg : FeedbackMsg}
    (h : cc'.calls = cc.calls) :
    cc.PartsApplied input msg cc' ↔
      msg.hasFlag rembMsg = false ∧ msg.hasFlag lossInfoMsg = false := by
  constructor
  · rintro ⟨calls, happend, hremb, hreport⟩
    obtain rfl : calls = [] := List.append_right_eq_self.mp (happend.symm.trans h)
    constructor
    · by_contra hflag
      rw [rembCalls, if_pos (Bool.eq_true_of_not_eq_false hflag)] at hremb
      cases hremb
    · by_contra hflag
      rw [lossCalls, if_pos (Bool.eq_true_of_not_eq_false hflag)] at hreport
      cases hreport
  · rintro ⟨hremb, hloss⟩
    refine ⟨[], h.trans (List.append_nil _).symm, ?_, ?_⟩
    · rw [rembCalls, hremb]
      rfl
    · rw [lossCalls, hloss]
      rfl

/-- **The parts of a feedback are independent** exactly if the first part is not
there, or some sample of it is found, or the other two are not there. -/
theorem partsApplied_iff {input : FeedbackInput} {feedback : List UInt8}
    {msg₀ msg : FeedbackMsg} {strm : BinStream} (hlen : feedback.length ≤ kMaxFeedbackSize)
    (hread : cc.readFeedback feedback msg₀ = some (strm, msg))
    (hon : cc.onFeedback fl input feedback msg₀ = some cc') :
    cc.PartsApplied input msg cc' ↔
      msg.hasFlag proxyTsMsg = false ∨ cc.SampleFound msg ∨
        msg.hasFlag rembMsg = false ∧ msg.hasFlag lossInfoMsg = false := by
  have hmessage : SenderController.onMessage fl { cc with strm } input msg = some cc' := by
    rw [onFeedback, if_neg (Nat.not_lt.mpr hlen), hread] at hon
    exact hon
  rcases calls_onMessage hmessage with ⟨hset, adapter, hadapter, hcases⟩ | ⟨hset, hcalls⟩
  · have hnum := FeedbackAdapter.num_of_onFeedback hadapter
    rcases hcases with ⟨hzero, hcalls⟩ | ⟨hpos, hcalls⟩
    · -- the early return
      have hnone : ¬ cc.SampleFound msg := by
        rw [SampleFound]
        show ¬ 0 < (SenderController.toSenderCc { cc with strm }).adapter.hist.hits _
        rw [← hnum, hzero]
        exact Nat.lt_irrefl 0
      have hsilent : cc'.calls = cc.calls := hcalls
      rw [partsApplied_of_silent hsilent, hset]
      simp only [Bool.true_eq_false, false_or, hnone]
    · have hfound : cc.SampleFound msg := by
        rw [SampleFound]
        show 0 < (SenderController.toSenderCc { cc with strm }).adapter.hist.hits _
        rw [← hnum]
        exact Nat.pos_of_ne_zero hpos
      obtain ⟨hp₁, hp₂⟩ := filter_proxyCalls input
      exact iff_of_true (partsApplied_of_calls hp₁ hp₂ hcalls) (.inr (.inl hfound))
  · exact iff_of_true (@partsApplied_of_calls cc cc' input msg [] rfl rfl hcalls) (.inl hset)

/-- Packet `1` is sent 70 s after packet `0`. -/
def packetExpired : SenderController :=
  ((create (fun _ => 0) true 250 0).onSendPacket 1 1 (0#16).toFin 100).onSendPacket 70001 70001
    (1#16).toFin 100

/-- A feedback about packet `0` with all three parts. -/
def fullFeedback : List UInt8 :=
  [7] ++ [0, 0, 4, 0] ++ [0, 10, 0, 0, 0] ++ .replicate 16 0 ++ [1, 0, 0, 0, 7]

def blankMsg : FeedbackMsg := ⟨0, 0, 0, 0, 0, 0, 0, .replicate _ ⟨0, 0⟩⟩

def blankInput : FeedbackInput := ⟨70002, 70002, 70002, ⟨-1, -1, 0, -1⟩⟩

def sampleFloats : LossFloats := ⟨fun _ => true, fun _ => true, fun _ => true, id, fun b _ => b⟩

/-- The feedback is read and handled, and none of its samples is found. -/
theorem packetExpired_onFeedback : ∃ strm msg cc',
    packetExpired.readFeedback fullFeedback blankMsg = some (strm, msg) ∧
    packetExpired.onFeedback sampleFloats blankInput fullFeedback blankMsg = some cc' ∧
    cc'.calls = packetExpired.calls ∧ msg.hasFlag rembMsg = true := by
  have hview : (packetExpired.readFeedback fullFeedback blankMsg).map (fun r =>
      (r.2.hasFlag proxyTsMsg, r.2.hasFlag rembMsg, r.2.samplesNum,
        packetExpired.adapter.hist.hits (r.2.seqsFrom 0 r.2.samplesNum.toNat)))
      = some (true, true, 1, 0) := by decide
  obtain ⟨⟨strm, msg⟩, hread, hview⟩ := Option.map_eq_some_iff.mp hview
  simp only [Prod.mk.injEq] at hview
  obtain ⟨hset, hremb, hnum, hhits⟩ := hview
  obtain ⟨adapter, hadapter, _⟩ := @FeedbackAdapter.onFeedback_eq packetExpired.adapter msg
    (by decide) (by rw [hhits]; decide) (by rw [hnum]; decide) blankInput.adapterTs
  have hzero := (FeedbackAdapter.num_of_onFeedback hadapter).trans hhits
  refine ⟨strm, msg, { packetExpired with strm, adapter }, hread, ?_, rfl, hremb⟩
  rw [onFeedback, if_neg (by decide), hread]
  show SenderController.onMessage _ { packetExpired with strm } _ msg = _
  rw [onMessage, if_pos hset]
  show (packetExpired.adapter.onFeedback _ msg).bind _ = _
  rw [hadapter, Option.bind_some]
  exact if_pos (Nat.le_of_eq hzero)

theorem partsApplied_iff_expired : ∃ strm msg cc',
    packetExpired.readFeedback fullFeedback blankMsg = some (strm, msg) ∧
    packetExpired.onFeedback sampleFloats blankInput fullFeedback blankMsg = some cc' ∧
    (packetExpired.PartsApplied blankInput msg cc' ↔
      msg.hasFlag proxyTsMsg = false ∨ packetExpired.SampleFound msg ∨
        msg.hasFlag rembMsg = false ∧ msg.hasFlag lossInfoMsg = false) := by
  obtain ⟨strm, msg, cc', hread, hon, _⟩ := packetExpired_onFeedback
  exact ⟨strm, msg, cc', hread, hon, partsApplied_iff (by decide) hread hon⟩

/-- The feedback about a packet that has left the history: its remb part is not
looked at, though the flag is set. -/
theorem remb_suppressed : ∃ strm msg cc',
    packetExpired.readFeedback fullFeedback blankMsg = some (strm, msg) ∧
    packetExpired.onFeedback sampleFloats blankInput fullFeedback blankMsg = some cc' ∧
    ¬ packetExpired.PartsApplied blankInput msg cc' := by
  obtain ⟨strm, msg, cc', hread, hon, hcalls, hremb⟩ := packetExpired_onFeedback
  refine ⟨strm, msg, cc', hread, hon, ?_⟩
  rw [partsApplied_of_silent hcalls, hremb]
  exact fun hclear => Bool.noConfusion hclear.1

end SenderController

end Razor
