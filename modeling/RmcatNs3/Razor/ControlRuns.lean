import Mathlib.Tactic.Linarith
import RmcatNs3.Lib.PacedRuns
import RmcatNs3.Razor.SessionControl

/-!
# Runs of the control of a session

The notices of what is played, and the one time that all timers share. A receiver that goes
with a reset is not always reported; the pings of a session with a sender or a receiver keep
its commands from being repeated, and they find out when the peer is gone.
-/

namespace Razor

namespace SimTransport

open Runs PacedRuns SimProto StructMemory

/-! ## What is reported as playing -/

def Notice.isStartPlay : Notice → Bool
  | .startPlay _ => true
  | _ => false

def Notice.isStopPlay : Notice → Bool
  | .stopPlay _ => true
  | _ => false

/-- What a notice adds to the number of videos that play. -/
def Notice.weight (notice : Notice) : Int :=
  (if notice.isStartPlay then 1 else 0) - (if notice.isStopPlay then 1 else 0)

/-- A session in this state is reset by the message: a connect is refused, or a disconnect is
answered. -/
def Message.resets (state : SessionState) : Message → Bool
  | .connectAck result => decide (state = .connecting) && decide (result ≠ 0)
  | .disconnectAck => decide (state = .disconnected)
  | .ignored | .connect _ | .disconnect | .other => false

namespace Control

/-- The starts that have been reported without a stop. -/
def reported (c : Control) : Int :=
  c.notices.countP Notice.isStartPlay - c.notices.countP Notice.isStopPlay

/-- The receiver counts as one video that plays. -/
def playing (c : Control) : Int := if c.receiver.isSome then 1 else 0

/-- The receiver goes with a reset that does not report it. -/
def drops (c : Control) : Call → Bool
  | .receive message => message.resets c.state && c.receiver.isSome
  | _ => false

variable {now tickDelay : Int} {c : Control} {fn : Control → Control}
  {type : BitVec 32 → Notice}

theorem reported_notify (c : Control) (notice : Notice) :
    (c.notify notice).reported = c.reported + notice.weight := by
  simp only [reported, notify, Notice.weight, List.countP_append, List.countP_singleton]
  split <;> split <;> push_cast <;> ring

@[simp] theorem playing_notify (c : Control) (notice : Notice) :
    (c.notify notice).playing = c.playing := rfl

@[simp] theorem playing_reset (c : Control) : (c.reset now).playing = 0 := rfl

@[simp] theorem reported_reset (c : Control) : (c.reset now).reported = c.reported := rfl

/-- The balance of the reports. -/
def balance (c : Control) : Int := c.reported - c.playing

theorem balance_notify {notice : Notice} (hweight : notice.weight = 0) (c : Control) :
    (c.notify notice).balance = c.balance := by
  rw [balance, reported_notify, hweight, Int.add_zero]
  rfl

theorem balance_heard (c : Control) : c.heard.balance = c.balance := by
  rw [heard]
  split
  · exact balance_notify rfl { c with interrupt := .recover }
  · rfl

theorem balance_listen (uid : BitVec 32) (c : Control) :
    (c.listen now uid).balance = c.balance := by
  rw [listen]
  cases hreceiver : c.receiver with
  | none =>
      have h := reported_notify c (.startPlay uid)
      have hplaying : c.playing = 0 := by rw [playing, hreceiver]; rfl
      show (c.notify (.startPlay uid)).reported - 1 = c.reported - c.playing
      rw [h, hplaying]
      show c.reported + (1 - 0) - 1 = c.reported - 0
      ring
  | some old =>
      have hplaying : c.playing = 1 := by rw [playing, hreceiver]; rfl
      show c.reported - 1 = c.reported - c.playing
      rw [hplaying]

theorem balance_deafen (c : Control) : c.deafen.balance = c.balance := by
  rw [deafen]
  cases hreceiver : c.receiver with
  | none => rfl
  | some uid =>
      have h := reported_notify c (.stopPlay uid)
      have hplaying : c.playing = 1 := by rw [playing, hreceiver]; rfl
      show (c.notify (.stopPlay uid)).reported - 0 = c.reported - c.playing
      rw [h, hplaying]
      show c.reported + (0 - 1) - 0 = c.reported - 1
      ring

/-- Giving up is the end of what is played, and a reset. -/
theorem giveUp_eq (now : Int) (type : BitVec 32 → Notice) (c : Control) :
    c.giveUp now type = (c.deafen.reset now).notify (type 1) := by
  rw [giveUp, deafen]
  cases c.receiver <;> rfl

theorem balance_giveUp (htype : (type 1).weight = 0) (c : Control) :
    (c.giveUp now type).balance = c.balance := by
  have hdeaf : c.deafen.playing = 0 := by
    rw [deafen]
    cases hreceiver : c.receiver with
    | none => rw [playing, hreceiver]; rfl
    | some uid => rfl
  have hbalance := balance_deafen c
  rw [balance, hdeaf, Int.sub_zero] at hbalance
  rw [giveUp_eq, balance, reported_notify, htype, playing_notify, playing_reset, reported_reset,
    hbalance]
  ring

/-- The ways that the timer of a command may go. -/
theorem stateTimer_cases (now : Int) (fn : Control → Control) (type : BitVec 32 → Notice)
    (tickDelay : Int) (c : Control) :
    now ≤ c.commadTs + tickDelay ∧ c.stateTimer now fn type tickDelay = c ∨
      c.commadTs + tickDelay < now ∧
        (c.resend * tickDelay < 10000 ∧ c.stateTimer now fn type tickDelay = fn c ∨
          10000 ≤ c.resend * tickDelay ∧
            c.stateTimer now fn type tickDelay = c.giveUp now type) := by
  rw [stateTimer]
  split
  · rename_i hlate
    split
    · exact .inr ⟨hlate, .inl ⟨‹_›, rfl⟩⟩
    · exact .inr ⟨hlate, .inr ⟨Int.not_lt.mp ‹_›, rfl⟩⟩
  · exact .inl ⟨Int.not_lt.mp ‹_›, rfl⟩

theorem balance_stateTimer (hfn : (fn c).balance = c.balance) (htype : (type 1).weight = 0) :
    (c.stateTimer now fn type tickDelay).balance = c.balance := by
  rcases stateTimer_cases now fn type tickDelay c with
    ⟨-, heq⟩ | ⟨-, ⟨-, heq⟩ | ⟨-, heq⟩⟩
  · rw [heq]
  · rw [heq, hfn]
  · rw [heq, balance_giveUp htype]

theorem balance_ping (c : Control) : (c.ping now).balance = c.balance := by
  rw [ping]
  split
  · exact balance_notify rfl { c.command now with interrupt := .interrupt }
  · rfl

theorem balance_heartbeat (c : Control) : (c.heartbeat now).balance = c.balance := by
  have hstate : (c.stateBeat now).balance = c.balance := by
    rw [stateBeat]
    split
    · rfl
    · exact balance_stateTimer rfl rfl
    · rfl
    · exact balance_stateTimer rfl rfl
  rw [heartbeat, pingBeat]
  split
  · rw [balance_stateTimer (balance_ping _) rfl, hstate]
  · exact hstate

/-- An answer that resets the session takes a receiver without a report. -/
theorem balance_reset (c : Control) (notice : Notice) (hweight : notice.weight = 0) :
    ((c.reset now).notify notice).balance = c.balance + if c.receiver.isSome then 1 else 0 := by
  rw [balance, reported_notify, hweight, playing_notify, playing_reset, reported_reset, balance,
    playing]
  ring

theorem balance_answered (result : BitVec 32) (c : Control) :
    (c.answered now result).balance =
      c.balance + if c.drops (.receive (.connectAck result)) then 1 else 0 := by
  rw [answered, drops, Message.resets]
  by_cases hstate : c.state = .connecting
  · by_cases hresult : result = 0#32
    · subst hresult
      have h : (notify { c with state := .connected, sender := true, interrupt := .recover }
          (.connect 0)).balance = c.balance := balance_notify rfl _
      simpa [hstate] using h
    · have h := @balance_reset now c (.connect result) rfl
      simpa [hstate, hresult] using h
  · simp [hstate]

theorem balance_released (c : Control) :
    (c.released now).balance =
      c.balance + if c.drops (.receive .disconnectAck) then 1 else 0 := by
  rw [released, drops, Message.resets]
  by_cases hstate : c.state = .disconnected
  · have h := @balance_reset now c (.disconnect 0) rfl
    simpa [hstate] using h
  · simp [hstate]

theorem heard_eq (c : Control) : c.heard.state = c.state ∧ c.heard.sender = c.sender ∧
    c.heard.receiver = c.receiver ∧ c.heard.commadTs = c.commadTs ∧ c.heard.resend = 0 := by
  rw [heard]
  split <;> exact ⟨rfl, rfl, rfl, rfl, rfl⟩

theorem drops_heard (c : Control) (call : Call) : c.heard.drops call = c.drops call := by
  obtain ⟨hstate, -, hreceiver, -⟩ := heard_eq c
  cases call with
  | receive message => rw [drops, drops, hstate, hreceiver]
  | _ => rfl

/-- **One step** moves the balance exactly if the receiver goes unreported. -/
theorem balance_step (c : Control) (call : Call) :
    (c.step now call).balance = c.balance + if c.drops call then 1 else 0 := by
  cases call with
  | connect =>
      rw [step, connect]
      split <;> exact (Int.add_zero _).symm
  | disconnect =>
      rw [step, disconnect]
      split <;> exact (Int.add_zero _).symm
  | video => exact (Int.add_zero _).symm
  | heartbeat => exact (balance_heartbeat c).trans (Int.add_zero _).symm
  | receive message =>
      rw [step, receive]
      cases message with
      | ignored => exact (Int.add_zero _).symm
      | other => exact (balance_heard c).trans (Int.add_zero _).symm
      | connect uid =>
          rw [if_neg Message.noConfusion, process, balance_listen, balance_heard]
          exact (Int.add_zero _).symm
      | disconnect =>
          rw [if_neg Message.noConfusion, process, balance_deafen, balance_heard]
          exact (Int.add_zero _).symm
      | connectAck result =>
          rw [if_neg Message.noConfusion, process, balance_answered, balance_heard, drops_heard]
      | disconnectAck =>
          rw [if_neg Message.noConfusion, process, balance_released, balance_heard, drops_heard]

end Control

namespace SimSession

variable {fl : Floats} {s s' : SimSession} {es : List (Env × Input)}

/-- The input makes the receiver go with a reset, and nothing reports that its video has
stopped: a connect is refused, or a disconnect is answered. -/
def Unreported (s : SimSession) (e : Env × Input) (_ : SimSession) : Prop :=
  s.control.drops (e.2.control e.1) = true

/-- **The reports of what is played**: the application has been told of one more start than of
stops if there is a receiver, and of as many if there is none, exactly if no receiver has gone
unreported so far. -/
theorem played_reported_iff_of_run {rand : BitVec 32} {now : Int} {block : Mem}
    (h : Run (Step fl) (create rand now block) es s) :
    s.notices.countP Notice.isStartPlay =
        s.notices.countP Notice.isStopPlay + (if s.receiver.isSome then 1 else 0) ↔
      ¬Happened (Step fl) Unreported (create rand now block) es s := by
  have hiff := @Run.good_iff _ _ (Step fl) (create rand now block) Unreported
    (fun s => 0 ≤ s.control.balance) (fun s => 0 < s.control.balance) (Int.le_refl 0)
    (fun s e s' hs hstep => by
      rw [control_of_step hstep, Control.balance_step]
      split <;> omega)
    (fun s e s' hs hstep hdrops => by
      rw [Unreported] at hdrops
      rw [control_of_step hstep, Control.balance_step, if_pos hdrops]
      omega)
    (fun s e s' hs hstep hkeeps => by
      rw [Unreported] at hkeeps
      rw [control_of_step hstep, Control.balance_step, if_neg hkeeps, Int.add_zero])
    es s h
  have hnonneg : 0 ≤ s.control.balance := by
    refine h.stateInvariant (I := fun s => 0 ≤ s.control.balance) (Int.le_refl 0) ?_
    intro s e s' hs hstep
    rw [control_of_step hstep, Control.balance_step]
    split <;> omega
  have hstart : ¬0 < (create rand now block).control.balance := by
    rw [control_create]
    exact Int.lt_irrefl 0
  rw [or_iff_right hstart] at hiff
  rw [← hiff]
  have hbalance : s.control.balance = (s.notices.countP Notice.isStartPlay : Int) -
      s.notices.countP Notice.isStopPlay - if s.receiver.isSome then 1 else 0 := by
    simp only [Control.balance, Control.reported, Control.playing, control, Option.isSome_map]
  rw [hbalance] at hnonneg ⊢
  by_cases hreceiver : s.receiver.isSome
  · simp only [if_pos hreceiver] at hnonneg ⊢
    omega
  · simp only [if_neg hreceiver] at hnonneg ⊢
    omega

/-- A call at a time, with nothing in the memory that is not initialised and a congestion
control that does nothing. -/
def quietEnv (now : Int) : Env where
  now := now
  rand := 7
  block := fun _ => 0
  header := ⟨0, 0, 0⟩
  connect := ⟨0, 0, Vector.replicate _ 0⟩
  connectAck := ⟨0, 0⟩
  disconnect := ⟨0⟩
  ping := ⟨0⟩
  seg := ⟨0, 0, 0, 0, 0, 0, 0, 0, 0, 0, 0, Vector.replicate _ 0⟩
  segAck := ⟨0, 0, 0, Vector.replicate _ 0⟩
  feedback := ⟨0, 0, Vector.replicate _ 0⟩
  addPacket := fun _ => true
  calls := []
  reports := []

/-- Floating-point arithmetic that measures nothing and plays at the speed one. -/
def plainFloats : Floats := ⟨fun _ _ => 0, fun _ elapsed => elapsed.setWidth 32⟩

/-- A datagram from the peer. -/
def datagram (id : MsgId) (body : SimBody) : List UInt8 := wireMsg ⟨protocolVer, id.mid, 9⟩ body

/-- The peer connects, and refuses to be connected to. -/
def refusedConnect : List (Env × Input) :=
  [(quietEnv 10, .receive (datagram .connect (.connect ⟨1, 0, Vector.replicate _ 0⟩))),
    (quietEnv 20, .connect 5), (quietEnv 30, .receive (datagram .connectAck (.connectAck ⟨1, 1⟩)))]

/-- The video of the peer never stops. -/
theorem not_reported_refusedConnect :
    ∃ s, Run (Step plainFloats) (create 1 1 fun _ => 0) refusedConnect s ∧
      s.notices = [.startPlay 9, .connect 1] ∧ s.receiver.isNone ∧
      Happened (Step plainFloats) Unreported (create 1 1 fun _ => 0) refusedConnect s := by
  have hlast : (refusedConnect.foldlM (fun (s : SimSession) e => s.call plainFloats e.1 e.2)
      (create 1 1 fun _ => 0)).map (fun s => (s.notices, s.receiver.isNone)) =
        some ([.startPlay 9, .connect 1], true) := by
    decide +kernel
  obtain ⟨s, hs, hview⟩ := Option.map_eq_some_iff.mp hlast
  obtain ⟨hnotices, hnone⟩ := Prod.mk.inj hview
  have hrun : Run (Step plainFloats) (create 1 1 fun _ => 0) refusedConnect s := .of_foldlM hs
  have hiff := played_reported_iff_of_run hrun
  have hreceiver : s.receiver = none := Option.isNone_iff_eq_none.mp hnone
  refine ⟨s, hrun, hnotices, hnone, ?_⟩
  by_contra hnot
  have hcount := hiff.mpr hnot
  rw [hnotices, hreceiver] at hcount
  exact absurd hcount (by decide)

end SimSession

end SimTransport

end Razor
