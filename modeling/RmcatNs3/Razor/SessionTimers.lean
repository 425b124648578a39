import RmcatNs3.Razor.ControlRuns

/-!
# The timers of a session

A command is repeated after a second, and a session with a sender or a receiver pings every
quarter of one. Both go by the time of the last command, whichever it was. With a heartbeat
that comes soon enough no command is repeated next to the pings, and it is the pings that find
out when the peer is gone.
-/

namespace Razor

namespace SimTransport

open Runs PacedRuns SimProto StructMemory

/-- The longest time between two heartbeats with which the pings come before every other
command. -/
def soon : Int := tickDelayMs - tickDelayMs / 4

namespace Control

/-- The calls of a control at their times. -/
def clocked : Clocked (Int × Call) := ⟨(·.1), fun e => decide (e.2 = .heartbeat)⟩

def Step (c : Control) (e : Int × Call) (c' : Control) : Prop := c' = c.step e.1 e.2

/-- A command has been sent that the peer has to answer. -/
def Asks (c : Control) : Prop := c.state = .connecting ∨ c.state = .disconnected

/-- With a sender or a receiver, the last command is at most the time of a ping before the last
heartbeat, if one has to be answered. -/
structure Timely (p : Paced Control) : Prop where
  beat_le : p.beat ≤ p.now
  commadTs_le : p.state.commadTs ≤ p.now
  recent : p.state.Paired → p.state.Asks → p.beat ≤ p.state.commadTs + tickDelayMs / 4
  resend_le : p.state.resend ≤ 40

variable {now gap : Int} {c : Control} {p p' : Paced Control} {e : Int × Call}

/-- With a sender or a receiver, a heartbeat that comes soon is too early for a command. -/
theorem Timely.early (hp : Timely p) (hpaired : p.state.Paired) (hsoon : now ≤ p.beat + soon)
    (hasks : p.state.Asks) : ¬p.state.commadTs + tickDelayMs < now := by
  have hrecent := hp.recent hpaired hasks
  have hquarter : soon + tickDelayMs / 4 = tickDelayMs := by decide
  omega

theorem Timely.stateBeat_eq (hp : Timely p) (hpaired : p.state.Paired)
    (hsoon : now ≤ p.beat + soon) : p.state.stateBeat now = p.state := by
  rw [stateBeat]
  split
  · rfl
  · rename_i hstate
    rw [stateTimer, if_neg (hp.early hpaired hsoon (.inl hstate))]
  · rfl
  · rename_i hstate
    rw [stateTimer, if_neg (hp.early hpaired hsoon (.inr hstate))]

theorem not_paired_giveUp {type : BitVec 32 → Notice} : ¬(c.giveUp now type).Paired := by
  rw [giveUp_eq]
  rintro (h | h) <;> cases h

theorem ping_eq (now : Int) (c : Control) :
    (c.ping now).state = c.state ∧ (c.ping now).sender = c.sender ∧
    (c.ping now).receiver = c.receiver ∧ (c.ping now).commadTs = now ∧
    (c.ping now).resend = c.resend + 1 := by
  rw [ping]
  split <;> exact ⟨rfl, rfl, rfl, rfl, rfl⟩

/-- What a heartbeat that comes soon does with a sender or a receiver: it pings if it is time to,
and gives up after forty pings without an answer. -/
theorem Timely.heartbeat_cases (hp : Timely p) (hpaired : p.state.Paired)
    (hsoon : now ≤ p.beat + soon) :
    now ≤ p.state.commadTs + tickDelayMs / 4 ∧ p.state.heartbeat now = p.state ∨
      p.state.resend < 40 ∧ p.state.heartbeat now = p.state.ping now ∨
      p.state.heartbeat now = p.state.giveUp now .networkTimeout := by
  rw [heartbeat, hp.stateBeat_eq hpaired hsoon, pingBeat, if_pos hpaired]
  rcases stateTimer_cases now (ping now) .networkTimeout (tickDelayMs / 4) p.state with
    ⟨hearly, heq⟩ | ⟨-, ⟨hfew, heq⟩ | ⟨-, heq⟩⟩
  · exact .inl ⟨hearly, heq⟩
  · refine .inr (.inl ⟨?_, heq⟩)
    have hquarter : tickDelayMs / 4 = 250 := by decide
    rw [hquarter] at hfew
    omega
  · exact .inr (.inr heq)

/-- What a call other than a heartbeat may do to the time of the last command: it is the time
of the call, or nothing waits for an answer that did not before. -/
structure Settles (now : Int) (c c' : Control) : Prop where
  commadTs : c'.commadTs = now ∨
    c'.commadTs = c.commadTs ∧ (c'.Paired → c'.Asks → c.Paired ∧ c.Asks)
  resend : c'.resend ≤ 1 ∨ c'.resend = c.resend

theorem Settles.refl (c : Control) : Settles now c c where
  commadTs := .inr ⟨rfl, fun hpaired hasks => ⟨hpaired, hasks⟩⟩
  resend := .inr rfl

theorem Settles.of_commadTs {c' : Control} (hcommad : c'.commadTs = now) (hresend : c'.resend ≤ 1) :
    Settles now c c' := ⟨.inl hcommad, .inl hresend⟩

theorem settles_heard (c : Control) : Settles now c c.heard := by
  obtain ⟨hstate, hsender, hreceiver, hcommad, hresend⟩ := heard_eq c
  refine ⟨.inr ⟨hcommad, fun hpaired hasks => ?_⟩, .inl (by rw [hresend]; exact Nat.zero_le 1)⟩
  rw [Paired, hsender, hreceiver] at hpaired
  rw [Asks, hstate] at hasks
  exact ⟨hpaired, hasks⟩

theorem Settles.trans {c₁ c₂ c₃ : Control} (h : Settles now c₁ c₂) (h' : Settles now c₂ c₃) :
    Settles now c₁ c₃ := by
  refine ⟨?_, ?_⟩
  · rcases h'.commadTs with hnow | ⟨hsame, hkeep⟩
    · exact .inl hnow
    · rw [hsame]
      rcases h.commadTs with hnow | ⟨hsame', hkeep'⟩
      · exact .inl hnow
      · refine .inr ⟨hsame', fun hpaired hasks => ?_⟩
        obtain ⟨hpaired, hasks⟩ := hkeep hpaired hasks
        exact hkeep' hpaired hasks
  · rcases h'.resend with hfew | hsame
    · exact .inl hfew
    · rw [hsame]
      exact h.resend

theorem settles_answered (result : BitVec 32) (c : Control) :
    Settles now c (c.answered now result) := by
  rw [answered]
  split
  · exact .refl c
  · split
    · exact .of_commadTs rfl (Nat.zero_le 1)
    · refine ⟨.inr ⟨rfl, fun _ hasks => ?_⟩, .inr rfl⟩
      rcases hasks with hasks | hasks <;> cases hasks

theorem settles_deafen (c : Control) : Settles now c c.deafen := by
  rw [deafen]
  split
  · exact .refl c
  · refine ⟨.inr ⟨rfl, fun hpaired hasks => ⟨.inl ?_, hasks⟩⟩, .inr rfl⟩
    exact hpaired.resolve_right Bool.false_ne_true

theorem settles_process (c : Control) (message : Message) :
    Settles now c (c.process now message) := by
  cases message with
  | ignored => exact .refl c
  | other => exact .refl c
  | connect uid => exact .of_commadTs rfl (Nat.zero_le 1)
  | connectAck result => exact settles_answered result c
  | disconnect => exact settles_deafen c
  | disconnectAck =>
      rw [process, released]
      split
      · exact .of_commadTs rfl (Nat.zero_le 1)
      · exact .refl c

theorem settles_step (now : Int) (c : Control) {call : Call} (hcall : call ≠ .heartbeat) :
    Settles now c (c.step now call) := by
  cases call with
  | connect =>
      rw [step, connect]
      split
      · exact .refl c
      · exact .of_commadTs rfl (Nat.le_refl 1)
  | disconnect =>
      rw [step, disconnect]
      split
      · exact .refl c
      · exact .of_commadTs rfl (Nat.le_refl 1)
  | video => exact .refl c
  | receive message =>
      rw [step, receive]
      split
      · exact .refl c
      · exact (settles_heard c).trans (settles_process _ message)
  | heartbeat => exact absurd rfl hcall

/-- A heartbeat with neither a sender nor a receiver. -/
theorem heartbeat_of_not_paired (now : Int) (hnot : ¬c.Paired) :
    ¬(c.heartbeat now).Paired ∧
      ((c.heartbeat now).commadTs = c.commadTs ∨ (c.heartbeat now).commadTs = now) ∧
        ((c.heartbeat now).resend ≤ 40 ∨ (c.heartbeat now).resend = c.resend) := by
  have htimer : ∀ type, ¬(c.stateTimer now (command now) type tickDelayMs).Paired ∧
      ((c.stateTimer now (command now) type tickDelayMs).commadTs = c.commadTs ∨
        (c.stateTimer now (command now) type tickDelayMs).commadTs = now) ∧
        ((c.stateTimer now (command now) type tickDelayMs).resend ≤ 40 ∨
          (c.stateTimer now (command now) type tickDelayMs).resend = c.resend) := by
    intro type
    rcases stateTimer_cases now (command now) type tickDelayMs c with
      ⟨-, heq⟩ | ⟨-, ⟨hfew, heq⟩ | ⟨-, heq⟩⟩
    · rw [heq]
      exact ⟨hnot, .inl rfl, .inr rfl⟩
    · rw [heq]
      refine ⟨hnot, .inr rfl, .inl ?_⟩
      have htick : tickDelayMs = 1000 := rfl
      rw [htick] at hfew
      show c.resend + 1 ≤ 40
      omega
    · rw [heq]
      refine ⟨not_paired_giveUp, .inr ?_, .inl ?_⟩
      · rw [giveUp_eq]
        rfl
      · rw [giveUp_eq]
        exact Nat.zero_le 40
  have hstate : ¬(c.stateBeat now).Paired ∧
      ((c.stateBeat now).commadTs = c.commadTs ∨ (c.stateBeat now).commadTs = now) ∧
        ((c.stateBeat now).resend ≤ 40 ∨ (c.stateBeat now).resend = c.resend) := by
    rw [stateBeat]
    split
    · exact ⟨hnot, .inl rfl, .inr rfl⟩
    · exact htimer _
    · exact ⟨hnot, .inl rfl, .inr rfl⟩
    · exact htimer _
  rw [heartbeat, pingBeat, if_neg hstate.1]
  exact hstate

theorem giveUp_commadTs (now : Int) (type : BitVec 32 → Notice) (c : Control) :
    (c.giveUp now type).commadTs = now ∧ (c.giveUp now type).resend = 0 ∧
      (c.giveUp now type).state = .idle := by
  rw [giveUp_eq]
  exact ⟨rfl, rfl, rfl⟩

theorem Timely.heartbeat (hp : Timely p) (h : PacedStep clocked Step soon p e p')
    (hcall : e.2 = .heartbeat) : Timely p' := by
  have hstep : p'.state = p.state.heartbeat e.1 := by
    rw [h.step, hcall]
    rfl
  have hlater : p.now ≤ e.1 := h.later
  have hnow : p'.now = e.1 := h.now
  have hbeat : p'.beat = e.1 := h.beat (decide_eq_true hcall)
  have hcommad := hp.commadTs_le
  have hresend := hp.resend_le
  have hquarter : tickDelayMs / 4 = 250 := by decide
  have hsoon : e.1 ≤ p.beat + soon := h.soon (decide_eq_true hcall)
  by_cases hpaired : p.state.Paired
  · rcases hp.heartbeat_cases hpaired hsoon with
      ⟨hearly, heq⟩ | ⟨hfew, heq⟩ | heq
    · rw [heq] at hstep
      refine ⟨h.beat_le hp.beat_le, ?_, fun _ _ => ?_, ?_⟩
      · rw [hstep, hnow]
        omega
      · rw [hstep, hbeat]
        exact hearly
      · rw [hstep]
        exact hresend
    · obtain ⟨-, -, -, hping, hcount⟩ := ping_eq e.1 p.state
      rw [heq] at hstep
      refine ⟨h.beat_le hp.beat_le, ?_, fun _ _ => ?_, ?_⟩
      · rw [hstep, hping, hnow]
      · rw [hstep, hping, hbeat]
        omega
      · rw [hstep, hcount]
        exact hfew
    · obtain ⟨hgive, hzero, -⟩ := giveUp_commadTs e.1 .networkTimeout p.state
      rw [heq] at hstep
      refine ⟨h.beat_le hp.beat_le, ?_, fun hstill => ?_, ?_⟩
      · rw [hstep, hgive, hnow]
      · rw [hstep] at hstill
        exact absurd hstill not_paired_giveUp
      · rw [hstep, hzero]
        exact Nat.zero_le 40
  · obtain ⟨hnot, hcommads, hresends⟩ := heartbeat_of_not_paired e.1 hpaired
    rw [← hstep] at hnot hcommads hresends
    refine ⟨h.beat_le hp.beat_le, ?_, fun hstill => absurd hstill hnot, ?_⟩
    · rw [hnow]
      omega
    · omega

/-- **One step** keeps the last command recent. -/
theorem Timely.step (hp : Timely p) (h : PacedStep clocked Step soon p e p') : Timely p' := by
  by_cases hcall : e.2 = .heartbeat
  · exact hp.heartbeat h hcall
  · have hsettles := settles_step e.1 p.state hcall
    rw [← show p'.state = p.state.step e.1 e.2 from h.step] at hsettles
    have hlater : p.now ≤ e.1 := h.later
    have hnow : p'.now = e.1 := h.now
    have hbeat : p'.beat = p.beat := h.idle (decide_eq_false hcall)
    have hcommad := hp.commadTs_le
    have hresend := hp.resend_le
    have hbeatle := hp.beat_le
    have hquarter : tickDelayMs / 4 = 250 := by decide
    refine ⟨h.beat_le hbeatle, ?_, fun hpaired hasks => ?_, ?_⟩
    · rcases hsettles.commadTs with hnew | ⟨hsame, -⟩ <;> omega
    · rcases hsettles.commadTs with hnew | ⟨hsame, hkeep⟩
      · omega
      · obtain ⟨hpaired, hasks⟩ := hkeep hpaired hasks
        have hrecent := hp.recent hpaired hasks
        omega
    · rcases hsettles.resend with hfew | hsame <;> omega

/-! ## A peer that is gone -/

/-- A call that hears nothing and asks for nothing. -/
def Call.Quiet (call : Call) : Prop := call = .heartbeat ∨ call = .video

/-- After a time `start` with `k` pings behind it, a control that hears nothing: it has sent more
pings, one in every `gap` and a quarter of a second, or it has given up. -/
inductive Waits (start gap : Int) (k : Nat) (notices : List Notice) (p : Paced Control) : Prop
  | pings (hpaired : p.state.Paired) (hle : k ≤ p.state.resend)
      (hcommad : p.state.commadTs ≤ start + (p.state.resend - k) * (gap + tickDelayMs / 4))
      (hbeat : p.beat ≤ start + (p.state.resend - k) * (gap + tickDelayMs / 4) + tickDelayMs / 4)
      (hnotices : notices <+: p.state.notices)
  | gone (hnot : ¬p.state.Paired) (hidle : p.state.state = .idle)
      (hnotices : ∃ news, p.state.notices = notices ++ news ∧ .networkTimeout 1 ∈ news)

variable {start : Int} {k : Nat} {notices : List Notice}

theorem ping_notices (now : Int) (c : Control) : c.notices <+: (c.ping now).notices := by
  rw [ping]
  split
  · exact List.prefix_append _ _
  · exact List.prefix_refl _

theorem giveUp_notices (now : Int) (c : Control) :
    ∃ news, (c.giveUp now .networkTimeout).notices = c.notices ++ news ∧
      .networkTimeout 1 ∈ news := by
  rw [giveUp]
  cases c.receiver with
  | none => exact ⟨_, rfl, List.mem_singleton_self _⟩
  | some uid => exact ⟨_, List.append_assoc .., List.mem_append_right _ (List.mem_singleton_self _)⟩

theorem Waits.step (hw : Waits start gap k notices p) (hp : Timely p) (hgap : gap ≤ soon)
    (h : PacedStep clocked Step gap p e p') (hquiet : e.2.Quiet) :
    Waits start gap k notices p' := by
  have hquarter : tickDelayMs / 4 = 250 := by decide
  rcases hquiet with hcall | hcall
  · have hstep : p'.state = p.state.heartbeat e.1 := by
      rw [h.step, hcall]
      rfl
    have hbeat : p'.beat = e.1 := h.beat (decide_eq_true hcall)
    have hsoon : e.1 ≤ p.beat + gap := h.soon (decide_eq_true hcall)
    cases hw with
    | pings hpaired hle hcommad hlast hnotices =>
        rcases hp.heartbeat_cases hpaired (show e.1 ≤ p.beat + soon by omega) with
          ⟨hearly, heq⟩ | ⟨hfew, heq⟩ | heq
        · rw [heq] at hstep
          refine .pings ?_ ?_ ?_ ?_ ?_
          · rwa [hstep]
          · rwa [hstep]
          · rwa [hstep]
          · rw [hstep, hbeat]
            omega
          · rwa [hstep]
        · obtain ⟨hstate, hsender, hreceiver, hping, hcount⟩ := ping_eq e.1 p.state
          rw [heq] at hstep
          have hmore : ((p.state.resend + 1 : Nat) - k : Int) * (gap + tickDelayMs / 4) =
              (p.state.resend - k) * (gap + tickDelayMs / 4) + (gap + tickDelayMs / 4) := by
            push_cast
            ring
          refine .pings ?_ ?_ ?_ ?_ ?_
          · rwa [hstep, Paired, hsender, hreceiver]
          · rw [hstep, hcount]
            omega
          · rw [hstep, hping, hcount, hmore]
            omega
          · rw [hstep, hbeat, hcount, hmore]
            omega
          · rw [hstep]
            exact hnotices.trans (ping_notices e.1 p.state)
        · rw [heq] at hstep
          obtain ⟨news, hnews, hmem⟩ := giveUp_notices e.1 p.state
          obtain ⟨between, hbetween⟩ := hnotices
          refine .gone ?_ ?_ ⟨between ++ news, ?_, List.mem_append_right _ hmem⟩
          · rw [hstep]
            exact not_paired_giveUp
          · rw [hstep]
            exact (giveUp_commadTs e.1 .networkTimeout p.state).2.2
          · rw [hstep, hnews, ← hbetween, List.append_assoc]
    | gone hnot hidle hnotices =>
        have hsame : p'.state = p.state := by
          rw [hstep, Control.heartbeat, stateBeat, hidle, pingBeat, if_neg hnot]
        exact .gone (by rwa [hsame]) (by rwa [hsame]) (by rwa [hsame])
  · have hsame : p'.state = p.state := by
      rw [h.step, hcall]
      rfl
    have hbeat : p'.beat = p.beat :=
      h.idle (decide_eq_false fun hbeats => Call.noConfusion (hcall.symm.trans hbeats))
    cases hw with
    | pings hpaired hle hcommad hlast hnotices =>
        exact .pings (by rwa [hsame]) (by rwa [hsame]) (by rwa [hsame]) (by rwa [hsame, hbeat])
          (by rwa [hsame])
    | gone hnot hidle hnotices =>
        exact .gone (by rwa [hsame]) (by rwa [hsame]) (by rwa [hsame])

end Control

namespace SimSession

variable {fl : Floats} {gap : Int} {p p' : Paced SimSession} {e : Env × Input}
  {es es' : List (Env × Input)}

def Input.isHeartbeat : Input → Bool
  | .heartbeat => true
  | _ => false

/-- Nothing is heard, and the application does not connect or disconnect. -/
def Input.Quiet : Input → Prop
  | .heartbeat | .sendVideo _ _ _ | .recvVideo _ => True
  | _ => False

/-- The calls of a session at their times. -/
def clocked : Clocked (Env × Input) := ⟨fun e => e.1.now, fun e => e.2.isHeartbeat⟩

/-- A session that has just been created. -/
def start (rand : BitVec 32) (now : Int) (block : Mem) : Paced SimSession :=
  ⟨create rand now block, now, now⟩

/-- What an input is for the control, with its time. -/
def controlled (e : Env × Input) : Int × Control.Call := (e.1.now, e.2.control e.1)

/-- **A paced step** of a session is one of its control. -/
theorem paced_control (h : PacedStep clocked (Step fl) gap p e p') :
    PacedStep Control.clocked Control.Step gap (p.map control) (controlled e)
      (p'.map control) := by
  have hbeats : ∀ e, Control.clocked.beats (controlled e) = clocked.beats e := by
    rintro ⟨env, e⟩
    cases e <;> rfl
  exact h.map (fun _ => rfl) hbeats fun s e s' hstep => control_of_step hstep

theorem timely_of_run {rand : BitVec 32} {now : Int} {block : Mem}
    (h : Run (PacedStep clocked (Step fl) soon) (start rand now block) es p) :
    Control.Timely (p.map control) := by
  refine h.stateInvariant (I := fun p => Control.Timely (p.map control)) ?_ ?_
  · refine ⟨Int.le_refl _, Int.le_refl _, fun hpaired => ?_, Nat.zero_le 40⟩
    rcases hpaired with hpaired | hpaired <;> cases hpaired
  · exact fun p e p' hp hstep => hp.step (paced_control hstep)

theorem paired_iff {s : SimSession} :
    s.control.Paired ↔ s.sender.isSome ∨ s.receiver.isSome := by
  rw [Control.Paired, control, Option.isSome_map]

theorem quiet_control {e : Input} (env : Env) (h : e.Quiet) : (e.control env).Quiet := by
  cases e with
  | heartbeat => exact .inl rfl
  | sendVideo => exact .inr rfl
  | recvVideo => exact .inr rfl
  | connect => cases h
  | disconnect => cases h
  | receive => cases h

/-- **A peer that is gone is noticed**: in every run whose heartbeats come soon enough, a session
with a sender or a receiver that hears nothing any more, and is not connected or disconnected
by the application, gives up and reports a timeout, at the latest with the first heartbeat
after a quarter of a second and, for each ping that is left of forty, another one and the
time between two heartbeats. -/
theorem timesOut_of_run {rand : BitVec 32} {now : Int} {block : Mem}
    (h : Run (PacedStep clocked (Step fl) soon) (start rand now block) es p)
    (hpaired : p.state.sender.isSome ∨ p.state.receiver.isSome) (h0 : 0 ≤ gap)
    (hgap : gap ≤ soon)
    (h' : Run (fun p e p' => PacedStep clocked (Step fl) gap p e p' ∧ e.2.Quiet) p es' p') :
    p'.beat ≤ p.now + (40 - p.state.resend) * (gap + tickDelayMs / 4) + tickDelayMs / 4 ∨
      p'.state.state = .idle ∧ p'.state.sender = none ∧ p'.state.receiver = none ∧
        ∃ news, p'.state.notices = p.state.notices ++ news ∧ .networkTimeout 1 ∈ news := by
  have hquarter : tickDelayMs / 4 = 250 := by decide
  have hp := timely_of_run h
  have hstart : Control.Waits p.now gap p.state.resend p.state.notices (p.map control) := by
    refine .pings (paired_iff.mpr hpaired) (Nat.le_refl _) ?_ ?_ (List.prefix_refl _)
    · have hle := hp.commadTs_le
      rwa [show (p.map control).state.resend = p.state.resend from rfl, Int.sub_self,
        Int.zero_mul, Int.add_zero]
    · have hle := hp.beat_le
      rw [show (p.map control).state.resend = p.state.resend from rfl, Int.sub_self,
        Int.zero_mul, Int.add_zero, hquarter]
      exact Int.le_trans hle (Int.le_add_of_nonneg_right (by decide))
  have hend : Control.Timely (p'.map control) ∧
      Control.Waits p.now gap p.state.resend p.state.notices (p'.map control) := by
    refine h'.stateInvariant (I := fun q => Control.Timely (q.map control) ∧
      Control.Waits p.now gap p.state.resend p.state.notices (q.map control)) ⟨hp, hstart⟩ ?_
    rintro q e q' ⟨hq, hw⟩ ⟨hstep, hquiet⟩
    have hpaced := paced_control hstep
    exact ⟨hq.step (hpaced.mono_gap hgap), hw.step hq hgap hpaced (quiet_control e.1 hquiet)⟩
  obtain ⟨htimely, hwaits⟩ := hend
  cases hwaits with
  | pings _ _ _ hbeat _ =>
      have hfew : p'.state.resend ≤ 40 := htimely.resend_le
      have hmul : ((p'.state.resend : Int) - p.state.resend) * (gap + tickDelayMs / 4) ≤
          (40 - p.state.resend) * (gap + tickDelayMs / 4) :=
        Int.mul_le_mul_of_nonneg_right (by omega) (by omega)
      have hlast : p'.beat ≤ p.now +
          ((p'.state.resend : Int) - p.state.resend) * (gap + tickDelayMs / 4) +
            tickDelayMs / 4 := hbeat
      exact .inl (by omega)
  | gone hnot hidle hnotices =>
      have hnone : ¬(p'.state.sender.isSome ∨ p'.state.receiver.isSome) :=
        fun hstill => hnot (paired_iff.mpr hstill)
      rw [not_or, Bool.not_eq_true, Bool.not_eq_true, Option.isSome_eq_false_iff,
        Option.isSome_eq_false_iff, Option.isNone_iff_eq_none, Option.isNone_iff_eq_none] at hnone
      exact .inr ⟨hidle, hnone.1, hnone.2, hnotices⟩

/-- The calls of a session that come in time. -/
def pacedCall (gap : Int) : Paced SimSession → Env × Input → Option (Paced SimSession) :=
  paced? clocked (fun s e => s.call plainFloats e.1 e.2) gap

/-- The peer connects. -/
def heardOnce : List (Env × Input) :=
  [(quietEnv 10, .receive (datagram .connect (.connect ⟨1, 0, Vector.replicate _ 0⟩)))]

/-- Heartbeats with a little more than the time of a ping between them. -/
def silence : List (Env × Input) :=
  (List.range 82).map fun k => (quietEnv (251 * (k + 1)), .heartbeat)

/-- The peer connects and is gone. -/
theorem timesOut_silence : ∃ p p',
    Run (PacedStep clocked (Step plainFloats) soon) (start 1 0 fun _ => 0) heardOnce p ∧
      Run (fun p e p' => PacedStep clocked (Step plainFloats) 251 p e p' ∧ e.2.Quiet) p
        silence p' ∧
      p'.state.state = .idle ∧ p'.state.sender = none ∧ p'.state.receiver = none ∧
        ∃ news, p'.state.notices = p.state.notices ++ news ∧ .networkTimeout 1 ∈ news := by
  have hlast : (heardOnce.foldlM (pacedCall soon) (start 1 0 fun _ => 0)).bind
      (fun p => (silence.foldlM (pacedCall 251) p).map fun p' =>
        (p.state.receiver.isSome, p.now, p.state.resend, p'.beat)) =
      some (true, 10, 0, 20582) := by
    decide +kernel
  obtain ⟨p, hp, hlast⟩ := Option.bind_eq_some_iff.mp hlast
  obtain ⟨p', hp', hview⟩ := Option.map_eq_some_iff.mp hlast
  simp only [Prod.mk.injEq] at hview
  obtain ⟨hreceiver, hnow, hresend, hbeat⟩ := hview
  have hrun : Run (PacedStep clocked (Step plainFloats) soon) (start 1 0 fun _ => 0)
      heardOnce p := (Run.of_foldlM hp).mono fun _ _ _ => pacedStep_of_paced?
  have hquiet : ∀ e ∈ silence, e.2.Quiet := by
    intro e he
    obtain ⟨k, -, rfl⟩ := List.mem_map.mp he
    trivial
  have hrun' : Run (fun p e p' => PacedStep clocked (Step plainFloats) 251 p e p' ∧ e.2.Quiet)
      p silence p' :=
    ((Run.of_foldlM hp').mono fun _ _ _ => pacedStep_of_paced?).and_events hquiet
  have hor := timesOut_of_run hrun (.inr hreceiver) (by decide) (by decide) hrun'
  have hlate : ¬p'.beat ≤ p.now + (40 - p.state.resend) * (251 + tickDelayMs / 4) +
      tickDelayMs / 4 := by
    rw [hbeat, hnow, hresend]
    decide
  exact ⟨p, p', hrun, hrun', hor.resolve_left hlate⟩

end SimSession

end SimTransport

end Razor
