import RmcatNs3.Razor.SessionRules
import RmcatNs3.Razor.SessionTimers

/-!
# Commands that are not repeated

`sim_session_heartbeat` repeats a connect or a disconnect that has not been answered for a
second. A session with a sender or a receiver pings more often than that, and every ping sets
the time of the last command: the command is not sent again, also if it was lost.
-/

namespace Razor

namespace SimTransport

open Runs PacedRuns SimProto StructMemory

/-- A message that is not a command that waits for its answer. -/
def NoCommand : SimBody → Prop
  | .connect _ | .disconnect _ => False
  | .connectAck _ | .ping _ | .seg _ | .segAck _ | .feedback _ => True

namespace SimSession

variable {fl : Floats} {env : Env} {s s' : SimSession} {P : SimBody → Prop}

/-- Datagrams of which something is known have gone out. -/
def Adds (P : SimBody → Prop) (s s' : SimSession) : Prop :=
  ∃ news, s'.sent = s.sent ++ news ∧ ∀ datagram ∈ news, Spoken P datagram

theorem Adds.refl (s : SimSession) : Adds P s s :=
  ⟨[], (List.append_nil _).symm, fun _ hmem => absurd hmem List.not_mem_nil⟩

theorem Adds.of_sent_eq (h : s'.sent = s.sent) : Adds P s s' := by
  refine ⟨[], ?_, fun _ hmem => absurd hmem List.not_mem_nil⟩
  rw [h, List.append_nil]

theorem Adds.trans {s₁ s₂ s₃ : SimSession} (h : Adds P s₁ s₂) (h' : Adds P s₂ s₃) :
    Adds P s₁ s₃ := by
  obtain ⟨news, hsent, hnews⟩ := h
  obtain ⟨news', hsent', hnews'⟩ := h'
  refine ⟨news ++ news', by rw [hsent', hsent, List.append_assoc], fun datagram hmem => ?_⟩
  exact (List.mem_append.mp hmem).elim (hnews datagram) (hnews' datagram)

theorem Talks.adds (h : Talks P s s') : Adds P s s' := by
  obtain ⟨sstrm, news, rfl, -, hnews⟩ := h
  refine ⟨_, rfl, fun datagram hmem => ?_⟩
  obtain ⟨m, hm, rfl⟩ := List.mem_map.mp hmem
  exact ⟨m, rfl, hnews m hm⟩

/-- Congestion control sends segments only. -/
theorem adds_calls (h : Upholds .none s) {calls : List CcCall}
    (hcalls : calls.foldlM (ccCall env.now) s = some s') : Adds NoCommand s s' := by
  cases hsnd : s.sender with
  | none =>
      rw [calls_of_none hsnd hcalls]
      exact .refl s
  | some snd =>
      have hsegs : ∀ seg, True → NoCommand (.seg seg) := fun _ _ => trivial
      obtain ⟨snd', -, htalks⟩ := talks_of_calls h.size hsnd (fun _ _ _ _ => trivial)
        (h.sender snd hsnd).1 hsegs hcalls
      have hadds := Talks.adds htalks
      refine Adds.trans ?_ hadds
      exact .of_sent_eq rfl

theorem adds_receiverTimer (h : Upholds .none s) (htimer : s.receiverTimer env = some s') :
    Adds NoCommand s s' := by
  cases hreceiver : s.receiver with
  | none =>
      rw [SimSession.receiverTimer, hreceiver] at htimer
      obtain rfl := Option.some.inj htimer
      exact .refl s
  | some r =>
      obtain ⟨r', ack, -, htalks⟩ := talks_of_receiverTimer h.size hreceiver htimer
      have hadds := Talks.adds (htalks NoCommand (fun _ _ => trivial) fun _ _ => trivial)
      refine Adds.trans ?_ hadds
      exact .of_sent_eq rfl

/-- **An answer** is not a command. -/
theorem adds_handle (h : Upholds .none s) {id : MsgId} {uid : BitVec 32} {body : SimBody}
    (hfits : body.Fits id) (hcall : s.handle fl env uid id body = some s') :
    Adds NoCommand s s' := by
  cases id <;> cases body <;> first | exact absurd hfits not_false | skip
  case connect.connect body =>
    obtain ⟨s₁, hsend, hcall⟩ := Option.bind_eq_some_iff.mp hcall
    obtain rfl := Option.some.inj hcall
    have hack : SimBody.Fits (.connectAck ⟨body.cid, 0⟩) .connectAck := trivial
    have hlisten : (s.listen env uid).sent = s.sent ∧
        (s.listen env uid).sstrm = s.sstrm := by
      rw [SimSession.listen]
      cases s.receiver <;> exact ⟨rfl, rfl⟩
    have htalks : Talks NoCommand (s.listen env uid) s₁ := by
      refine talks_of_sendMsg ?_ hack trivial trivial hsend
      rw [hlisten.2]
      exact h.size
    exact (Adds.of_sent_eq hlisten.1).trans htalks.adds
  case connectAck.connectAck ack =>
    obtain rfl := Option.some.inj hcall
    refine .of_sent_eq ?_
    rw [SimSession.answered]
    split
    · rfl
    · split <;> rfl
  case disconnect.disconnect body =>
    obtain ⟨s₁, hsend, hcall⟩ := Option.bind_eq_some_iff.mp hcall
    obtain rfl := Option.some.inj hcall
    have hack : SimBody.Fits (.connectAck ⟨body.cid, 0⟩) .disconnectAck := trivial
    have htalks : Talks NoCommand s s₁ := talks_of_sendMsg h.size hack trivial trivial hsend
    refine htalks.adds.trans (.of_sent_eq ?_)
    rw [SimSession.deafen]
    split <;> rfl
  case disconnectAck.connectAck body =>
    obtain rfl := Option.some.inj hcall
    refine .of_sent_eq ?_
    rw [processSimDisconnectAck]
    split <;> rfl
  case ping.ping body =>
    have hpong : SimBody.Fits (.ping body) .pong := trivial
    exact Talks.adds (talks_of_sendMsg h.size hpong trivial trivial hcall)
  case pong.ping body =>
    obtain rfl := Option.some.inj hcall
    exact .of_sent_eq rfl
  case seg.seg seg =>
    rw [SimSession.handle, onSeg] at hcall
    split at hcall
    · obtain rfl := Option.some.inj hcall
      exact .refl s
    · obtain ⟨⟨r', ack⟩, hput, hack⟩ := Option.bind_eq_some_iff.mp hcall
      have hacks : ∀ a ∈ ack, r'.Acks a := by
        rintro a rfl
        exact Receiver.acks_of_put (ok_of_toOption hput)
      have htalks : Talks NoCommand { s with receiver := some r' } s' :=
        talks_of_sendAck h.size hacks (fun _ _ => trivial) hack
      refine Adds.trans ?_ htalks.adds
      exact .of_sent_eq rfl
  case segAck.segAck body =>
    rw [SimSession.handle, onSegAck] at hcall
    split at hcall
    · obtain rfl := Option.some.inj hcall
      exact .refl s
    · obtain ⟨snd', -, hcall⟩ := Option.bind_eq_some_iff.mp hcall
      obtain rfl := Option.some.inj hcall
      exact .of_sent_eq rfl
  case feedback.feedback body =>
    rw [SimSession.handle, onFeedback] at hcall
    split at hcall
    · obtain rfl := Option.some.inj hcall
      exact .refl s
    · rename_i snd hsender
      obtain ⟨snd', hsnd', hcalls⟩ := Option.bind_eq_some_iff.mp hcall
      obtain ⟨window, hupdate, rfl⟩ := Option.map_eq_some_iff.mp hsnd'
      have hsnd := h.sender snd hsender
      have hwith : Upholds .none { s with sender := some { snd with toSender := window } } :=
        h.withSender ⟨hsnd.1.updateBase hupdate, trivial⟩
      have hadds := adds_calls hwith hcalls
      refine Adds.trans ?_ hadds
      exact .of_sent_eq rfl

theorem adds_receive (h : Upholds .none s) {datagram : List UInt8}
    (hcall : s.receive fl env datagram = some s') : Adds NoCommand s s' := by
  have hheard : s.heard.sent = s.sent := by
    rw [SimSession.heard]
    split <;> rfl
  rcases receive_cases hcall with rfl | rfl | ⟨id, uid, body, hfits, -, hhandle⟩
  · exact .refl _
  · exact .of_sent_eq hheard
  · exact (Adds.of_sent_eq hheard).trans (adds_handle h.heard hfits hhandle)

/-! ## The heartbeat -/

/-- The timer of a command says nothing if it is too early, and otherwise what the command
says. -/
theorem adds_stateTimer {fn : SimSession → Option SimSession} {type : BitVec 32 → Notice}
    {tickDelay : Int} (h : Upholds .none s)
    (hfn : s.commadTs + tickDelay < env.now → ∀ s s', Upholds .none s → fn s = some s' →
      Adds P s s')
    (hcall : s.stateTimer env fn type tickDelay = some s') : Adds P s s' := by
  obtain ⟨s₁, hstat, hcall⟩ := Option.bind_eq_some_iff.mp hcall
  have hs₁ : Upholds .none s₁ ∧ s₁.sent = s.sent ∧ s₁.commadTs = s.commadTs := by
    rw [statistics] at hstat
    split at hstat
    · split at hstat
      · cases hstat
      · obtain rfl := Option.some.inj hstat
        exact ⟨h.congr rfl rfl rfl rfl rfl rfl, rfl, rfl⟩
    · obtain rfl := Option.some.inj hstat
      exact ⟨h, rfl, rfl⟩
  obtain ⟨hs₁, hsent, hcommad⟩ := hs₁
  refine (Adds.of_sent_eq hsent).trans ?_
  split at hcall
  · rename_i hlate
    split at hcall
    · rw [hcommad] at hlate
      exact hfn hlate s₁ s' hs₁ hcall
    · obtain rfl := Option.some.inj hcall
      refine .of_sent_eq ?_
      rw [SimSession.giveUp]
      cases s₁.receiver <;> rfl
  · obtain rfl := Option.some.inj hcall
    exact .refl _

theorem adds_sendPing (h : Upholds .none s) (hcall : s.sendPing env = some s') :
    Adds NoCommand s s' := by
  obtain ⟨s₁, hsend, hcall⟩ := Option.bind_eq_some_iff.mp hcall
  obtain rfl := Option.some.inj hcall
  have hfits : SimBody.Fits (.ping ⟨BitVec.ofInt 64 env.now⟩) .ping := trivial
  have htalks : Talks NoCommand s s₁ := talks_of_sendMsg h.size hfits trivial trivial hsend
  refine htalks.adds.trans (.of_sent_eq ?_)
  dsimp only
  split <;> rfl

/-- **A heartbeat** that is too early for a command sends none. -/
theorem adds_heartbeat (h : Upholds .none s)
    (hearly : s.control.Asks → ¬s.commadTs + tickDelayMs < env.now)
    (hcall : s.heartbeat env = some s') : Adds NoCommand s s' := by
  obtain ⟨s₁, htimer, hcall⟩ := Option.bind_eq_some_iff.mp hcall
  obtain ⟨s₂, hstate, hping⟩ := Option.bind_eq_some_iff.mp hcall
  have hs₁ := h.receiverTimer Rule.closed_none htimer
  have hcontrol := control_receiverTimer htimer
  have hcommad : s₁.commadTs = s.commadTs := congrArg Control.commadTs hcontrol
  have hsame : s₁.state = s.state := congrArg Control.state hcontrol
  have hs₂ : Upholds .none s₂ ∧ Adds NoCommand s₁ s₂ := by
    rw [stateBeat] at hstate
    split at hstate
    · obtain rfl := Option.some.inj hstate
      exact ⟨hs₁, .refl _⟩
    · rename_i hconnecting
      refine ⟨hs₁.stateTimer (fun _ _ => Upholds.sendConnect) (Rule.keeps_none _ _) hstate,
        adds_stateTimer hs₁ (fun hlate => ?_) hstate⟩
      rw [hcommad] at hlate
      exact absurd hlate (hearly (.inl (hsame.symm.trans hconnecting)))
    · split at hstate
      · obtain rfl := Option.some.inj hstate
        exact ⟨hs₁, .refl _⟩
      · exact ⟨hs₁.calls Rule.closed_none hstate, adds_calls hs₁ hstate⟩
    · rename_i hdisconnected
      refine ⟨hs₁.stateTimer (fun _ _ => Upholds.sendDisconnect) (Rule.keeps_none _ _) hstate,
        adds_stateTimer hs₁ (fun hlate => ?_) hstate⟩
      rw [hcommad] at hlate
      exact absurd hlate (hearly (.inr (hsame.symm.trans hdisconnected)))
  have hlast : Adds NoCommand s₂ s' := by
    rw [pingBeat] at hping
    split at hping
    · exact adds_stateTimer hs₂.1 (fun _ _ _ => adds_sendPing) hping
    · obtain rfl := Option.some.inj hping
      exact .refl _
  exact (adds_receiverTimer h htimer).trans (hs₂.2.trans hlast)

/-! ## Runs -/

/-- Something that comes in, or a call that is not about the connection. -/
def Input.Passive : Input → Prop
  | .connect _ | .disconnect => False
  | .sendVideo _ _ _ | .recvVideo _ | .receive _ | .heartbeat => True

variable {p p' : Paced SimSession} {es es' : List (Env × Input)}

theorem adds_step {e : Env × Input} (h : Upholds .none p.state)
    (htimely : Control.Timely (p.map control)) (hstep : PacedStep clocked (Step fl) soon p e p')
    (hpassive : e.2.Passive) (hpaired : p.state.sender.isSome ∨ p.state.receiver.isSome) :
    Adds NoCommand p.state p'.state := by
  obtain ⟨env, e⟩ := e
  have hcall : p.state.call fl env e = some p'.state := hstep.step
  cases e with
  | connect localUid => exact absurd hpassive not_false
  | disconnect => exact absurd hpassive not_false
  | sendVideo payloadType ftype data =>
      obtain ⟨⟨ret, s'⟩, hsend, hs'⟩ := Option.map_eq_some_iff.mp hcall
      obtain rfl : s' = p'.state := hs'
      refine .of_sent_eq ?_
      rcases sendVideo_cases hsend with ⟨hsame, -⟩ | ⟨snd, window, -, -, hsame, -⟩ <;> rw [hsame]
  | recvVideo bufferSize =>
      obtain ⟨⟨ret, s'⟩, hrecv, hs'⟩ := Option.map_eq_some_iff.mp hcall
      obtain rfl : s' = p'.state := hs'
      refine .of_sent_eq ?_
      rcases recvVideo_cases hrecv with ⟨hsame, -⟩ | ⟨r, r', out, -, -, hsame⟩ <;> rw [hsame]
  | receive datagram => exact adds_receive h hcall
  | heartbeat =>
      refine adds_heartbeat h (fun hasks => ?_) hcall
      exact htimely.early (paired_iff.mpr hpaired) (hstep.soon rfl) hasks

/-- **A command is not repeated**: in every run whose heartbeats come soon enough, as long as
there is a sender or a receiver and the application does not connect or disconnect, whatever
comes in, no connect and no disconnect goes out. -/
theorem unrepeated_of_run {rand : BitVec 32} {now : Int} {block : Mem}
    (h : Run (PacedStep clocked (Step fl) soon) (start rand now block) es p)
    (h' : Run (fun p e p' => PacedStep clocked (Step fl) soon p e p' ∧ e.2.Passive ∧
      (p.state.sender.isSome ∨ p.state.receiver.isSome)) p es' p') :
    ∃ news, p'.state.sent = p.state.sent ++ news ∧
      ∀ datagram ∈ news, Spoken NoCommand datagram := by
  have hup : Upholds .none p.state := (run_state h).stateInvariant (upholds_create rand now block)
    fun _ _ _ => Upholds.step
  have hend : Upholds .none p'.state ∧ Control.Timely (p'.map control) ∧
      Adds NoCommand p.state p'.state := by
    refine h'.stateInvariant (I := fun q => Upholds .none q.state ∧
      Control.Timely (q.map control) ∧ Adds NoCommand p.state q.state)
      ⟨hup, timely_of_run h, .refl _⟩ ?_
    rintro q e q' ⟨hq, htimely, hadds⟩ ⟨hstep, hpassive, hpaired⟩
    exact ⟨hq.step hstep.step, htimely.step (paced_control hstep),
      hadds.trans (adds_step hq htimely hstep hpassive hpaired)⟩
  exact hend.2.2

/-- The calls of a session with a sender or a receiver. -/
def pairedCall (p : Paced SimSession) (e : Env × Input) : Option (Paced SimSession) :=
  if p.state.sender.isSome ∨ p.state.receiver.isSome then pacedCall soon p e else none

theorem pairedStep_of_pairedCall {e : Env × Input} (h : pairedCall p e = some p') :
    PacedStep clocked (Step plainFloats) soon p e p' ∧
      (p.state.sender.isSome ∨ p.state.receiver.isSome) := by
  rw [pairedCall] at h
  split at h
  · rename_i hpaired
    exact ⟨pacedStep_of_paced? h, hpaired⟩
  · cases h

/-- The peer connects, and the answer to the own connect is lost. -/
def unanswered : List (Env × Input) := heardOnce ++ [(quietEnv 20, .connect 5)]

/-- Three seconds of heartbeats. -/
def waiting : List (Env × Input) :=
  (List.range 12).map fun k => (quietEnv (20 + 251 * (k + 1)), .heartbeat)

/-- Three seconds after the connect the session still waits, and has sent no command. -/
theorem unrepeated_waiting : ∃ p p' news,
    Run (PacedStep clocked (Step plainFloats) soon) (start 1 0 fun _ => 0) unanswered p ∧
      Run (fun p e p' => PacedStep clocked (Step plainFloats) soon p e p' ∧ e.2.Passive ∧
        (p.state.sender.isSome ∨ p.state.receiver.isSome)) p waiting p' ∧
      p'.state.state = .connecting ∧ news.length = 24 ∧ p'.state.sent = p.state.sent ++ news ∧
      ∀ datagram ∈ news, Spoken NoCommand datagram := by
  have hlast : (unanswered.foldlM (pacedCall soon) (start 1 0 fun _ => 0)).bind
      (fun p => (waiting.foldlM pairedCall p).map fun p' =>
        (p'.state.state, p.state.sent.length, p'.state.sent.length)) =
      some (.connecting, 2, 26) := by
    decide +kernel
  obtain ⟨p, hp, hlast⟩ := Option.bind_eq_some_iff.mp hlast
  obtain ⟨p', hp', hview⟩ := Option.map_eq_some_iff.mp hlast
  simp only [Prod.mk.injEq] at hview
  obtain ⟨hstate, hbefore, hafter⟩ := hview
  have hpassive : ∀ e ∈ waiting, e.2.Passive := by
    intro e he
    obtain ⟨k, -, rfl⟩ := List.mem_map.mp he
    trivial
  have hrun : Run (PacedStep clocked (Step plainFloats) soon) (start 1 0 fun _ => 0)
      unanswered p := (Run.of_foldlM hp).mono fun _ _ _ => pacedStep_of_paced?
  have hrun' : Run (fun p e p' => PacedStep clocked (Step plainFloats) soon p e p' ∧
      e.2.Passive ∧ (p.state.sender.isSome ∨ p.state.receiver.isSome)) p waiting p' :=
    (((Run.of_foldlM hp').mono fun _ _ _ => pairedStep_of_pairedCall).and_events hpassive).mono
      fun _ _ _ h => ⟨h.1.1, h.2, h.1.2⟩
  obtain ⟨news, hsent, hnews⟩ := unrepeated_of_run hrun hrun'
  have hcount : news.length = 24 := by
    rw [hsent, List.length_append, hbefore] at hafter
    omega
  exact ⟨p, p', news, hrun, hrun', hstate, hcount, hsent, hnews⟩

end SimSession

end SimTransport

end Razor
