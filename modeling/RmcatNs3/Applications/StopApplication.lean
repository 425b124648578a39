import RmcatNs3.Scream.ScreamSender
import RmcatNs3.Webrtc.SenderTimers
import RmcatNs3.Webrtc.WebrtcReceiver

/-!
# Stopped applications

Each application reschedules one of its methods without storing the event, so its
`StopApplication` does not find it. Only a stop that comes before that method has run first
is final.
-/

namespace Applications

open Runs Scream Webrtc

/-- **A stopped application stays silent**, whatever arrives and whichever timers expire
later, if and only if at its stop
- the first tick of a `ScreamSender` is still to come,
- the first ping of a `WebrtcSender` is still to come,
- no connect has reached a `WebrtcReceiver`. -/
theorem stopped_silent_iff (peerIp : BitVec 32) (peerPort : BitVec 16) (generatorFs : Nat)
    (uid cid : BitVec 32) :
    (∀ es (s s' : ScreamSender),
      Run ScreamSender.Step (.new peerIp peerPort) es s → s.Step .stop s' →
      (Always ScreamSender.Step ScreamSender.TimerSilent s' ↔
        s.queue.isExpired s.tickEvent = false)) ∧
    (∀ es (s s' : WebrtcSender),
      Run WebrtcSender.Step (.new peerIp peerPort generatorFs) es s → s.Step .stop s' →
      (Always WebrtcSender.Step WebrtcSender.TimerSilent s' ↔
        s.queue.isExpired s.pingTimer = false)) ∧
    (∀ es (s s' : WebrtcReceiver),
      Run WebrtcReceiver.Step (.new uid cid) es s → s.Step .stop s' →
      (Always WebrtcReceiver.Step WebrtcReceiver.TimerSilent s' ↔ s.pathState = .idle)) := by
  refine ⟨?_, ?_, ?_⟩
  · intro es s s' hrun hstop
    exact ScreamSender.stop_silent_iff hrun hstop
  · intro es s s' hrun hstop
    exact WebrtcSender.stop_silent_iff hrun hstop
  · intro es s s' hrun hstop
    exact WebrtcReceiver.stop_silent_iff hrun hstop

/-- One tick has run, with nothing to send. -/
def stoppedScreamSender : List ScreamSender.Input :=
  [.start, .timer ⟨.refused, .refused, 0, 0, 0⟩, .stop]

/-- The first attempt to connect is not answered. -/
def stoppedWebrtcSender : List WebrtcSender.Input := [.start, .stop]

/-- A sender has connected, and its first segment has arrived. -/
def stoppedWebrtcReceiver : List WebrtcReceiver.Input :=
  [.start, .packet 1 1 (.connect 12345),
    .packet 1 1 (.seg ⟨0, 1, 0, 0, 1, 0, 0, 0, 1, 1000⟩), .stop]

/-- After the stop, the next timer of each application sends a packet. -/
theorem sends_after_stop :
    (∃ s e s', Run ScreamSender.Step (.new 1 1) stoppedScreamSender s ∧ s.stopped = true ∧
      s.Step e s' ∧ e.isTimer = true ∧ s'.sent.length = s.sent.length + 1) ∧
    (∃ s e s', Run WebrtcSender.Step (.new 1 1 40) stoppedWebrtcSender s ∧ s.stopped = true ∧
      s.Step e s' ∧ e.isTimer = true ∧ s'.sent.length = s.sent.length + 1) ∧
    (∃ s e s', Run WebrtcReceiver.Step (.new 1 1) stoppedWebrtcReceiver s ∧ s.stopped = true ∧
      s.Step e s' ∧ e.isTimer = true ∧ s'.sent.length = s.sent.length + 1) := by
  refine ⟨?_, ?_, ?_⟩
  · obtain ⟨s, s', hrun, hstep, hview⟩ := @Run.of_foldlM_step _ _ (.new 1 1) _
      ScreamSender.step? (fun s s' => (s.stopped, s.sent.length, s'.sent.length))
      stoppedScreamSender (.timer ⟨.refused, .now, 1000, 1, 5⟩) (true, 0, 1) (by decide +kernel)
    simp only [Prod.mk.injEq] at hview
    exact ⟨s, _, s', hrun, hview.1, hstep, rfl, by omega⟩
  · obtain ⟨s, s', hrun, hstep, hview⟩ := @Run.of_foldlM_step _ _ (.new 1 1 40) _
      WebrtcSender.step? (fun s s' => (s.stopped, s.sent.length, s'.sent.length))
      stoppedWebrtcSender (.timer 0 []) (true, 1, 2) (by decide +kernel)
    simp only [Prod.mk.injEq] at hview
    exact ⟨s, _, s', hrun, hview.1, hstep, rfl, by omega⟩
  · obtain ⟨s, s', hrun, hstep, hview⟩ := @Run.of_foldlM_step _ _ (.new 1 1) _
      WebrtcReceiver.step? (fun s s' => (s.stopped, s.sent.length, s'.sent.length))
      stoppedWebrtcReceiver (.timer []) (true, 1, 2) (by decide +kernel)
    simp only [Prod.mk.injEq] at hview
    exact ⟨s, _, s', hrun, hview.1, hstep, rfl, by omega⟩

end Applications
