import RmcatNs3.Lib.Runs
import RmcatNs3.Webrtc.WebrtcSession

/-!
# The WebRTC receiver

`webrtc-ns3/model/webrtcreceiver.{h,cc}` and the timer of its `processmodule.cc`. What the
estimator feeds back is an argument of the turn in which it does. A call through `m_pm`
before it is set, or after it is deleted, gives `none`.
-/

namespace Webrtc

open EventQueue Multipath Runs

inductive ReceiverEvent where
  | sendPing
  /-- `ProcessModule::Process` -/
  | process
  deriving DecidableEq, Repr

structure WebrtcReceiver where
  peerIp : BitVec 32
  peerPort : BitVec 16
  uid : BitVec 32
  cid : BitVec 32
  running : Bool
  pathState : PathSession
  rttRecord : RttRecord
  /-- The timer of `m_pm`, while there is one. -/
  pm : Option EventId
  firstPacket : Bool
  pingTimer : EventId
  queue : EventQueue ReceiverEvent
  /-- Whether `StartApplication` and `StopApplication` have run; the source has no such
  fields. -/
  started : Bool
  stopped : Bool
  sent : List SentPacket

namespace WebrtcReceiver

/-- A receiver after `Init` and `Bind`: it has a socket. The first packet sets the peer. -/
def new (uid cid : BitVec 32) : WebrtcReceiver where
  peerIp := 0
  peerPort := 0
  uid := uid
  cid := cid
  running := false
  pathState := .idle
  rttRecord := .new
  pm := none
  firstPacket := true
  pingTimer := none
  queue := .empty
  started := false
  stopped := false
  sent := []

def nowMs (s : WebrtcReceiver) : Nat := getMilliSeconds s.queue.now

def setQueue (s : WebrtcReceiver) (queue : EventQueue ReceiverEvent) : WebrtcReceiver :=
  { s with queue }

/-- `WebrtcReceiver::Send` -/
def send (s : WebrtcReceiver) (message : WebrtcMessage) (payload : Nat) : WebrtcReceiver :=
  { s with sent := s.sent ++ [⟨s.peerIp, s.peerPort, s.uid, message, payload⟩] }

/-- `WebrtcReceiver::SendTransportFeedback` -/
def sendTransportFeedback (s : WebrtcReceiver) (serialized : List (BitVec 8)) :
    WebrtcReceiver :=
  s.send (.feedback serialized) serialized.length

/-! ## Messages -/

def processConnect (s : WebrtcReceiver) (cid : BitVec 32) : WebrtcReceiver :=
  let s :=
    if s.pathState = .idle then
      { s with
        pingTimer := s.queue.nextId
        queue := s.queue.schedule (milliSeconds s.rttRecord.rtt) .sendPing }
    else s
  { s with pathState := .connected }.send (.connectAck cid 0) 0

/-- The first segment makes the controller and `m_pm`. -/
def recvSegment (s : WebrtcReceiver) : WebrtcReceiver :=
  if s.firstPacket then
    { s with
      firstPacket := false
      pm := some s.queue.nextId
      queue := s.queue.schedule 0 .process }
  else s

/-- `WebrtcReceiver::RecvPacket` -/
def recvPacket (s : WebrtcReceiver) (srcIp : BitVec 32) (srcPort : BitVec 16)
    (message : WebrtcMessage) : WebrtcReceiver :=
  if s.running then
    let s := { s with peerIp := srcIp, peerPort := srcPort }
    match message with
    | .connect cid => s.processConnect cid
    | .seg _ => s.recvSegment
    | .ping ts => s.send (.pong ts) 0
    | .pong ts => { s with rttRecord := s.rttRecord.processPong (keepRtt s.nowMs ts) }
    | _ => s
  else s

/-! ## Starting and stopping -/

def startApplication (s : WebrtcReceiver) : WebrtcReceiver :=
  { s with running := true, started := true }

/-- `WebrtcReceiver::StopApplication`. No ping is cancelled. -/
def stopApplication (s : WebrtcReceiver) : Option WebrtcReceiver :=
  s.pm.map fun timer =>
    { s with running := false, stopped := true, pm := none, queue := s.queue.cancel timer }

/-! ## Timers -/

/-- `WebrtcReceiver::SendPing`. The event of the next ping is not stored. -/
def sendPing (s : WebrtcReceiver) : WebrtcReceiver :=
  if s.queue.isExpired s.pingTimer then
    let s := s.send (.ping (BitVec.ofNat 64 s.nowMs)) 0
    s.setQueue (s.queue.schedule (milliSeconds s.rttRecord.rtt) .sendPing)
  else s

/-- `ProcessModule::Process`, with what the estimator feeds back. -/
def process (s : WebrtcReceiver) (feedback : List (List (BitVec 8))) : Option WebrtcReceiver :=
  s.pm.map fun _ =>
    let s := feedback.foldl sendTransportFeedback s
    { s with
      pm := some s.queue.nextId
      queue := s.queue.schedule (milliSeconds nextCheckpoint) .process }

/-! ## Steps -/

inductive Input where
  | start
  | stop
  | packet (srcIp : BitVec 32) (srcPort : BitVec 16) (message : WebrtcMessage)
  | timer (feedback : List (List (BitVec 8)))
  | wait (t : Nat)

def Input.isTimer : Input → Bool
  | .timer _ => true
  | _ => false

/-- An event that the simulator runs. -/
def runEvent (s : WebrtcReceiver) (feedback : List (List (BitVec 8))) :
    ReceiverEvent → Option WebrtcReceiver
  | .sendPing => some s.sendPing
  | .process => s.process feedback

/-- The application starts and stops once. -/
def step? (s : WebrtcReceiver) : Input → Option WebrtcReceiver
  | .start => if s.started then none else some s.startApplication
  | .stop => if s.stopped then none else s.stopApplication
  | .packet srcIp srcPort message => some (s.recvPacket srcIp srcPort message)
  | .timer feedback =>
      s.queue.pop.bind fun (ev, queue) => (s.setQueue queue).runEvent feedback ev.action
  | .wait t => (s.queue.advance? t).map s.setQueue

def Step (s : WebrtcReceiver) (e : Input) (s' : WebrtcReceiver) : Prop := step? s e = some s'

/-- A timer hands no packet to the socket. -/
def TimerSilent (s : WebrtcReceiver) (e : Input) (s' : WebrtcReceiver) : Prop :=
  e.isTimer = true → s'.sent = s.sent

variable {s s' : WebrtcReceiver} {e : Input}

theorem step_start : s.Step .start s' ↔ s.started = false ∧ s.startApplication = s' := by
  simp [Step, step?]

theorem step_stop : s.Step .stop s' ↔
    s.stopped = false ∧ s.stopApplication = some s' := by
  simp [Step, step?]

theorem step_timer {feedback : List (List (BitVec 8))} : s.Step (.timer feedback) s' ↔
    ∃ ev queue, s.queue.pop = some (ev, queue) ∧
      (s.setQueue queue).runEvent feedback ev.action = some s' := by
  simp [Step, step?, Option.bind_eq_some_iff]

theorem step_wait {t : Nat} : s.Step (.wait t) s' ↔
    ∃ queue, s.queue.advance? t = some queue ∧ s.setQueue queue = s' := by
  simp [Step, step?]

theorem stopApplication_eq_some (h : s.stopApplication = some s') :
    ∃ timer, s.pm = some timer ∧ s' = { s with
      running := false
      stopped := true
      pm := none
      queue := s.queue.cancel timer } := by
  obtain ⟨timer, hpm, rfl⟩ := Option.map_eq_some_iff.mp h
  exact ⟨timer, hpm, rfl⟩

/-! ## Events to come -/

/-- Before the stop: pings go on from the first connect on, the modules from the first
segment on. -/
structure Live (s : WebrtcReceiver) : Prop where
  running : s.running = s.started
  pm : ∀ id, s.pm = some id → s.started = true ∧ s.queue.Tracks id .process
  first : s.pm = none ↔ s.firstPacket = true
  none : s.pm = none → ¬ s.queue.IsPending .process
  ping : s.queue.Sole s.pingTimer .sendPing
  pings : s.pathState = .idle ↔ ¬ s.queue.IsPending .sendPing

theorem new_live (uid cid : BitVec 32) : (new uid cid).Live := by
  have hnone : ∀ a, ¬ (EventQueue.empty : EventQueue ReceiverEvent).IsPending a := by
    rintro a ⟨e, he, _⟩
    exact List.not_mem_nil he
  exact ⟨rfl, nofun, iff_of_true rfl rfl, fun _ => hnone _, .none _ _,
    iff_of_true rfl (hnone _)⟩

theorem sendPing_eq (hexpired : s.queue.isExpired s.pingTimer = true) :
    s.sendPing = { s with
      sent := s.sent ++ [⟨s.peerIp, s.peerPort, s.uid, .ping (BitVec.ofNat 64 s.nowMs), 0⟩]
      queue := s.queue.schedule (milliSeconds s.rttRecord.rtt) .sendPing } := by
  unfold sendPing
  rw [if_pos hexpired]
  rfl

/-- The modules change nothing but what was sent. -/
theorem runModules_eq (feedback : List (List (BitVec 8))) :
    ∃ sent, feedback.foldl sendTransportFeedback s = { s with sent } := by
  induction feedback generalizing s with
  | nil => exact ⟨s.sent, rfl⟩
  | cons serialized rest ih => exact @ih (s.sendTransportFeedback serialized)

/-- A segment leaves the pings alone. -/
theorem recvSegment_live (h : s.Live) (hrunning : s.running = true) : s.recvSegment.Live := by
  unfold recvSegment
  split
  · rename_i hfirst
    have hnone := h.none (h.first.mpr hfirst)
    constructor
    · exact h.running
    · rintro id ⟨⟩
      exact ⟨h.running.symm.trans hrunning, Tracks.of_schedule hnone⟩
    · exact iff_of_false nofun Bool.false_ne_true
    · exact nofun
    · exact h.ping.schedule nofun
    · rw [isPending_schedule, or_iff_left nofun]
      exact h.pings
  · exact h

/-- The first connect starts the pings. -/
theorem processConnect_live (h : s.Live) (cid : BitVec 32) : (s.processConnect cid).Live := by
  unfold processConnect send
  by_cases hidle : s.pathState = .idle
  · rw [if_pos hidle]
    constructor
    · exact h.running
    · intro id hpm
      exact ⟨(h.pm id hpm).1, (h.pm id hpm).2.schedule nofun⟩
    · exact h.first
    · intro hpm
      rw [isPending_schedule, or_iff_left nofun]
      exact h.none hpm
    · exact (Tracks.of_schedule (h.pings.mp hidle)).sole
    · rw [isPending_schedule]
      exact iff_of_false nofun (not_not.mpr (.inr rfl))
  · rw [if_neg hidle]
    exact ⟨h.running, h.pm, h.first, h.none, h.ping,
      iff_of_false nofun (not_not.mpr (not_not.mp (mt h.pings.mpr hidle)))⟩

theorem recvPacket_live (h : s.Live) (srcIp : BitVec 32) (srcPort : BitVec 16)
    (message : WebrtcMessage) : (s.recvPacket srcIp srcPort message).Live := by
  have hpeer : Live { s with peerIp := srcIp, peerPort := srcPort } :=
    ⟨h.running, h.pm, h.first, h.none, h.ping, h.pings⟩
  unfold recvPacket
  split
  · rename_i hrunning
    cases message with
    | connect cid => exact processConnect_live hpeer cid
    | seg seg => exact recvSegment_live hpeer hrunning
    | ping ts =>
        exact ⟨h.running, h.pm, h.first, h.none, h.ping, h.pings⟩
    | pong ts =>
        exact ⟨h.running, h.pm, h.first, h.none, h.ping, h.pings⟩
    | connectAck cid result => exact hpeer
    | feedback payload => exact hpeer
    | other mid => exact hpeer
  · exact h

/-- An event runs, and the timers stay in order. -/
theorem runEvent_live {queue : EventQueue ReceiverEvent} {ev : Event ReceiverEvent}
    {feedback : List (List (BitVec 8))} (h : s.Live) (hpop : s.queue.pop = some (ev, queue))
    (hrun : (s.setQueue queue).runEvent feedback ev.action = some s') : s'.Live := by
  obtain ⟨hmem, _, hrest⟩ := pop_eq_some hpop
  have hsub : ∀ e ∈ queue.pending, e ∈ s.queue.pending := fun e he => ((hrest e).mp he).1
  have hping := h.ping.of_subset (Nat.le_of_eq (pop_nextUid hpop).symm) hsub
  cases ha : ev.action with
  | sendPing =>
      have hsole := h.ping
      rw [← ha] at hsole
      have hexpired := hsole.isExpired_of_pop hpop
      rw [ha] at hrun
      obtain rfl := Option.some.inj hrun
      rw [@sendPing_eq (s.setQueue queue) hexpired]
      constructor
      · exact h.running
      · intro id hpm
        exact ⟨(h.pm id hpm).1, ((h.pm id hpm).2.pop hpop).schedule nofun⟩
      · exact h.first
      · intro hpm
        rw [isPending_schedule, or_iff_left nofun]
        rintro ⟨e, he, hprocess⟩
        exact h.none hpm ⟨e, hsub e he, hprocess⟩
      · exact hping.schedule_expired hexpired
      · rw [isPending_schedule]
        exact iff_of_false (fun hidle => h.pings.mp hidle ⟨ev, hmem, ha⟩)
          (not_not.mpr (.inr rfl))
  | process =>
      rw [ha] at hrun
      obtain ⟨id, hpm, rfl⟩ := Option.map_eq_some_iff.mp hrun
      obtain ⟨hstarted, htracks⟩ := h.pm id hpm
      obtain ⟨sent, hmodules⟩ := @runModules_eq (s.setQueue queue) feedback
      simp only [hmodules]
      rw [← ha] at htracks
      have hnone := htracks.not_pending_of_pop hpop
      rw [ha] at hnone
      constructor
      · exact h.running
      · rintro id ⟨⟩
        exact ⟨hstarted, Tracks.of_schedule hnone⟩
      · exact iff_of_false nofun fun hfirst =>
          absurd (hpm.symm.trans (h.first.mpr hfirst)) nofun
      · exact nofun
      · exact hping.schedule nofun
      · rw [isPending_schedule, or_iff_left nofun]
        exact h.pings.trans (not_congr (isPending_pop hpop (by simp [ha])).symm)

/-- No event that runs undoes a stop. -/
theorem runEvent_stopped {feedback : List (List (BitVec 8))} {a : ReceiverEvent}
    (h : s.runEvent feedback a = some s') : s'.stopped = s.stopped := by
  cases a with
  | sendPing =>
      obtain rfl := Option.some.inj h
      unfold sendPing
      split <;> rfl
  | process =>
      obtain ⟨_, _, rfl⟩ := Option.map_eq_some_iff.mp h
      obtain ⟨sent, hmodules⟩ := @runModules_eq s feedback
      simp only [hmodules]

theorem recvPacket_stopped (srcIp : BitVec 32) (srcPort : BitVec 16) (message : WebrtcMessage) :
    (s.recvPacket srcIp srcPort message).stopped = s.stopped := by
  unfold recvPacket processConnect recvSegment send
  split
  · cases message with
    | connect cid =>
        simp only
        split <;> rfl
    | seg seg =>
        simp only
        split <;> rfl
    | _ => rfl
  · rfl

/-- Until the stop, the timers are in order. -/
def Inv (s : WebrtcReceiver) : Prop := s.stopped = false → s.Live

theorem Inv.step (h : s.Inv) (hstep : s.Step e s') : s'.Inv := by
  intro hstopped
  cases e with
  | start =>
      obtain ⟨hidle, rfl⟩ := step_start.mp hstep
      have hlive := h hstopped
      exact ⟨rfl, fun id hpm => ⟨rfl, (hlive.pm id hpm).2⟩, hlive.first, hlive.none, hlive.ping,
        hlive.pings⟩
  | stop =>
      obtain ⟨_, hstop⟩ := step_stop.mp hstep
      obtain ⟨timer, _, rfl⟩ := stopApplication_eq_some hstop
      exact absurd hstopped Bool.noConfusion
  | packet srcIp srcPort message =>
      obtain rfl := Option.some.inj hstep
      rw [recvPacket_stopped] at hstopped
      exact recvPacket_live (h hstopped) srcIp srcPort message
  | timer feedback =>
      obtain ⟨ev, queue, hpop, hrun⟩ := step_timer.mp hstep
      rw [runEvent_stopped hrun] at hstopped
      exact runEvent_live (h hstopped) hpop hrun
  | wait t =>
      obtain ⟨queue, hqueue, rfl⟩ := step_wait.mp hstep
      obtain ⟨hpending, _, hnext⟩ := advance?_eq_some hqueue
      have hlive := h hstopped
      have hle : s.queue.nextUid ≤ queue.nextUid := Nat.le_of_eq hnext.symm
      have hsub : ∀ e ∈ queue.pending, e ∈ s.queue.pending := fun e he => hpending ▸ he
      have hkeeps : ∀ a, queue.IsPending a ↔ s.queue.IsPending a := by
        intro a
        unfold IsPending
        rw [hpending]
      constructor
      · exact hlive.running
      · exact fun id hpm => ⟨(hlive.pm id hpm).1, (hlive.pm id hpm).2.of_subset hle hsub⟩
      · exact hlive.first
      · exact fun hpm => mt (hkeeps _).mp (hlive.none hpm)
      · exact hlive.ping.of_subset hle hsub
      · exact hlive.pings.trans (not_congr (hkeeps _).symm)

/-! ## After the stop -/

/-- Nothing is to come, and the application does not start any more. -/
structure Halted (s : WebrtcReceiver) : Prop where
  started : s.started = true
  running : s.running = false
  pending : s.queue.pending = []

theorem Halted.step (h : s.Halted) (hstep : s.Step e s') : s'.Halted ∧ s.TimerSilent e s' := by
  cases e with
  | start =>
      obtain ⟨hidle, _⟩ := step_start.mp hstep
      exact absurd (hidle.symm.trans h.started) Bool.false_ne_true
  | stop =>
      obtain ⟨_, hstop⟩ := step_stop.mp hstep
      obtain ⟨timer, _, rfl⟩ := stopApplication_eq_some hstop
      refine ⟨⟨h.started, rfl, ?_⟩, fun htimer => absurd htimer Bool.false_ne_true⟩
      simp [cancel, keep, h.pending]
  | packet srcIp srcPort message =>
      obtain rfl := Option.some.inj hstep
      unfold recvPacket
      simp only [h.running, Bool.false_eq_true, if_false]
      exact ⟨h, fun htimer => absurd htimer Bool.false_ne_true⟩
  | timer feedback =>
      obtain ⟨ev, queue, hpop, _⟩ := step_timer.mp hstep
      exact absurd hpop (pop_of_empty h.pending)
  | wait t =>
      obtain ⟨queue, hqueue, rfl⟩ := step_wait.mp hstep
      exact ⟨⟨h.started, h.running, (advance?_eq_some hqueue).1.trans h.pending⟩,
        fun htimer => absurd htimer Bool.false_ne_true⟩

/-- The next ping sends a packet. -/
theorem not_silent_of_ping (hping : s.queue.Sole s.pingTimer .sendPing)
    (hpending : s.queue.pending ≠ []) (hall : ∀ e ∈ s.queue.pending, e.action = .sendPing) :
    ¬ Always Step TimerSilent s := by
  intro halways
  obtain ⟨ev, queue, hpop⟩ := exists_pop hpending
  have ha := hall ev (pop_eq_some hpop).1
  rw [← ha] at hping
  have hstep : s.Step (.timer []) (s.setQueue queue).sendPing :=
    step_timer.mpr ⟨ev, queue, hpop, by rw [ha]; rfl⟩
  rw [@sendPing_eq (s.setQueue queue) (hping.isExpired_of_pop hpop)] at hstep
  have hsent := halways.head hstep rfl
  simp [setQueue] at hsent

/-- **A stop is final** if and only if no connect has arrived: pings go on after it. -/
theorem stop_silent_iff {uid cid : BitVec 32} {es : List Input}
    (hrun : Run Step (new uid cid) es s) (hstop : s.Step .stop s') :
    Always Step TimerSilent s' ↔ s.pathState = .idle := by
  have hinv : s.Inv := hrun.stateInvariant (fun _ => new_live uid cid) fun _ _ _ h => h.step
  obtain ⟨hstopped, hstop⟩ := step_stop.mp hstop
  have hlive := hinv hstopped
  obtain ⟨timer, hpm, rfl⟩ := stopApplication_eq_some hstop
  obtain ⟨hstarted, hprocess⟩ := hlive.pm timer hpm
  -- the event of the modules is cancelled
  have hpings : ∀ e ∈ (s.queue.cancel timer).pending, e.action = .sendPing := by
    intro e he
    obtain ⟨he, hne⟩ := mem_cancel.mp he
    cases ha : e.action with
    | sendPing => rfl
    | process => exact absurd ((hprocess.action_iff e he).mp ha) hne
  have hkept : (s.queue.cancel timer).IsPending .sendPing ↔ s.queue.IsPending .sendPing :=
    hprocess.refers.isPending_cancel nofun
  by_cases hidle : s.pathState = .idle
  · refine iff_of_true ?_ hidle
    have hhalted : Halted { s with
        running := false
        stopped := true
        pm := none
        queue := s.queue.cancel timer } := by
      refine ⟨hstarted, rfl, List.eq_nil_iff_forall_not_mem.mpr ?_⟩
      intro e he
      exact hlive.pings.mp hidle (hkept.mp ⟨e, he, hpings e he⟩)
    exact Always.of_invariant hhalted fun _ _ _ h => h.step
  · refine iff_of_false ?_ hidle
    have hping : s.queue.IsPending .sendPing := not_not.mp (mt hlive.pings.mpr hidle)
    obtain ⟨e, he, _⟩ := hkept.mpr hping
    refine not_silent_of_ping ?_ (List.ne_nil_of_mem he) hpings
    exact hlive.ping.of_subset (Nat.le_refl _) fun e he => (mem_cancel.mp he).1

end WebrtcReceiver

end Webrtc
