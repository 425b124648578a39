import RmcatNs3.Lib.EventQueue
import RmcatNs3.Lib.Runs

/-!
# The SCReAM application

`scream/model/screamsender.{h,cc}`: a tick every 5 milliseconds that makes frames and sends
at most one packet. What `m_screamTx` answers and what the queue of packets holds is an
argument of the tick.
-/

namespace Scream

open EventQueue Runs

/-- What `isOkToTransmit` returns. -/
inductive OkToTransmit where
  /-- A negative number. -/
  | refused
  /-- 0 -/
  | now
  /-- A positive number, given as `m_nextCallN` stores its sum with the present time. -/
  | later (nextCallN : Int)
  deriving DecidableEq, Repr

/-- What a tick learns from `m_screamTx` and `m_rtpQueue`. -/
structure TickAnswers where
  afterFrame : OkToTransmit
  atCall : OkToTransmit
  size : Nat
  seqNr : BitVec 16
  /-- The answer of `addTransmitted`, as `m_nextCallN` stores its sum with the time. -/
  nextCallN : Int

/-- A packet with its `rtp_hdr_t`. -/
structure RtpPacket where
  seqNumber : BitVec 16
  ssrc : BitVec 32
  timestamp : BitVec 32
  size : Nat
  deriving DecidableEq, Repr

inductive SenderEvent where
  | process
  deriving DecidableEq, Repr

structure ScreamSender where
  peerIp : BitVec 32
  peerPort : BitVec 16
  /-- `m_socket` is not `NULL`. -/
  hasSocket : Bool
  running : Bool
  nextFrameTime : Nat
  nextCallN : Int
  tickEvent : EventId
  queue : EventQueue SenderEvent
  /-- Whether `StartApplication` and `StopApplication` have run; the source has no such
  fields. -/
  started : Bool
  stopped : Bool
  sent : List (BitVec 32 × BitVec 16 × RtpPacket)

def senderSsrc : BitVec 32 := 1234
def videoTick : Nat := 40
def tick : Nat := 5

namespace ScreamSender

/-- A sender after `InitialSetup`. -/
def new (peerIp : BitVec 32) (peerPort : BitVec 16) : ScreamSender where
  peerIp := peerIp
  peerPort := peerPort
  hasSocket := false
  running := false
  nextFrameTime := 0
  nextCallN := -1
  tickEvent := none
  queue := .empty
  started := false
  stopped := false
  sent := []

def nowMs (s : ScreamSender) : Nat := getMilliSeconds s.queue.now

def startApplication (s : ScreamSender) : ScreamSender :=
  { s with
    hasSocket := true
    running := true
    nextFrameTime := s.nowMs
    tickEvent := s.queue.nextId
    queue := s.queue.schedule 0 .process
    started := true }

def stopApplication (s : ScreamSender) : ScreamSender :=
  { s with running := false, queue := s.queue.cancel s.tickEvent, stopped := true }

def setQueue (s : ScreamSender) (queue : EventQueue SenderEvent) : ScreamSender :=
  { s with queue }

/-- `Send` -/
def send (s : ScreamSender) (packet : RtpPacket) : ScreamSender :=
  if s.hasSocket then { s with sent := s.sent ++ [(s.peerIp, s.peerPort, packet)] } else s

/-! ## The tick -/

/-- `if(now>=m_nextFrameTime)` -/
def generateFrame (s : ScreamSender) (answer : OkToTransmit) : ScreamSender × OkToTransmit :=
  if s.nextFrameTime ≤ s.nowMs then
    ({ s with nextFrameTime := s.nowMs + videoTick }, answer)
  else (s, .refused)

/-- `if (now>=m_nextCallN && retVal != 0.0f)` -/
def callAgain (s : ScreamSender) (retVal answer : OkToTransmit) :
    ScreamSender × OkToTransmit :=
  if s.nextCallN ≤ s.nowMs ∧ retVal ≠ .now then
    match answer with
    | .later nextCallN => ({ s with nextCallN }, answer)
    | _ => (s, answer)
  else (s, retVal)

/-- `if (retVal == 0)` -/
def transmit (s : ScreamSender) (retVal : OkToTransmit) (answers : TickAnswers) :
    ScreamSender :=
  if retVal = .now then
    { s with nextCallN := answers.nextCallN }.send
      { seqNumber := answers.seqNr
        ssrc := senderSsrc
        timestamp := BitVec.ofNat 32 s.nowMs
        size := answers.size }
  else s

/-- `ScreamSender::Process`. The event of the next tick is not stored. -/
def process (s : ScreamSender) (answers : TickAnswers) : ScreamSender :=
  if s.queue.isExpired s.tickEvent then
    let (s, retVal) := s.generateFrame answers.afterFrame
    let (s, retVal) := s.callAgain retVal answers.atCall
    let s := s.transmit retVal answers
    { s with queue := s.queue.schedule (milliSeconds tick) .process }
  else s

/-! ## Steps -/

inductive Input where
  | start
  | stop
  /-- A feedback goes to `m_screamTx`, which is not part of this model. -/
  | feedback
  | timer (answers : TickAnswers)
  | wait (t : Nat)

def Input.isTimer : Input → Bool
  | .timer _ => true
  | _ => false

/-- The application starts and stops once. -/
def step? (s : ScreamSender) : Input → Option ScreamSender
  | .start => if s.started then none else some s.startApplication
  | .stop => if s.stopped then none else some s.stopApplication
  | .feedback => some s
  | .timer answers => s.queue.pop.map fun (_, queue) => (s.setQueue queue).process answers
  | .wait t => (s.queue.advance? t).map s.setQueue

def Step (s : ScreamSender) (e : Input) (s' : ScreamSender) : Prop := step? s e = some s'

/-- A timer hands no packet to the socket. -/
def TimerSilent (s : ScreamSender) (e : Input) (s' : ScreamSender) : Prop :=
  e.isTimer = true → s'.sent = s.sent

variable {s s' : ScreamSender} {e : Input}

theorem step_start : s.Step .start s' ↔ s.started = false ∧ s.startApplication = s' := by
  simp [Step, step?]

theorem step_stop : s.Step .stop s' ↔ s.stopped = false ∧ s.stopApplication = s' := by
  simp [Step, step?]

theorem step_timer {answers : TickAnswers} : s.Step (.timer answers) s' ↔
    ∃ ev queue, s.queue.pop = some (ev, queue) ∧
      (s.setQueue queue).process answers = s' := by
  simp [Step, step?]

theorem step_wait {t : Nat} : s.Step (.wait t) s' ↔
    ∃ queue, s.queue.advance? t = some queue ∧ s.setQueue queue = s' := by
  simp [Step, step?]

/-! ## Ticks to come -/

/-- Before the stop: a tick is to come once the application has started, and `m_tickEvent`
is the first one. -/
structure Ticking (s : ScreamSender) : Prop where
  sole : s.queue.Sole s.tickEvent .process
  idle : s.started = false → s.queue.pending = []
  pending : s.started = true → s.hasSocket = true ∧ ∃ e, s.queue.pending = [e]

/-- What the ticks to come depend on. -/
def timers (s : ScreamSender) : Bool × EventId × EventQueue SenderEvent × Bool × Bool :=
  (s.hasSocket, s.tickEvent, s.queue, s.started, s.stopped)

theorem generateFrame_timers (answer : OkToTransmit) :
    (s.generateFrame answer).1.timers = s.timers := by
  unfold generateFrame
  split <;> rfl

theorem callAgain_timers (retVal answer : OkToTransmit) :
    (s.callAgain retVal answer).1.timers = s.timers := by
  unfold callAgain
  split
  · cases answer <;> rfl
  · rfl

theorem transmit_timers (retVal : OkToTransmit) (answers : TickAnswers) :
    (s.transmit retVal answers).timers = s.timers := by
  unfold transmit send
  simp only
  split
  · split <;> rfl
  · rfl

/-- A tick schedules the next one and changes no handle. -/
theorem process_timers {answers : TickAnswers} (hexpired : s.queue.isExpired s.tickEvent = true) :
    (s.process answers).timers = (s.hasSocket, s.tickEvent,
      s.queue.schedule (milliSeconds tick) .process, s.started, s.stopped) := by
  unfold process
  rw [if_pos hexpired]
  have hframe := @generateFrame_timers s answers.afterFrame
  have hcall := @callAgain_timers (s.generateFrame answers.afterFrame).1
    (s.generateFrame answers.afterFrame).2 answers.atCall
  have htransmit := @transmit_timers
    ((s.generateFrame answers.afterFrame).1.callAgain
      (s.generateFrame answers.afterFrame).2 answers.atCall).1
    ((s.generateFrame answers.afterFrame).1.callAgain
      (s.generateFrame answers.afterFrame).2 answers.atCall).2 answers
  have hall := htransmit.trans (hcall.trans hframe)
  simp only [timers, Prod.mk.injEq] at hall ⊢
  obtain ⟨hsocket, hid, hqueue, hstarted, hstopped⟩ := hall
  exact ⟨hsocket, hid, by rw [hqueue], hstarted, hstopped⟩

theorem startApplication_ticking (h : s.Ticking) (hidle : s.started = false) :
    s.startApplication.Ticking := by
  have hnone : ¬ s.queue.IsPending .process := by
    rintro ⟨e, he, _⟩
    rw [h.idle hidle] at he
    exact List.not_mem_nil he
  refine ⟨(Tracks.of_schedule hnone).sole, nofun, ?_⟩
  intro _
  refine ⟨rfl, ⟨s.queue.nextUid, s.queue.now + 0, .process⟩, ?_⟩
  rw [startApplication, schedule_pending, h.idle hidle, List.nil_append]

/-- A tick runs, and the next one is to come. -/
theorem process_ticking {queue : EventQueue SenderEvent} {ev : Event SenderEvent}
    {answers : TickAnswers} (h : s.Ticking) (hpop : s.queue.pop = some (ev, queue)) :
    ((s.setQueue queue).process answers).Ticking := by
  have hexpired : queue.isExpired s.tickEvent = true := h.sole.isExpired_of_pop hpop
  have htimers : ((s.setQueue queue).process answers).timers = (s.hasSocket, s.tickEvent,
      queue.schedule (milliSeconds tick) .process, s.started, s.stopped) :=
    @process_timers (s.setQueue queue) answers hexpired
  simp only [timers, Prod.mk.injEq] at htimers
  obtain ⟨hsocket, hid, hqueue, hstarted, _⟩ := htimers
  have hmem := (pop_eq_some hpop).1
  have hrunning : s.started = true := by
    by_contra hidle
    rw [h.idle (by simpa using hidle)] at hmem
    exact List.not_mem_nil hmem
  obtain ⟨hopen, e, hpending⟩ := h.pending hrunning
  have hempty := (pop_singleton hpending hpop).2.2
  refine ⟨?_, ?_, ?_⟩
  · rw [hqueue, hid]
    exact (h.sole.of_subset (Nat.le_of_eq (pop_nextUid hpop).symm)
      fun e he => (((pop_eq_some hpop).2.2 e).mp he).1).schedule_expired hexpired
  · intro hidle
    rw [hstarted, hrunning] at hidle
    exact absurd hidle Bool.noConfusion
  · intro _
    refine ⟨hsocket.trans hopen, ⟨queue.nextUid, queue.now + milliSeconds tick, .process⟩, ?_⟩
    rw [hqueue, schedule_pending, hempty, List.nil_append]

/-- Until the stop, ticks are in order. -/
def Inv (s : ScreamSender) : Prop := s.stopped = false → s.Ticking

theorem new_inv (peerIp : BitVec 32) (peerPort : BitVec 16) : (new peerIp peerPort).Inv :=
  fun _ => ⟨.none _ _, fun _ => rfl, nofun⟩

theorem process_stopped (answers : TickAnswers) : (s.process answers).stopped = s.stopped := by
  by_cases hexpired : s.queue.isExpired s.tickEvent = true
  · have htimers := @process_timers s answers hexpired
    simp only [timers, Prod.mk.injEq] at htimers
    exact htimers.2.2.2.2
  · unfold process
    rw [if_neg hexpired]

theorem Inv.step (h : s.Inv) (hstep : s.Step e s') : s'.Inv := by
  intro hstopped
  cases e with
  | start =>
      obtain ⟨hidle, rfl⟩ := step_start.mp hstep
      exact startApplication_ticking (h hstopped) hidle
  | stop =>
      obtain ⟨_, rfl⟩ := step_stop.mp hstep
      exact absurd hstopped Bool.noConfusion
  | feedback =>
      obtain rfl := Option.some.inj hstep
      exact h hstopped
  | timer answers =>
      obtain ⟨ev, queue, hpop, rfl⟩ := step_timer.mp hstep
      rw [process_stopped] at hstopped
      exact process_ticking (h hstopped) hpop
  | wait t =>
      obtain ⟨queue, hqueue, rfl⟩ := step_wait.mp hstep
      obtain ⟨hpending, _, hnext⟩ := advance?_eq_some hqueue
      have hticking := h hstopped
      refine ⟨?_, ?_, ?_⟩
      · exact hticking.sole.of_subset (Nat.le_of_eq hnext.symm) fun e he => hpending ▸ he
      · exact fun hidle => hpending.trans (hticking.idle hidle)
      · intro hstarted
        obtain ⟨hopen, ev, hev⟩ := hticking.pending hstarted
        exact ⟨hopen, ev, hpending.trans hev⟩

/-! ## After the stop -/

/-- Nothing is to come, and the application does not start any more. -/
structure Halted (s : ScreamSender) : Prop where
  started : s.started = true
  pending : s.queue.pending = []

theorem Halted.step (h : s.Halted) (hstep : s.Step e s') : s'.Halted ∧ s.TimerSilent e s' := by
  cases e with
  | start =>
      obtain ⟨hidle, _⟩ := step_start.mp hstep
      rw [h.started] at hidle
      exact absurd hidle Bool.noConfusion
  | stop =>
      obtain ⟨_, rfl⟩ := step_stop.mp hstep
      refine ⟨⟨h.started, ?_⟩, fun htimer => absurd htimer Bool.false_ne_true⟩
      simp [stopApplication, cancel, keep, h.pending]
  | feedback =>
      obtain rfl := Option.some.inj hstep
      exact ⟨h, fun htimer => absurd htimer Bool.false_ne_true⟩
  | timer answers =>
      obtain ⟨ev, queue, hpop, _⟩ := step_timer.mp hstep
      exact absurd hpop (pop_of_empty h.pending)
  | wait t =>
      obtain ⟨queue, hqueue, rfl⟩ := step_wait.mp hstep
      exact ⟨⟨h.started, (advance?_eq_some hqueue).1.trans h.pending⟩,
        fun htimer => absurd htimer Bool.false_ne_true⟩

/-- A tick that makes a frame sends a packet, if `m_screamTx` agrees. -/
theorem process_due {answers : TickAnswers} (hexpired : s.queue.isExpired s.tickEvent = true)
    (hopen : s.hasSocket = true) (hdue : s.nextFrameTime ≤ s.nowMs)
    (hanswer : answers.afterFrame = .now) : (s.process answers).sent ≠ s.sent := by
  unfold process generateFrame callAgain transmit send
  simp [hexpired, hdue, hanswer, hopen]

/-- A tick before the next frame sends nothing while `m_screamTx` refuses. -/
theorem process_early {answers : TickAnswers} (hexpired : s.queue.isExpired s.tickEvent = true)
    (hearly : ¬ s.nextFrameTime ≤ s.nowMs) (hanswer : answers.atCall = .refused) :
    s.process answers = { s with queue := s.queue.schedule (milliSeconds tick) .process } := by
  unfold process generateFrame callAgain transmit
  simp only [hexpired, if_true, hearly, if_false, hanswer]
  split <;> rfl

/-- The pending tick can run. -/
theorem tick_of_pending {ev : Event SenderEvent} (hpending : s.queue.pending = [ev]) :
    ∃ queue, (∀ answers, s.Step (.timer answers)
        ((s.setQueue queue).process answers)) ∧
      queue.isExpired s.tickEvent = true ∧ queue.now = ev.ts ∧ queue.pending = [] := by
  have hnonempty : s.queue.pending ≠ [] := by
    rw [hpending]
    exact List.cons_ne_nil _ _
  obtain ⟨ev', queue, hpop⟩ := exists_pop hnonempty
  obtain ⟨_, hnow, hempty⟩ := pop_singleton hpending hpop
  refine ⟨queue, fun answers => step_timer.mpr ⟨ev', queue, hpop, rfl⟩, ?_, hnow, hempty⟩
  rw [isExpired_iff, hempty]
  exact fun e he => absurd he List.not_mem_nil

/-- Ticks go on until the next frame is due, and then one sends a packet. -/
theorem not_silent_of_tick {n : Nat} {ev : Event SenderEvent} (hopen : s.hasSocket = true)
    (hpending : s.queue.pending = [ev])
    (hdue : s.nextFrameTime ≤ getMilliSeconds ev.ts + n) : ¬ Always Step TimerSilent s := by
  induction n generalizing s ev with
  | zero =>
      intro halways
      obtain ⟨queue, hstep, hexpired, hnow, _⟩ := tick_of_pending hpending
      have hframe : s.nextFrameTime ≤ (s.setQueue queue).nowMs := by
        rw [nowMs, setQueue, hnow]
        exact hdue
      have hstep := hstep ⟨.now, .refused, 0, 0, 0⟩
      exact @process_due (s.setQueue queue) _ hexpired hopen hframe rfl
        (halways.head hstep rfl)
  | succ n ih =>
      intro halways
      obtain ⟨queue, hstep, hexpired, hnow, hempty⟩ := tick_of_pending hpending
      have hstep := hstep ⟨.now, .refused, 0, 0, 0⟩
      by_cases hframe : s.nextFrameTime ≤ (s.setQueue queue).nowMs
      · exact @process_due (s.setQueue queue) _ hexpired hopen hframe rfl
          (halways.head hstep rfl)
      · have hrest := halways.tail hstep
        rw [@process_early (s.setQueue queue) _ hexpired hframe rfl] at hrest
        have hlater : getMilliSeconds (queue.now + milliSeconds tick)
            = getMilliSeconds queue.now + 5 := by
          simp only [getMilliSeconds, milliSeconds, tick]
          omega
        refine @ih ((s.setQueue queue).setQueue (queue.schedule (milliSeconds tick) .process))
          ⟨queue.nextUid, queue.now + milliSeconds tick, .process⟩ hopen ?_ ?_ hrest
        · rw [setQueue, schedule_pending, hempty, List.nil_append]
        · rw [hlater, hnow]
          simp only [setQueue]
          omega

/-- **A stop is final** if and only if `m_tickEvent` is still to come: after the first tick
the next one is stored nowhere. -/
theorem stop_silent_iff {peerIp : BitVec 32} {peerPort : BitVec 16} {es : List Input}
    (hrun : Run Step (new peerIp peerPort) es s) (hstop : s.Step .stop s') :
    Always Step TimerSilent s' ↔ s.queue.isExpired s.tickEvent = false := by
  have hinv : s.Inv := hrun.stateInvariant (new_inv peerIp peerPort) fun _ _ _ h => h.step
  obtain ⟨hstopped, rfl⟩ := step_stop.mp hstop
  have hticking := hinv hstopped
  by_cases hexpired : s.queue.isExpired s.tickEvent = true
  · rw [hexpired]
    refine iff_of_false ?_ Bool.noConfusion
    have hcancelled : (s.queue.cancel s.tickEvent).pending = s.queue.pending := by
      rw [isExpired_iff] at hexpired
      simpa [cancel, keep] using hexpired
    by_cases hstarted : s.started = true
    · obtain ⟨hopen, ev, hpending⟩ := hticking.pending hstarted
      exact @not_silent_of_tick s.stopApplication s.nextFrameTime ev hopen
        (hcancelled.trans hpending) (Nat.le_add_left ..)
    · -- the application may start after its stop
      rw [Bool.not_eq_true] at hstarted
      intro halways
      have hpending := hcancelled.trans (hticking.idle hstarted)
      refine @not_silent_of_tick s.stopApplication.startApplication 0
        ⟨s.queue.nextUid, s.queue.now + 0, .process⟩ rfl ?_ (Nat.le_refl _)
        (halways.tail (step_start.mpr ⟨hstarted, rfl⟩))
      rw [startApplication, schedule_pending, stopApplication, hpending, List.nil_append]
      rfl
  · rw [Bool.not_eq_true] at hexpired
    refine iff_of_true ?_ hexpired
    have hnone := hticking.sole.not_pending hexpired
    have hhalted : s.stopApplication.Halted := by
      constructor
      · by_contra hidle
        obtain ⟨e, he, _⟩ := exists_of_running hexpired
        rw [hticking.idle (by simpa [stopApplication] using hidle)] at he
        exact List.not_mem_nil he
      · refine List.eq_nil_iff_forall_not_mem.mpr ?_
        intro e he
        exact hnone ⟨e, he, rfl⟩
    exact Always.of_invariant hhalted fun _ _ _ h => h.step

end ScreamSender

end Scream
