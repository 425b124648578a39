import RmcatNs3.Webrtc.WebrtcSender

/-!
# The timers of the WebRTC sender

Which events are to come while the application runs, and which of them `StopApplication`
leaves in the simulator: the retry of the connection, and every ping but the first.
-/

namespace Webrtc

open EventQueue Multipath Runs

/-- What the events of a sender depend on. -/
structure SenderTimers where
  hasSocket : Bool
  running : Bool
  pathState : PathSession
  pm : Option EventId
  generatorTimer : EventId
  generatorFs : Nat
  pingTimer : EventId
  rxTimer : EventId
  queue : EventQueue SenderEvent
  started : Bool
  stopped : Bool

def WebrtcSender.timers (s : WebrtcSender) : SenderTimers where
  hasSocket := s.hasSocket
  running := s.running
  pathState := s.pathState
  pm := s.pm
  generatorTimer := s.generatorTimer
  generatorFs := s.generatorFs
  pingTimer := s.pingTimer
  rxTimer := s.rxTimer
  queue := s.queue
  started := s.started
  stopped := s.stopped

namespace SenderTimers

/-- Only the retry of the connection is to come. -/
structure Connecting (v : SenderTimers) : Prop where
  pathState : v.pathState = .connecting
  pending : v.queue.IsPending .connect
  only : ∀ e ∈ v.queue.pending, e.action = .connect

/-- Pings go on, and there is no retry. -/
structure Connected (v : SenderTimers) : Prop where
  pathState : v.pathState = .connected
  pending : v.queue.IsPending .sendPing
  none : ¬ v.queue.IsPending .connect

/-- Before the stop, handles belong to their events. -/
structure Live (v : SenderTimers) : Prop where
  pm : ∃ id, v.pm = some id ∧ v.queue.Tracks id .process
  generator : v.queue.Tracks v.generatorTimer .generate
  rx : v.queue.Tracks v.rxTimer .connect
  ping : v.queue.Sole v.pingTimer .sendPing
  idle : v.started = false → v.pathState = .idle ∧ v.queue.pending = []
  phase : v.started = true → v.hasSocket = true ∧ (v.Connecting ∨ v.Connected)

variable {v : SenderTimers} {q : EventQueue SenderEvent} {e : Event SenderEvent} {delay : Nat}

theorem Live.started_of_mem (h : v.Live) (he : e ∈ v.queue.pending) : v.started = true := by
  by_contra hidle
  rw [(h.idle (by simpa using hidle)).2] at he
  exact List.not_mem_nil he

/-- Handles keep their events while others run. -/
theorem Live.popped (h : v.Live) (hpop : v.queue.pop = some (e, q)) :
    (∃ id, v.pm = some id ∧ q.Tracks id .process) ∧ q.Tracks v.generatorTimer .generate ∧
      q.Tracks v.rxTimer .connect ∧ q.Sole v.pingTimer .sendPing := by
  obtain ⟨id, hpm, htracks⟩ := h.pm
  refine ⟨⟨id, hpm, htracks.pop hpop⟩, h.generator.pop hpop, h.rx.pop hpop, ?_⟩
  exact h.ping.of_subset (Nat.le_of_eq (pop_nextUid hpop).symm)
    fun e' he' => (((pop_eq_some hpop).2.2 e').mp he').1

theorem Connected.after (h : v.Connected) (hpop : v.queue.pop = some (e, q)) {a : SenderEvent}
    (hconnect : a ≠ .connect) (hping : e.action = .sendPing → a = .sendPing) :
    (q.schedule delay a).IsPending .sendPing ∧ ¬ (q.schedule delay a).IsPending .connect := by
  rw [isPending_schedule, isPending_schedule]
  constructor
  · by_cases hran : e.action = .sendPing
    · exact .inr (hping hran)
    · exact .inl ((isPending_pop hpop (Ne.symm hran)).mpr h.pending)
  · rintro (⟨e', he', ha⟩ | rfl)
    · exact h.none ⟨e', (((pop_eq_some hpop).2.2 e').mp he').1, ha⟩
    · exact hconnect rfl

/-- A retry is to come only while the path is not connected. -/
theorem Live.connecting (h : v.Live) (he : e ∈ v.queue.pending) (ha : e.action = .connect) :
    v.hasSocket = true ∧ v.Connecting := by
  obtain ⟨hopen, hconnecting | hconnected⟩ := h.phase (h.started_of_mem he)
  · exact ⟨hopen, hconnecting⟩
  · exact absurd ⟨e, he, ha⟩ hconnected.none

/-- Another timer is to come only while it is. -/
theorem Live.connected (h : v.Live) (he : e ∈ v.queue.pending) (hne : e.action ≠ .connect) :
    v.hasSocket = true ∧ v.Connected := by
  obtain ⟨hopen, hconnecting | hconnected⟩ := h.phase (h.started_of_mem he)
  · exact absurd (hconnecting.only e he) hne
  · exact ⟨hopen, hconnected⟩

theorem not_isPending_of_run {id : EventId} {a : SenderEvent} (h : v.queue.Tracks id a)
    (hpop : v.queue.pop = some (e, q)) (ha : e.action = a) : ¬ q.IsPending a := by
  subst ha
  exact h.not_pending_of_pop hpop

/-! ## Events that run -/

/-- The retry runs, and the next one is stored. -/
theorem Live.connect (h : v.Live) (hpop : v.queue.pop = some (e, q))
    (ha : e.action = .connect) : Live { v with
      pathState := .connecting
      rxTimer := q.nextId
      queue := q.schedule delay .connect } := by
  obtain ⟨hmem, _, hrest⟩ := pop_eq_some hpop
  obtain ⟨hopen, hconnecting⟩ := h.connecting hmem ha
  obtain ⟨⟨id, hpm, hprocess⟩, hgenerate, _, hping⟩ := h.popped hpop
  constructor
  · exact ⟨id, hpm, hprocess.schedule nofun⟩
  · exact hgenerate.schedule nofun
  · exact Tracks.of_schedule (not_isPending_of_run h.rx hpop ha)
  · exact hping.schedule nofun
  · exact fun hidle => absurd (hidle.symm.trans (h.started_of_mem hmem)) Bool.false_ne_true
  · intro _
    refine ⟨hopen, .inl ⟨rfl, isPending_schedule.mpr (.inr rfl), ?_⟩⟩
    intro e' he'
    rcases mem_schedule.mp he' with he' | rfl
    · exact hconnecting.only e' ((hrest e').mp he').1
    · rfl

/-- A ping runs, and the next one is not stored. -/
theorem Live.sendPing (h : v.Live) (hpop : v.queue.pop = some (e, q))
    (ha : e.action = .sendPing) :
    q.isExpired v.pingTimer = true ∧ Live { v with queue := q.schedule delay .sendPing } := by
  have hmem := (pop_eq_some hpop).1
  obtain ⟨hopen, hconnected⟩ := h.connected hmem (by simp [ha])
  obtain ⟨⟨id, hpm, hprocess⟩, hgenerate, hrx, hping⟩ := h.popped hpop
  have hsole := h.ping
  rw [← ha] at hsole
  have hexpired := hsole.isExpired_of_pop hpop
  refine ⟨hexpired, ?_⟩
  constructor
  · exact ⟨id, hpm, hprocess.schedule nofun⟩
  · exact hgenerate.schedule nofun
  · exact hrx.schedule nofun
  · exact hping.schedule_expired hexpired
  · exact fun hidle => absurd (hidle.symm.trans (h.started_of_mem hmem)) Bool.false_ne_true
  · intro _
    obtain ⟨hpending, hnone⟩ := @Connected.after v q e delay hconnected hpop .sendPing nofun
      fun _ => rfl
    exact ⟨hopen, .inr ⟨hconnected.pathState, hpending, hnone⟩⟩

/-- The modules run, and their next turn is stored. -/
theorem Live.process (h : v.Live) (hpop : v.queue.pop = some (e, q))
    (ha : e.action = .process) : Live { v with
      pm := some q.nextId
      queue := q.schedule delay .process } := by
  have hmem := (pop_eq_some hpop).1
  obtain ⟨hopen, hconnected⟩ := h.connected hmem (by simp [ha])
  obtain ⟨_, hgenerate, hrx, hping⟩ := h.popped hpop
  obtain ⟨id, _, htracks⟩ := h.pm
  constructor
  · exact ⟨q.nextId, rfl, Tracks.of_schedule (not_isPending_of_run htracks hpop ha)⟩
  · exact hgenerate.schedule nofun
  · exact hrx.schedule nofun
  · exact hping.schedule nofun
  · exact fun hidle => absurd (hidle.symm.trans (h.started_of_mem hmem)) Bool.false_ne_true
  · intro _
    obtain ⟨hpending, hnone⟩ := @Connected.after v q e delay hconnected hpop .process nofun
      (by simp [ha])
    exact ⟨hopen, .inr ⟨hconnected.pathState, hpending, hnone⟩⟩

/-- A frame is made, and the next one is stored. -/
theorem Live.generate (h : v.Live) (hpop : v.queue.pop = some (e, q))
    (ha : e.action = .generate) :
    q.isExpired v.generatorTimer = true ∧ Live { v with
      generatorTimer := q.nextId
      queue := q.schedule delay .generate } := by
  have hmem := (pop_eq_some hpop).1
  obtain ⟨hopen, hconnected⟩ := h.connected hmem (by simp [ha])
  obtain ⟨⟨id, hpm, hprocess⟩, hgenerate, hrx, hping⟩ := h.popped hpop
  have hnone := not_isPending_of_run h.generator hpop ha
  refine ⟨hgenerate.isExpired_iff.mpr hnone, ?_⟩
  constructor
  · exact ⟨id, hpm, hprocess.schedule nofun⟩
  · exact Tracks.of_schedule hnone
  · exact hrx.schedule nofun
  · exact hping.schedule nofun
  · exact fun hidle => absurd (hidle.symm.trans (h.started_of_mem hmem)) Bool.false_ne_true
  · intro _
    obtain ⟨hpending, hnone⟩ := @Connected.after v q e delay hconnected hpop .generate nofun
      (by simp [ha])
    exact ⟨hopen, .inr ⟨hconnected.pathState, hpending, hnone⟩⟩

/-! ## Other events -/

/-- The application starts: the first attempt to connect. -/
theorem Live.start (h : v.Live) (hidle : v.started = false) : Live { v with
      hasSocket := true
      running := true
      started := true
      pathState := .connecting
      rxTimer := v.queue.nextId
      queue := v.queue.schedule delay .connect } := by
  have hempty := (h.idle hidle).2
  obtain ⟨id, hpm, htracks⟩ := h.pm
  constructor
  · exact ⟨id, hpm, htracks.schedule nofun⟩
  · exact h.generator.schedule nofun
  · refine Tracks.of_schedule ?_
    rintro ⟨e, he, _⟩
    rw [hempty] at he
    exact List.not_mem_nil he
  · exact h.ping.schedule nofun
  · exact nofun
  · intro _
    refine ⟨rfl, .inl ⟨rfl, isPending_schedule.mpr (.inr rfl), ?_⟩⟩
    intro e he
    rw [schedule_pending, hempty, List.nil_append] at he
    obtain rfl := List.mem_singleton.mp he
    rfl

/-- The path is connected: the retry is cancelled, and three timers start. -/
theorem Live.connectAck (h : v.Live) (hstate : v.pathState = .connecting) : Live { v with
      pathState := .connected
      generatorTimer := (v.queue.cancel v.rxTimer).nextId
      pm := some ((v.queue.cancel v.rxTimer).schedule 0 .generate).nextId
      pingTimer := (((v.queue.cancel v.rxTimer).schedule 0 .generate).schedule 0 .process).nextId
      queue := (((v.queue.cancel v.rxTimer).schedule 0 .generate).schedule 0 .process).schedule 0
        .sendPing } := by
  have hstarted : v.started = true := by
    by_contra hidle
    rw [(h.idle (by simpa using hidle)).1] at hstate
    exact absurd hstate nofun
  obtain ⟨hopen, hconnecting | hconnected⟩ := h.phase hstarted
  · have hnone : ∀ a, ¬ (v.queue.cancel v.rxTimer).IsPending a := by
      rintro a ⟨e, he, _⟩
      exact h.rx.not_pending ⟨e, he, hconnecting.only e (mem_cancel.mp he).1⟩
    constructor
    · refine ⟨_, rfl, (Tracks.of_schedule ?_).schedule nofun⟩
      rw [isPending_schedule]
      exact not_or.mpr ⟨hnone _, nofun⟩
    · refine Tracks.schedule (Tracks.schedule (Tracks.of_schedule (hnone _)) ?_) ?_
      · exact nofun
      · exact nofun
    · refine Tracks.schedule (Tracks.schedule (Tracks.schedule h.rx.cancel ?_) ?_) ?_
      · exact nofun
      · exact nofun
      · exact nofun
    · refine (Tracks.of_schedule ?_).sole
      rw [isPending_schedule, isPending_schedule]
      exact not_or.mpr ⟨not_or.mpr ⟨hnone _, nofun⟩, nofun⟩
    · exact fun hidle => absurd (hidle.symm.trans hstarted) Bool.false_ne_true
    · intro _
      refine ⟨hopen, .inr ⟨rfl, isPending_schedule.mpr (.inr rfl), ?_⟩⟩
      rw [isPending_schedule, isPending_schedule, isPending_schedule]
      exact not_or.mpr ⟨not_or.mpr ⟨not_or.mpr ⟨hnone _, nofun⟩, nofun⟩, nofun⟩
  · rw [hconnected.pathState] at hstate
    exact absurd hstate nofun

/-- Time passes. -/
theorem Live.wait (h : v.Live) {t : Nat} (hqueue : v.queue.advance? t = some q) :
    Live { v with queue := q } := by
  obtain ⟨hpending, _, hnext⟩ := advance?_eq_some hqueue
  have hle : v.queue.nextUid ≤ q.nextUid := Nat.le_of_eq hnext.symm
  have hsub : ∀ e ∈ q.pending, e ∈ v.queue.pending := fun e he => hpending ▸ he
  have hkeeps : ∀ a, q.IsPending a ↔ v.queue.IsPending a := by
    intro a
    unfold IsPending
    rw [hpending]
  obtain ⟨id, hpm, htracks⟩ := h.pm
  constructor
  · exact ⟨id, hpm, htracks.of_subset hle hsub⟩
  · exact h.generator.of_subset hle hsub
  · exact h.rx.of_subset hle hsub
  · exact h.ping.of_subset hle hsub
  · exact fun hidle => ⟨(h.idle hidle).1, hpending.trans (h.idle hidle).2⟩
  · intro hstarted
    obtain ⟨hopen, hconnecting | hconnected⟩ := h.phase hstarted
    · exact ⟨hopen, .inl ⟨hconnecting.pathState, (hkeeps _).mpr hconnecting.pending,
        fun e he => hconnecting.only e (hsub e he)⟩⟩
    · exact ⟨hopen, .inr ⟨hconnected.pathState, (hkeeps _).mpr hconnected.pending,
        mt (hkeeps _).mp hconnected.none⟩⟩

end SenderTimers

namespace WebrtcSender

variable {s s' : WebrtcSender} {e : Input}

/-! ## What functions of the sender do to timers -/

theorem send_timers (message : WebrtcMessage) (payload : Nat) :
    (s.send message payload).timers = s.timers := by
  unfold send
  split <;> rfl

theorem fileSegments_timers (timestamp : BitVec 32) (total i : Nat) (splits : List (BitVec 16)) :
    (fileSegments timestamp total i s splits).timers = s.timers := by
  induction splits generalizing i s with
  | nil => rfl
  | cons dataSize rest ih => exact ih (i + 1)

theorem targetReceive_timers {len : Nat} (h : s.targetReceive len = some s') :
    s'.timers = s.timers := by
  unfold targetReceive at h
  split at h
  · obtain rfl := Option.some.inj h
    exact fileSegments_timers _ _ _ _
  · exact absurd h nofun

theorem timeToSendPacket_timers (sequenceNumber : BitVec 16) :
    (s.timeToSendPacket sequenceNumber).timers = s.timers := by
  unfold timeToSendPacket
  split
  · rfl
  · exact send_timers _ _

theorem runModules_timers (paced : List (BitVec 16)) :
    (paced.foldl timeToSendPacket s).timers = s.timers := by
  induction paced generalizing s with
  | nil => rfl
  | cons sequenceNumber rest ih => exact ih.trans (timeToSendPacket_timers sequenceNumber)

/-- An attempt to connect. -/
theorem connect_timers (h : s.pathState = .idle ∨ s.pathState = .connecting) :
    s.connect.timers = { s.timers with
      pathState := .connecting
      rxTimer := s.queue.nextId
      queue := s.queue.schedule (milliSeconds s.rttRecord.rtt) .connect } := by
  have hattempt : s.pathState = .idle ∨ s.pathState = .disconnected ∨
      s.pathState = .connecting := by
    rcases h with h | h
    · exact .inl h
    · exact .inr (.inr h)
  unfold connect send
  cases hopen : s.hasSocket <;> simp [hattempt, timers, hopen]

theorem startApplication_timers (h : s.pathState = .idle) :
    s.startApplication.timers = { s.timers with
      hasSocket := true
      running := true
      started := true
      pathState := .connecting
      rxTimer := s.queue.nextId
      queue := s.queue.schedule (milliSeconds s.rttRecord.rtt) .connect } :=
  @connect_timers { s with hasSocket := true, running := true, started := true } (.inl h)

theorem connect_sent (h : s.pathState = .connecting) (hopen : s.hasSocket = true) :
    s.connect.sent ≠ s.sent := by
  unfold connect send
  simp [h, hopen]

theorem sendPing_timers (hexpired : s.queue.isExpired s.pingTimer = true) :
    s.sendPing.timers = { s.timers with
      queue := s.queue.schedule (milliSeconds s.rttRecord.rtt) .sendPing } := by
  unfold sendPing send
  cases hopen : s.hasSocket <;> simp [hexpired, timers, setQueue, hopen]

theorem sendPing_sent (hexpired : s.queue.isExpired s.pingTimer = true)
    (hopen : s.hasSocket = true) : s.sendPing.sent ≠ s.sent := by
  unfold sendPing send
  simp [hexpired, hopen, setQueue]

theorem process_timers {paced : List (BitVec 16)} (h : s.process paced = some s') :
    s'.timers = { s.timers with
      pm := some s.queue.nextId
      queue := s.queue.schedule (milliSeconds nextCheckpoint) .process } := by
  unfold process at h
  split at h
  · exact absurd h nofun
  · obtain rfl := Option.some.inj h
    exact congrArg (fun v : SenderTimers => { v with
      pm := some v.queue.nextId
      queue := v.queue.schedule (milliSeconds nextCheckpoint) .process })
      (runModules_timers paced)

theorem generate_timers {len : Nat} (hexpired : s.queue.isExpired s.generatorTimer = true)
    (h : s.generate len = some s') : s'.timers = { s.timers with
      generatorTimer := s.queue.nextId
      queue := s.queue.schedule (milliSeconds s.generatorFs) .generate } := by
  unfold generate at h
  rw [if_pos hexpired] at h
  obtain ⟨s₁, htarget, rfl⟩ := Option.map_eq_some_iff.mp h
  exact congrArg (fun v : SenderTimers => { v with
    generatorTimer := v.queue.nextId
    queue := v.queue.schedule (milliSeconds v.generatorFs) .generate })
    (targetReceive_timers htarget)

/-! ## Steps -/

/-- Until the stop, the timers are in order. -/
def Inv (s : WebrtcSender) : Prop := s.stopped = false → s.timers.Live

theorem new_inv (peerIp : BitVec 32) (peerPort : BitVec 16) (generatorFs : Nat) :
    (new peerIp peerPort generatorFs).Inv := by
  intro _
  have hnone : ∀ a, ¬ (EventQueue.empty : EventQueue SenderEvent).IsPending a := by
    rintro a ⟨e, he, _⟩
    exact List.not_mem_nil he
  exact ⟨⟨none, rfl, .of_absent (hnone _)⟩, .of_absent (hnone _), .of_absent (hnone _),
    .none _ _, fun _ => ⟨rfl, rfl⟩, nofun⟩

/-- An event runs, and the timers stay in order. -/
theorem runEvent_live {queue : EventQueue SenderEvent} {ev : Event SenderEvent} {len : Nat}
    {paced : List (BitVec 16)} (h : s.timers.Live) (hpop : s.queue.pop = some (ev, queue))
    (hrun : (s.setQueue queue).runEvent len paced ev.action = some s') : s'.timers.Live := by
  have hmem : ev ∈ s.timers.queue.pending := (pop_eq_some hpop).1
  cases ha : ev.action with
  | connect =>
      rw [ha] at hrun
      obtain rfl := Option.some.inj hrun
      rw [@connect_timers (s.setQueue queue) (.inr (h.connecting hmem ha).2.pathState)]
      exact h.connect hpop ha
  | sendPing =>
      rw [ha] at hrun
      obtain rfl := Option.some.inj hrun
      obtain ⟨hexpired, hlive⟩ := @SenderTimers.Live.sendPing _ _ _
        (milliSeconds s.rttRecord.rtt) h hpop ha
      rw [@sendPing_timers (s.setQueue queue) hexpired]
      exact hlive
  | process =>
      rw [ha] at hrun
      rw [process_timers hrun]
      exact h.process hpop ha
  | generate =>
      rw [ha] at hrun
      obtain ⟨hexpired, hlive⟩ := @SenderTimers.Live.generate _ _ _
        (milliSeconds s.generatorFs) h hpop ha
      rw [@generate_timers (s.setQueue queue) _ _ hexpired hrun]
      exact hlive

theorem recvPacket_live {message : WebrtcMessage} (h : s.timers.Live)
    (hrecv : s.recvPacket message = some s') : s'.timers.Live := by
  unfold recvPacket at hrecv
  split at hrecv
  · cases message with
    | connectAck cid result =>
        unfold processConnectAck at hrecv
        simp only at hrecv
        split at hrecv
        · rename_i hstate
          split at hrecv
          · exact absurd hrecv nofun
          · obtain rfl := Option.some.inj hrecv
            exact h.connectAck hstate
        · obtain rfl := Option.some.inj hrecv
          exact h
    | feedback payload =>
        simp only at hrecv
        split at hrecv
        · obtain rfl := Option.some.inj hrecv
          exact h
        · exact absurd hrecv nofun
    | ping ts =>
        obtain rfl := Option.some.inj hrecv
        rw [send_timers]
        exact h
    | pong ts =>
        simp only at hrecv
        split at hrecv
        · obtain rfl := Option.some.inj hrecv
          exact h
        · exact absurd hrecv nofun
    | connect cid | seg seg | other mid =>
        obtain rfl := Option.some.inj hrecv
        exact h
  · obtain rfl := Option.some.inj hrecv
    exact h

/-! ### The stop -/

theorem connect_stopped (s : WebrtcSender) : s.connect.stopped = s.stopped := by
  have hcancel : ∀ s : WebrtcSender, (if s.pathState = .connected then
      s.setQueue (s.queue.cancel s.rxTimer) else s).stopped = s.stopped := by
    intro s
    split <;> rfl
  unfold connect
  refine (hcancel _).trans ?_
  split
  · exact congrArg SenderTimers.stopped (send_timers _ _)
  · rfl

/-- No event that runs undoes a stop. -/
theorem runEvent_stopped {len : Nat} {paced : List (BitVec 16)} {a : SenderEvent}
    (h : s.runEvent len paced a = some s') : s'.stopped = s.stopped := by
  cases a with
  | connect =>
      obtain rfl := Option.some.inj h
      exact connect_stopped s
  | sendPing =>
      obtain rfl := Option.some.inj h
      by_cases hexpired : s.queue.isExpired s.pingTimer = true
      · exact congrArg SenderTimers.stopped (sendPing_timers hexpired)
      · unfold sendPing
        rw [if_neg hexpired]
  | process => exact congrArg SenderTimers.stopped (process_timers h)
  | generate =>
      by_cases hexpired : s.queue.isExpired s.generatorTimer = true
      · exact congrArg SenderTimers.stopped (generate_timers hexpired h)
      · unfold runEvent generate at h
        rw [if_neg hexpired] at h
        obtain rfl := Option.some.inj h
        rfl

theorem recvPacket_stopped {message : WebrtcMessage} (h : s.recvPacket message = some s') :
    s'.stopped = s.stopped := by
  unfold recvPacket processConnectAck at h
  split at h
  · split at h
    · split at h
      · split at h
        · exact absurd h nofun
        · obtain rfl := Option.some.inj h
          rfl
      · obtain rfl := Option.some.inj h
        rfl
    · split at h
      · obtain rfl := Option.some.inj h
        rfl
      · exact absurd h nofun
    · obtain rfl := Option.some.inj h
      exact congrArg SenderTimers.stopped (send_timers _ _)
    · split at h
      · obtain rfl := Option.some.inj h
        rfl
      · exact absurd h nofun
    · obtain rfl := Option.some.inj h
      rfl
  · obtain rfl := Option.some.inj h
    rfl

theorem stopApplication_eq_some (h : s.stopApplication = some s') :
    ∃ timer, s.pm = some timer ∧ s' = { s with
      running := false
      stopped := true
      pm := none
      queue := ((s.queue.cancel timer).cancel s.pingTimer).cancel s.generatorTimer } := by
  unfold stopApplication at h
  split at h
  · exact absurd h nofun
  · rename_i timer htimer
    obtain rfl := Option.some.inj h
    refine ⟨timer, htimer, ?_⟩
    by_cases hexpired : (s.queue.cancel timer).isExpired s.pingTimer = true
    · rw [if_pos hexpired, cancel_of_isExpired hexpired]
    · rw [if_neg hexpired]

theorem Inv.step (h : s.Inv) (hstep : s.Step e s') : s'.Inv := by
  intro hstopped
  cases e with
  | start =>
      obtain ⟨hidle, rfl⟩ := step_start.mp hstep
      unfold startApplication at hstopped
      rw [connect_stopped] at hstopped
      have hlive := h hstopped
      rw [startApplication_timers (hlive.idle hidle).1]
      exact hlive.start hidle
  | stop =>
      obtain ⟨_, hstop⟩ := step_stop.mp hstep
      obtain ⟨timer, _, rfl⟩ := stopApplication_eq_some hstop
      exact absurd hstopped Bool.noConfusion
  | packet message => exact recvPacket_live (h (recvPacket_stopped hstep ▸ hstopped)) hstep
  | timer len paced =>
      obtain ⟨ev, queue, hpop, hrun⟩ := step_timer.mp hstep
      rw [runEvent_stopped hrun] at hstopped
      exact runEvent_live (h hstopped) hpop hrun
  | wait t =>
      obtain ⟨queue, hqueue, rfl⟩ := step_wait.mp hstep
      exact (h hstopped).wait hqueue

/-! ## After the stop -/

/-- Nothing is to come, and the application does not start any more. -/
structure Halted (s : WebrtcSender) : Prop where
  started : s.started = true
  running : s.running = false
  pending : s.queue.pending = []

theorem Halted.step (h : s.Halted) (hstep : s.Step e s') : s'.Halted ∧ s.TimerSilent e s' := by
  cases e with
  | start =>
      obtain ⟨hidle, _⟩ := step_start.mp hstep
      exact absurd (hidle.symm.trans h.started) Bool.false_ne_true
  | stop =>
      obtain ⟨_, hstop⟩ := step_stop.mp hstep
      obtain ⟨timer, _, rfl⟩ := stopApplication_eq_some hstop
      refine ⟨⟨h.started, rfl, ?_⟩, fun htimer => absurd htimer Bool.false_ne_true⟩
      simp [cancel, keep, h.pending]
  | packet message =>
      unfold Step step? recvPacket at hstep
      simp only [h.running, Bool.false_eq_true, if_false] at hstep
      obtain rfl := Option.some.inj hstep
      exact ⟨h, fun htimer => absurd htimer Bool.false_ne_true⟩
  | timer len paced =>
      obtain ⟨ev, queue, hpop, _⟩ := step_timer.mp hstep
      exact absurd hpop (pop_of_empty h.pending)
  | wait t =>
      obtain ⟨queue, hqueue, rfl⟩ := step_wait.mp hstep
      exact ⟨⟨h.started, h.running, (advance?_eq_some hqueue).1.trans h.pending⟩,
        fun htimer => absurd htimer Bool.false_ne_true⟩

/-- A retry of a path that is connecting, or a ping that is not stored, sends a packet. -/
theorem not_silent_of_pending (hopen : s.hasSocket = true) (hpending : s.queue.pending ≠ [])
    (hconnect : s.queue.IsPending .connect → s.pathState = .connecting)
    (hexpired : s.queue.isExpired s.pingTimer = true)
    (hloose : ∀ e ∈ s.queue.pending, e.action = .connect ∨ e.action = .sendPing) :
    ¬ Always Step TimerSilent s := by
  intro halways
  obtain ⟨ev, queue, hpop⟩ := exists_pop hpending
  obtain ⟨hmem, _, hrest⟩ := pop_eq_some hpop
  have hexpired' : queue.isExpired s.pingTimer = true := by
    rw [isExpired_iff] at hexpired ⊢
    exact fun e he => hexpired e ((hrest e).mp he).1
  rcases hloose ev hmem with ha | ha
  · have hstep : s.Step (.timer 0 []) (s.setQueue queue).connect :=
      step_timer.mpr ⟨ev, queue, hpop, by rw [ha]; rfl⟩
    exact @connect_sent (s.setQueue queue) (hconnect ⟨ev, hmem, ha⟩) hopen
      (halways.head hstep rfl)
  · have hstep : s.Step (.timer 0 []) (s.setQueue queue).sendPing :=
      step_timer.mpr ⟨ev, queue, hpop, by rw [ha]; rfl⟩
    exact @sendPing_sent (s.setQueue queue) hexpired' hopen (halways.head hstep rfl)

/-- An application that starts after its stop tries to connect until it is answered. -/
theorem not_silent_of_start (hidle : s.started = false) (hstate : s.pathState = .idle)
    (hempty : s.queue.pending = [])
    (hfresh : ∀ uid, s.pingTimer = some uid → uid < s.queue.nextUid) :
    ¬ Always Step TimerSilent s := by
  intro halways
  have htimers := startApplication_timers hstate
  have hqueue : s.startApplication.queue =
      s.queue.schedule (milliSeconds s.rttRecord.rtt) .connect :=
    congrArg SenderTimers.queue htimers
  have hping : s.startApplication.pingTimer = s.pingTimer :=
    congrArg SenderTimers.pingTimer htimers
  refine not_silent_of_pending (congrArg SenderTimers.hasSocket htimers) ?_
    (fun _ => congrArg SenderTimers.pathState htimers) ?_ ?_
    (halways.tail (step_start.mpr ⟨hidle, rfl⟩))
  · rw [hqueue, schedule_pending]
    exact List.append_ne_nil_of_right_ne_nil _ (List.cons_ne_nil _ _)
  · rw [hqueue, hping, isExpired_schedule hfresh, isExpired_iff, hempty]
    exact fun e he => absurd he List.not_mem_nil
  · intro e he
    rw [hqueue, schedule_pending, hempty, List.nil_append] at he
    obtain rfl := List.mem_singleton.mp he
    exact .inl rfl

/-- **A stop is final** if and only if `m_pingTimer` is still to come: it lets retries go on,
and later pings are stored nowhere. -/
theorem stop_silent_iff {peerIp : BitVec 32} {peerPort : BitVec 16} {generatorFs : Nat}
    {es : List Input} (hrun : Run Step (new peerIp peerPort generatorFs) es s)
    (hstop : s.Step .stop s') :
    Always Step TimerSilent s' ↔ s.queue.isExpired s.pingTimer = false := by
  have hinv : s.Inv :=
    hrun.stateInvariant (new_inv peerIp peerPort generatorFs) fun _ _ _ h => h.step
  obtain ⟨hstopped, hstop⟩ := step_stop.mp hstop
  have hlive := hinv hstopped
  obtain ⟨id, hpm, hprocess⟩ := hlive.pm
  obtain ⟨timer, htimer, rfl⟩ := stopApplication_eq_some hstop
  obtain rfl : timer = id := Option.some.inj (htimer.symm.trans hpm)
  -- the events of the modules and of the generator are cancelled
  have hloose : ∀ e ∈ (((s.queue.cancel timer).cancel s.pingTimer).cancel
      s.generatorTimer).pending, e ∈ s.queue.pending ∧ some e.uid ≠ s.pingTimer ∧
        (e.action = .connect ∨ e.action = .sendPing) := by
    intro e he
    obtain ⟨he, hgenerate⟩ := mem_cancel.mp he
    obtain ⟨he, hping⟩ := mem_cancel.mp he
    obtain ⟨he, hmodules⟩ := mem_cancel.mp he
    refine ⟨he, hping, ?_⟩
    cases ha : e.action with
    | connect => exact .inl rfl
    | sendPing => exact .inr rfl
    | process => exact absurd ((hprocess.action_iff e he).mp ha) hmodules
    | generate => exact absurd ((hlive.generator.action_iff e he).mp ha) hgenerate
  by_cases hexpired : s.queue.isExpired s.pingTimer = true
  · rw [hexpired]
    refine iff_of_false ?_ Bool.noConfusion
    -- and the others are not
    have hkept : ∀ a, a = .connect ∨ a = .sendPing → s.queue.IsPending a →
        (((s.queue.cancel timer).cancel s.pingTimer).cancel s.generatorTimer).pending ≠ [] := by
      rintro a hloose ⟨e, he, rfl⟩
      apply List.ne_nil_of_mem (a := e)
      refine mem_cancel.mpr ⟨mem_cancel.mpr ⟨mem_cancel.mpr ⟨he, ?_⟩, ?_⟩, ?_⟩
      · intro hid
        have ha := (hprocess.action_iff e he).mpr hid
        simp [ha] at hloose
      · exact isExpired_iff.mp hexpired e he
      · intro hid
        have ha := (hlive.generator.action_iff e he).mpr hid
        simp [ha] at hloose
    by_cases hstarted : s.started = true
    · obtain ⟨hopen, hphase⟩ := hlive.phase hstarted
      refine not_silent_of_pending hopen ?_ ?_ ?_ fun e he => (hloose e he).2.2
      · rcases hphase with hconnecting | hconnected
        · exact hkept .connect (.inl rfl) hconnecting.pending
        · exact hkept .sendPing (.inr rfl) hconnected.pending
      · rintro ⟨e, he, ha⟩
        exact (hlive.connecting (hloose e he).1 ha).2.pathState
      · rw [isExpired_iff] at hexpired ⊢
        exact fun e he => hexpired e (hloose e he).1
    · rw [Bool.not_eq_true] at hstarted
      obtain ⟨hstate, hempty⟩ : s.pathState = .idle ∧ s.queue.pending = [] :=
        hlive.idle hstarted
      refine not_silent_of_start hstarted hstate (List.eq_nil_iff_forall_not_mem.mpr ?_)
        hlive.ping.fresh
      intro e he
      have hmem := (hloose e he).1
      rw [hempty] at hmem
      exact List.not_mem_nil hmem
  · rw [Bool.not_eq_true] at hexpired
    refine iff_of_true ?_ hexpired
    obtain ⟨e, he, hid⟩ := exists_of_running hexpired
    have hping := (hlive.ping.only e he hid e he).mpr rfl
    have hconnected := (hlive.connected he (by simp [hping])).2
    have hhalted : Halted { s with
        running := false
        stopped := true
        pm := none
        queue := ((s.queue.cancel timer).cancel s.pingTimer).cancel s.generatorTimer } := by
      refine ⟨hlive.started_of_mem he, rfl, List.eq_nil_iff_forall_not_mem.mpr ?_⟩
      intro e' he'
      obtain ⟨hmem, hne, ha | ha⟩ := hloose e' he'
      · exact hconnected.none ⟨e', hmem, ha⟩
      · obtain rfl := (hlive.ping.only e he hid e' hmem).mp ha
        exact hne hid
    exact Always.of_invariant hhalted fun _ _ _ h => h.step

end WebrtcSender

end Webrtc
