import RmcatNs3.Lib.Runs
import RmcatNs3.Razor.SimEndpoint

/-!
# The session of an initiator

When a sender exists and data is generated, and what happens after the application was
stopped. An acknowledgement makes a sender in any state, a stop and an acknowledged
disconnect keep it, a disconnect of the peer deletes it and leaves the generator running,
and nothing cancels the retry of the connection.
-/

namespace Razor

open Runs EventQueue

namespace SimEndpoint

/-- Data is being generated: another `GenerateFakeData` is to come. -/
def GeneratesData (s : SimEndpoint) : Prop :=
  s.queue.IsPending .generateFakeData

/-- The number of `SIM_CONNECT` messages sent. -/
def connectsSent (s : SimEndpoint) : Nat :=
  s.sent.countP fun d => d.2.2.1.isConnect

/-- The sender object that exists. -/
def senderObject (s : SimEndpoint) : Option Nat :=
  s.sender.map (·.1)

/-- A sender exists, and data is being generated, only while the session is connected. -/
def OnlyConnected (s : SimEndpoint) : Prop :=
  s.senderObject.isSome ∨ s.GeneratesData → s.state = .connected

/-- A step that keeps the session in order: a sender and data only while connected, and
no connection attempt and no new sender once the application was stopped. -/
structure Orderly (s s' : SimEndpoint) : Prop where
  connected : s'.OnlyConnected
  noConnect : s.stopped = true → s'.connectsSent = s.connectsSent
  noSender : s.stopped = true → ∀ obj, s'.senderObject = some obj → s.senderObject = some obj

/-- What must hold when a message arrives. -/
def SafeMessage (s : SimEndpoint) : SimMessage → Prop
  | .connectAck _ _ => s.senderObject.isSome ∨
      s.stopped = false ∧ (s.state = .connecting ∨ s.state = .connected)
  | .disconnect _ => s.senderObject = none
  | .disconnectAck _ _ => s.senderObject = none
  | _ => True

/-- What must hold when `do_connect` runs: an attempt is made only before the stop, and
giving up finds no sender. -/
def SafeConnect (s : SimEndpoint) : Prop :=
  if s.conCount = 0 then s.senderObject = none else s.stopped = false

def SafeCall (s : SimEndpoint) : Input → Prop
  | .start => s.senderObject = none ∧ (s.stopped = true → s.conCount = 0)
  | .stop => s.senderObject = none
  | .packet _ _ message _ _ => s.SafeMessage message
  | .timer _ => ∀ e queue, s.queue.pop = some (e, queue) → e.action = .doConnect →
      s.SafeConnect

/-- What holds between the steps of an orderly run: as long as there is a sender, and only
then, its generator is running. -/
structure SessionInv (s : SimEndpoint) : Prop where
  initiator : s.initiator = true
  receiver : s.receiver = none
  connected : s.OnlyConnected
  generates_iff : s.GeneratesData ↔ s.senderObject.isSome
  generator : s.queue.Tracks s.generateDataEvent .generateFakeData

variable {s s' s'' : SimEndpoint}

theorem senderObject_isSome : s.senderObject.isSome = s.sender.isSome := by
  simp [senderObject]

theorem SessionInv.quiet_of_none (h : s.SessionInv) (hnone : s.senderObject = none) :
    ¬s.GeneratesData := by
  rw [h.generates_iff, hnone]
  exact Bool.false_ne_true

/-- Without a sender and a generator any state is in order. -/
theorem onlyConnected_of_none (hnone : s.senderObject = none) (hdata : ¬s.GeneratesData) :
    s.OnlyConnected := by
  rintro (hsome | hgen)
  · rw [hnone] at hsome
    exact absurd hsome Bool.false_ne_true
  · exact absurd hgen hdata

/-! ## Steps that leave the session alone -/

/-- Neither the session state, the sender object nor the generator changes, and no connection
is attempted. -/
structure Quiet (s s' : SimEndpoint) : Prop where
  state : s'.state = s.state
  stopped : s'.stopped = s.stopped
  initiator : s'.initiator = s.initiator
  receiver : s.receiver = none → s'.receiver = none
  senderObject : s'.senderObject = s.senderObject
  connectsSent : s'.connectsSent = s.connectsSent
  generates_iff : s'.GeneratesData ↔ s.GeneratesData
  generator : s.queue.Tracks s.generateDataEvent .generateFakeData →
    s'.queue.Tracks s'.generateDataEvent .generateFakeData

theorem Quiet.refl (s : SimEndpoint) : Quiet s s := ⟨rfl, rfl, rfl, id, rfl, rfl, .rfl, id⟩

theorem Quiet.trans (h : Quiet s s') (h' : Quiet s' s'') : Quiet s s'' where
  state := h'.state.trans h.state
  stopped := h'.stopped.trans h.stopped
  initiator := h'.initiator.trans h.initiator
  receiver := fun hnone => h'.receiver (h.receiver hnone)
  senderObject := h'.senderObject.trans h.senderObject
  connectsSent := h'.connectsSent.trans h.connectsSent
  generates_iff := h'.generates_iff.trans h.generates_iff
  generator := fun htracks => h'.generator (h.generator htracks)

/-- Nothing changes that the session depends on. -/
theorem Quiet.of_eq (hstate : s'.state = s.state) (hstopped : s'.stopped = s.stopped)
    (hinit : s'.initiator = s.initiator) (hreceiver : s.receiver = none → s'.receiver = none)
    (hsender : s'.senderObject = s.senderObject) (hsent : s'.sent = s.sent)
    (hqueue : s'.queue = s.queue) (hgenerator : s'.generateDataEvent = s.generateDataEvent) :
    Quiet s s' where
  state := hstate
  stopped := hstopped
  initiator := hinit
  receiver := hreceiver
  senderObject := hsender
  connectsSent := by
    unfold SimEndpoint.connectsSent
    rw [hsent]
  generates_iff := by
    unfold GeneratesData
    rw [hqueue]
  generator := fun htracks => hqueue.symm ▸ hgenerator.symm ▸ htracks

/-- Another event is scheduled. -/
theorem schedule_quiet (s : SimEndpoint) (delay : Nat) {a : EndpointEvent}
    (hother : a ≠ .generateFakeData) :
    Quiet s { s with queue := s.queue.schedule delay a } where
  state := rfl
  stopped := rfl
  initiator := rfl
  receiver := id
  senderObject := rfl
  connectsSent := rfl
  generates_iff := isPending_schedule.trans (or_iff_left hother)
  generator := fun htracks => htracks.schedule hother

theorem OnlyConnected.of_quiet (h : s.OnlyConnected) (hq : Quiet s s') : s'.OnlyConnected := by
  unfold OnlyConnected
  rw [hq.state, hq.senderObject, hq.generates_iff]
  exact h

theorem SessionInv.of_quiet (h : s.SessionInv) (hq : Quiet s s') : s'.SessionInv where
  initiator := hq.initiator.trans h.initiator
  receiver := hq.receiver h.receiver
  connected := h.connected.of_quiet hq
  generates_iff := by rw [hq.generates_iff, hq.senderObject, h.generates_iff]
  generator := hq.generator h.generator

theorem Orderly.of_quiet (h : s.OnlyConnected) (hq : Quiet s s') : Orderly s s' where
  connected := h.of_quiet hq
  noConnect := fun _ => hq.connectsSent
  noSender := fun _ _ hobj => hq.senderObject ▸ hobj

/-- An orderly step that ends outside a connected session leaves no sender. -/
theorem Orderly.senderObject_eq_none (ho : Orderly s s') (hstate : s'.state ≠ .connected) :
    s'.senderObject = none := by
  by_contra hne
  exact hstate (ho.connected (.inl (Option.isSome_iff_ne_none.mpr hne)))

/-- What is sent is not a connection attempt. -/
theorem send_quiet (s : SimEndpoint) {message : SimMessage} (payload : Nat)
    (hmessage : message.isConnect = false) : Quiet s (s.send message payload) where
  state := rfl
  stopped := rfl
  initiator := rfl
  receiver := id
  senderObject := rfl
  connectsSent := by
    unfold connectsSent send
    rw [List.countP_append, List.countP_singleton, hmessage]
    rfl
  generates_iff := .rfl
  generator := id

theorem pacePacketSend_quiet (s : SimEndpoint) (packetId : BitVec 32) :
    Quiet s (s.pacePacketSend packetId) := by
  unfold pacePacketSend
  split
  · exact .refl s
  · rename_i obj snd hsender
    split
    · exact .refl s
    · refine Quiet.trans ?_ (send_quiet _ _ rfl)
      exact .of_eq rfl rfl rfl id (by simp [senderObject, hsender]) rfl rfl rfl

theorem runCalls_quiet {calls : List CcCall} (h : s.runCalls calls = some s') :
    Quiet s s' := by
  induction calls generalizing s with
  | nil => exact Option.some.inj h ▸ .refl s
  | cons c rest ih =>
      cases c with
      | pacePacketSend packetId => exact (pacePacketSend_quiet s packetId).trans (ih h)
      | changeRate kbps =>
          refine Quiet.trans ?_ (ih h)
          exact .of_eq rfl rfl rfl id rfl rfl rfl rfl
      | sendFeedback payload =>
          unfold runCalls at h
          split at h
          · exact (send_quiet s 0 rfl).trans (ih h)
          · exact absurd h nofun

theorem sendPing_quiet (s : SimEndpoint) : Quiet s s.sendPing := by
  unfold sendPing
  split
  · refine Quiet.trans ?_ (send_quiet _ _ rfl)
    refine (schedule_quiet s (milliSeconds (4 * s.rtt).toNat) (a := .sendPing) nofun).trans ?_
    exact .of_eq rfl rfl rfl id rfl rfl rfl rfl
  · exact .refl s

theorem putData_quiet {len : BitVec 32} (h : s.putData len = some s') : Quiet s s' := by
  unfold putData at h
  split at h
  · exact Option.some.inj h ▸ .refl s
  · split at h
    · exact Option.some.inj h ▸ .refl s
    · rename_i obj snd hsender
      split at h
      · exact absurd h nofun
      · obtain rfl := Option.some.inj h
        exact .of_eq rfl rfl rfl id (by simp [senderObject, hsender]) rfl rfl rfl

/-- `GenerateFakeData` in its turn: it puts some data, and runs again later. -/
theorem generateFakeData_eq {dataBytes : Nat → BitVec 32 → BitVec 32}
    (hexpired : s.queue.isExpired s.generateDataEvent = true)
    (h : s.generateFakeData dataBytes = some s') :
    ∃ s₁ delay, Quiet s s₁ ∧ s' = { s₁ with
      generateDataEvent := s₁.queue.nextId
      queue := s₁.queue.schedule delay .generateFakeData } := by
  unfold generateFakeData at h
  rw [if_pos hexpired] at h
  simp only at h
  split at h
  · exact absurd h nofun
  · rename_i s₁ hput
    have hstart : Quiet s { s with lastGenerateDataTime := s.nowMs } :=
      .of_eq rfl rfl rfl id rfl rfl rfl rfl
    exact ⟨s₁, _, hstart.trans (putData_quiet hput), (Option.some.inj h).symm⟩

theorem paceHeartBeat_quiet {obj : Nat} {calls : List CcCall}
    (h : s.paceHeartBeat obj calls = some s') : Quiet s s' := by
  unfold paceHeartBeat at h
  split at h
  · exact absurd h nofun
  · rename_i obj' snd hsender
    split at h
    · rename_i hobj
      split at h
      · split at h
        · exact absurd h nofun
        · rename_i s₁ hcalls
          have hquiet := runCalls_quiet hcalls
          unfold rearmSender at h
          split at h
          · exact absurd h nofun
          · rename_i obj₁ snd₁ hsender₁
            obtain rfl := Option.some.inj h
            refine (hquiet.trans (schedule_quiet s₁ (milliSeconds paceTime)
              (a := .paceHeartBeat obj) nofun)).trans ?_
            refine .of_eq rfl rfl rfl id ?_ rfl rfl rfl
            have hsame := hquiet.senderObject
            simp only [senderObject, hsender, hsender₁, Option.map_some, Option.some_inj]
              at hsame ⊢
            rw [hsame, hobj]
      · exact Option.some.inj h ▸ .refl s
    · exact absurd h nofun

/-- Without a receiver its timers do not run. -/
theorem heartBeat_none (h : s.receiver = none) (obj : Nat) (calls : List CcCall) :
    s.heartBeat obj calls = none := by
  unfold heartBeat
  rw [h]

theorem statsRecvRate_none (h : s.receiver = none) (obj : Nat) :
    s.statsRecvRate obj = none := by
  unfold statsRecvRate
  rw [h]

theorem processPong_quiet (s : SimEndpoint) (ts : BitVec 64) : Quiet s (s.processPong ts) := by
  unfold processPong
  simp only
  split
  · exact .of_eq rfl rfl rfl id rfl rfl rfl rfl
  · exact .of_eq rfl rfl rfl id rfl rfl rfl rfl

/-! ## Steps that change the session -/

/-- `StopApplication` of an initiator. -/
theorem stopApplication_eq (hinit : s.initiator = true) :
    s.stopApplication = { s with
      stopped := true
      queue := (s.queue.cancel s.pingEvent).cancel s.generateDataEvent
      state := .disconnected }.send (.disconnect s.cid) 0 := by
  simp [stopApplication, hinit, disconnect]

theorem stopApplication_connectsSent (hinit : s.initiator = true) :
    s.stopApplication.connectsSent = s.connectsSent := by
  rw [stopApplication_eq hinit]
  exact (send_quiet _ 0 rfl).connectsSent

theorem stopApplication_senderObject (hinit : s.initiator = true) :
    s.stopApplication.senderObject = s.senderObject := by
  rw [stopApplication_eq hinit]
  rfl

/-- A stop cancels events, and starts no generator. -/
theorem GeneratesData.of_stop (hinit : s.initiator = true)
    (h : s.stopApplication.GeneratesData) : s.GeneratesData := by
  rw [stopApplication_eq hinit] at h
  obtain ⟨e, he, ha⟩ := h
  exact ⟨e, (mem_cancel.mp (mem_cancel.mp he).1).1, ha⟩

/-- A session without a sender is stopped. -/
theorem SessionInv.stop (h : s.SessionInv) (hnone : s.senderObject = none) :
    s.stopApplication.SessionInv where
  initiator := by
    rw [stopApplication_eq h.initiator]
    exact h.initiator
  receiver := by
    rw [stopApplication_eq h.initiator]
    exact h.receiver
  connected := onlyConnected_of_none ((stopApplication_senderObject h.initiator).trans hnone)
    fun hgen => h.quiet_of_none hnone (.of_stop h.initiator hgen)
  generates_iff := by
    rw [stopApplication_senderObject h.initiator, hnone]
    refine iff_of_false ?_ Bool.false_ne_true
    exact fun hgen => h.quiet_of_none hnone (.of_stop h.initiator hgen)
  generator := by
    rw [stopApplication_eq h.initiator]
    exact h.generator.cancel.cancel

theorem stop_orderly_iff (h : s.SessionInv) :
    Orderly s s.stopApplication ↔ s.senderObject = none := by
  have hsender := stopApplication_senderObject h.initiator
  constructor
  · intro ho
    refine hsender ▸ ho.senderObject_eq_none ?_
    rw [stopApplication_eq h.initiator]
    exact nofun
  · intro hnone
    refine ⟨(h.stop hnone).connected, fun _ => stopApplication_connectsSent h.initiator, ?_⟩
    exact fun _ obj hobj => hsender ▸ hobj

/-- The last try stops the application. -/
theorem doConnect_of_zero (hcount : s.conCount = 0) : s.doConnect = s.stopApplication := by
  simp [doConnect, hcount]

/-- An attempt of `do_connect`. -/
theorem attempt_eq (hcount : s.conCount ≠ 0) : ∃ delay,
    s.doConnect = { s with
      reConEvent := s.queue.nextId
      queue := s.queue.schedule delay .doConnect
      conCount := s.conCount - 1 }.send (.connect s.cid [123]) 0 := by
  unfold doConnect
  rw [if_neg hcount]
  exact ⟨_, rfl⟩

theorem attempt_connectsSent (hcount : s.conCount ≠ 0) :
    s.doConnect.connectsSent = s.connectsSent + 1 := by
  obtain ⟨delay, heq⟩ := attempt_eq hcount
  rw [heq]
  unfold connectsSent send
  rw [List.countP_append, List.countP_singleton]
  rfl

/-- An attempt leaves the sender and its generator alone. -/
theorem SessionInv.attempt (h : s.SessionInv) (hcount : s.conCount ≠ 0) :
    s.doConnect.SessionInv ∧ s.doConnect.senderObject = s.senderObject := by
  obtain ⟨delay, heq⟩ := attempt_eq hcount
  have hwait := h.of_quiet (schedule_quiet s delay (a := .doConnect) nofun)
  rw [heq]
  exact ⟨⟨hwait.initiator, hwait.receiver, hwait.connected, hwait.generates_iff,
    hwait.generator⟩, rfl⟩

/-- A session that gives up has no sender. -/
theorem SessionInv.doConnect (h : s.SessionInv)
    (hnone : s.conCount = 0 → s.senderObject = none) : s.doConnect.SessionInv := by
  by_cases hcount : s.conCount = 0
  · exact (doConnect_of_zero hcount).symm ▸ h.stop (hnone hcount)
  · exact (h.attempt hcount).1

theorem SafeConnect.of_zero (h : s.SafeConnect) (hcount : s.conCount = 0) :
    s.senderObject = none := by
  unfold SafeConnect at h
  rwa [if_pos hcount] at h

/-- What `do_connect` decides when its timer runs. -/
theorem doConnect_orderly_iff (h : s.SessionInv) :
    Orderly s s.doConnect ↔ s.SafeConnect := by
  unfold SafeConnect
  by_cases hcount : s.conCount = 0
  · rw [if_pos hcount, doConnect_of_zero hcount]
    exact stop_orderly_iff h
  · rw [if_neg hcount]
    have hsent := attempt_connectsSent hcount
    obtain ⟨hinv, hsender⟩ := h.attempt hcount
    constructor
    · intro ho
      by_contra hstopped
      have hsame := ho.noConnect (by simpa using hstopped)
      omega
    · intro hnot
      refine ⟨hinv.connected, ?_, fun _ obj hobj => hsender ▸ hobj⟩
      exact fun hstopped => absurd (hnot.symm.trans hstopped) nofun

theorem startApplication_eq (hinit : s.initiator = true) :
    s.startApplication = { s.doConnect with state := .connecting } := by
  simp [startApplication, hinit, connect]

theorem doConnect_senderObject (hinit : s.initiator = true) :
    s.doConnect.senderObject = s.senderObject := by
  by_cases hcount : s.conCount = 0
  · rw [doConnect_of_zero hcount]
    exact stopApplication_senderObject hinit
  · obtain ⟨delay, heq⟩ := attempt_eq hcount
    rw [heq]
    rfl

theorem SessionInv.start (h : s.SessionInv) (hnone : s.senderObject = none) :
    s.startApplication.SessionInv := by
  have hinv := h.doConnect fun _ => hnone
  have hsender := (doConnect_senderObject h.initiator).trans hnone
  rw [startApplication_eq h.initiator]
  exact ⟨hinv.initiator, hinv.receiver,
    onlyConnected_of_none hsender (hinv.quiet_of_none hsender), hinv.generates_iff,
    hinv.generator⟩

theorem start_connectsSent (hinit : s.initiator = true) : s.startApplication.connectsSent =
    s.connectsSent + if s.conCount = 0 then 0 else 1 := by
  rw [startApplication_eq hinit]
  by_cases hcount : s.conCount = 0
  · rw [if_pos hcount, doConnect_of_zero hcount]
    exact stopApplication_connectsSent hinit
  · rw [if_neg hcount]
    exact attempt_connectsSent hcount

theorem start_orderly_iff (h : s.SessionInv) :
    Orderly s s.startApplication ↔
      s.senderObject = none ∧ (s.stopped = true → s.conCount = 0) := by
  have hsender : s.startApplication.senderObject = s.senderObject := by
    rw [startApplication_eq h.initiator]
    exact doConnect_senderObject h.initiator
  have hsent := start_connectsSent h.initiator
  constructor
  · intro ho
    constructor
    · refine hsender ▸ ho.senderObject_eq_none ?_
      rw [startApplication_eq h.initiator]
      exact nofun
    · intro hstopped
      by_contra hcount
      have hsame := ho.noConnect hstopped
      rw [if_neg hcount] at hsent
      omega
  · rintro ⟨hnone, hcount⟩
    refine ⟨(h.start hnone).connected, ?_, fun _ obj hobj => hsender ▸ hobj⟩
    intro hstopped
    rw [if_pos (hcount hstopped)] at hsent
    exact hsent

/-! ## Messages -/

theorem acceptConnection_eq (s : SimEndpoint) :
    s.acceptConnection.state = (if s.state = .connecting then .connected else s.state) ∧
      s.acceptConnection.initiator = s.initiator ∧ s.acceptConnection.sender = s.sender ∧
      s.acceptConnection.receiver = s.receiver ∧
      s.acceptConnection.connectsSent = s.connectsSent := by
  unfold acceptConnection
  split
  · exact ⟨rfl, rfl, rfl, rfl, rfl⟩
  · exact ⟨rfl, rfl, rfl, rfl, rfl⟩

/-- An accepted connection starts no generator. -/
theorem GeneratesData.of_accept (h : s.acceptConnection.GeneratesData) : s.GeneratesData := by
  unfold acceptConnection at h
  split at h
  · obtain ⟨e, he, ha⟩ := h
    rcases mem_schedule.mp he with he | rfl
    · exact ⟨e, (mem_cancel.mp he).1, ha⟩
    · exact absurd ha nofun
  · exact h

/-- A connected session is not accepted again. -/
theorem acceptConnection_of_connected (h : s.state = .connected) : s.acceptConnection = s := by
  unfold acceptConnection
  rw [if_neg]
  rw [h]
  exact nofun

theorem processConnectAck_of_some (h : s.SessionInv) (hsome : s.senderObject.isSome) :
    s.processConnectAck = s := by
  have hkeep : s.sender.isNone = false := by
    rw [senderObject_isSome] at hsome
    simpa using hsome
  unfold processConnectAck
  simp only [acceptConnection_of_connected (h.connected (.inl hsome)), hkeep,
    Bool.false_eq_true, if_false]

theorem processConnectAck_of_none (hnone : s.senderObject = none) :
    s.processConnectAck = s.acceptConnection.senderInit := by
  -- the test for a sender stands outside the one for the state
  have hmake : s.acceptConnection.sender = none := by
    rw [(acceptConnection_eq s).2.2.1]
    simpa [senderObject] using hnone
  unfold processConnectAck
  simp only [hmake, Option.isNone_none, if_true]

/-- A new sender comes with a generator. -/
theorem SessionInv.senderInit (h : s.SessionInv) (hnone : s.senderObject = none)
    (hstate : s.state = .connecting ∨ s.state = .connected) :
    s.acceptConnection.senderInit.SessionInv := by
  obtain ⟨hafter, hinit, _, hreceiver, _⟩ := acceptConnection_eq s
  have hconnected : s.acceptConnection.senderInit.state = .connected := by
    refine hafter.trans ?_
    by_cases hconnecting : s.state = .connecting
    · rw [if_pos hconnecting]
    · rw [if_neg hconnecting]
      exact hstate.resolve_left hconnecting
  -- the heartbeat of the sender is scheduled first, and then the generator
  have hidle : ¬(s.acceptConnection.queue.schedule 0
      (.paceHeartBeat s.acceptConnection.nextObject)).IsPending .generateFakeData := by
    rw [isPending_schedule, or_iff_left nofun]
    exact fun hgen => h.quiet_of_none hnone (GeneratesData.of_accept hgen)
  exact {
    initiator := hinit.trans h.initiator
    receiver := hreceiver.trans h.receiver
    connected := fun _ => hconnected
    generates_iff := iff_of_true (isPending_schedule.mpr (.inr rfl)) rfl
    generator := .of_schedule hidle }

theorem connectAck_orderly_iff (h : s.SessionInv) :
    Orderly s s.processConnectAck ↔ s.senderObject.isSome ∨
      s.stopped = false ∧ (s.state = .connecting ∨ s.state = .connected) := by
  by_cases hsome : s.senderObject.isSome
  · rw [processConnectAck_of_some h hsome]
    exact iff_of_true (.of_quiet h.connected (.refl s)) (.inl hsome)
  · have hnone := Option.not_isSome_iff_eq_none.mp hsome
    obtain ⟨hstate, _, _, _, hsent⟩ := acceptConnection_eq s
    rw [processConnectAck_of_none hnone, or_iff_right hsome]
    constructor
    · intro ho
      constructor
      · by_contra hstopped
        have hsame := ho.noSender (by simpa using hstopped) _ rfl
        rw [hnone] at hsame
        exact absurd hsame nofun
      · have hconnected := ho.connected (.inl rfl)
        rw [show s.acceptConnection.senderInit.state = _ from hstate] at hconnected
        by_cases hconnecting : s.state = .connecting
        · exact .inl hconnecting
        · rw [if_neg hconnecting] at hconnected
          exact .inr hconnected
    · rintro ⟨hstopped, hsafe⟩
      refine ⟨(h.senderInit hnone hsafe).connected, fun _ => hsent, ?_⟩
      exact fun hafter => absurd (hstopped.symm.trans hafter) nofun

theorem SessionInv.connectAck {cid result : BitVec 32} (h : s.SessionInv)
    (hsafe : s.SafeMessage (.connectAck cid result)) : s.processConnectAck.SessionInv := by
  by_cases hsome : s.senderObject.isSome
  · exact (processConnectAck_of_some h hsome).symm ▸ h
  · rw [processConnectAck_of_none (Option.not_isSome_iff_eq_none.mp hsome)]
    exact h.senderInit (Option.not_isSome_iff_eq_none.mp hsome) (hsafe.resolve_left hsome).2

/-- What the peer's disconnect leaves of an initiator. -/
theorem processDisconnect_eq (hreceiver : s.receiver = none) (cid : BitVec 32) :
    s.processDisconnect cid =
      { { s with state := .disconnected }.send (.disconnectAck cid 0) 0 with sender := none } := by
  simp [processDisconnect, deleteReceiver, deleteSender, send, hreceiver]

theorem processDisconnect_orderly_iff (h : s.SessionInv) (cid : BitVec 32) :
    Orderly s (s.processDisconnect cid) ↔ s.senderObject = none := by
  rw [processDisconnect_eq h.receiver]
  constructor
  · intro ho
    by_contra hne
    -- the generator of the deleted sender is still running
    have hgen := h.generates_iff.mpr (Option.isSome_iff_ne_none.mpr hne)
    exact absurd (ho.connected (.inr hgen)) nofun
  · intro hnone
    refine ⟨onlyConnected_of_none rfl (h.quiet_of_none hnone), ?_, fun _ _ => nofun⟩
    exact fun _ => (send_quiet { s with state := .disconnected } 0 rfl).connectsSent

theorem SessionInv.processDisconnect (h : s.SessionInv) (hnone : s.senderObject = none)
    (cid : BitVec 32) : (s.processDisconnect cid).SessionInv := by
  have hidle := h.quiet_of_none hnone
  rw [processDisconnect_eq h.receiver]
  exact ⟨h.initiator, h.receiver, onlyConnected_of_none rfl hidle,
    iff_of_false hidle Bool.false_ne_true, h.generator⟩

/-- An initiator that is asked to connect answers, and makes no receiver. -/
theorem processConnect_eq (hinit : s.initiator = true) (cid : BitVec 32) :
    s.processConnect cid = { s with state := .connected }.send (.connectAck cid 0) 0 := by
  unfold processConnect
  simp [send, hinit]

theorem SessionInv.processConnect (h : s.SessionInv) (cid : BitVec 32) :
    (s.processConnect cid).SessionInv := by
  rw [processConnect_eq h.initiator]
  exact ⟨h.initiator, h.receiver, fun _ => rfl, h.generates_iff, h.generator⟩

theorem processConnect_orderly (h : s.SessionInv) (cid : BitVec 32) :
    Orderly s (s.processConnect cid) := by
  refine ⟨(h.processConnect cid).connected, fun _ => ?_, fun _ obj hobj => ?_⟩
  · rw [processConnect_eq h.initiator]
    exact (send_quiet { s with state := .connected } 0 rfl).connectsSent
  · rw [processConnect_eq h.initiator] at hobj
    exact hobj

/-- **One message** keeps the session in order exactly if it is safe, and with it the
invariant. -/
theorem recvPacket_orderly_iff {srcIp : BitVec 32} {srcPort : BitVec 16}
    {message : SimMessage} {stale : BitVec 32} {calls : List CcCall} (h : s.SessionInv)
    (hcall : s.recvPacket srcIp srcPort message stale calls = some s') :
    (Orderly s s' ↔ s.SafeMessage message) ∧ (s.SafeMessage message → s'.SessionInv) := by
  have hquiet (hsafe : s.SafeMessage message) (hq : Quiet s s') :
      (Orderly s s' ↔ s.SafeMessage message) ∧ (s.SafeMessage message → s'.SessionInv) :=
    ⟨iff_of_true (.of_quiet h.connected hq) hsafe, fun _ => h.of_quiet hq⟩
  cases message with
  | connect cid token =>
      unfold recvPacket at hcall
      rw [if_pos h.initiator] at hcall
      have hsame := Option.some.inj hcall
      rw [← hsame]
      exact ⟨iff_of_true (processConnect_orderly h _) trivial, fun _ => h.processConnect _⟩
  | connectAck cid result =>
      obtain rfl := Option.some.inj hcall
      exact ⟨connectAck_orderly_iff h, h.connectAck⟩
  | ping ts =>
      obtain rfl := Option.some.inj hcall
      exact hquiet trivial (send_quiet s 0 rfl)
  | pong ts => exact hquiet trivial ((processPong_quiet s ts).trans (runCalls_quiet hcall))
  | seg seg =>
      unfold recvPacket at hcall
      rw [h.receiver] at hcall
      obtain rfl := Option.some.inj hcall
      exact hquiet trivial (.refl s)
  | segAck base acked nack =>
      obtain rfl := Option.some.inj hcall
      exact hquiet trivial (.refl s)
  | feedback base feedback =>
      refine hquiet trivial ?_
      unfold recvPacket at hcall
      simp only at hcall
      split at hcall
      · exact runCalls_quiet hcall
      · exact Option.some.inj hcall ▸ .refl s
  | disconnect cid =>
      obtain rfl := Option.some.inj hcall
      exact ⟨processDisconnect_orderly_iff h stale, fun hnone => h.processDisconnect hnone stale⟩
  | disconnectAck cid result =>
      obtain rfl := Option.some.inj hcall
      constructor
      · constructor
        · exact fun ho => ho.senderObject_eq_none nofun
        · intro hnone
          exact ⟨onlyConnected_of_none hnone (h.quiet_of_none hnone), fun _ => rfl,
            fun _ _ hobj => hobj⟩
      · intro hnone
        exact ⟨h.initiator, h.receiver, onlyConnected_of_none hnone (h.quiet_of_none hnone),
          h.generates_iff, h.generator⟩

/-! ## Runs -/

section Runs

variable {dataBytes : Nat → BitVec 32 → BitVec 32}

/-- The generator runs in its turn, and is scheduled again. -/
theorem generate_orderly {e : Event EndpointEvent} {queue : EventQueue EndpointEvent}
    (h : s.SessionInv) (hpop : s.queue.pop = some (e, queue))
    (haction : e.action = .generateFakeData)
    (hcall : ({ s with queue } : SimEndpoint).generateFakeData dataBytes = some s') :
    Orderly s s' ∧ s'.SessionInv := by
  have hrunning : s.GeneratesData := ⟨e, (pop_eq_some hpop).1, haction⟩
  -- the generator has one event at a time, and this one has been taken
  have hidle : ¬queue.IsPending .generateFakeData := by
    have htracks := h.generator
    rw [← haction] at htracks ⊢
    exact htracks.not_pending_of_pop hpop
  have hexpired : queue.isExpired s.generateDataEvent = true :=
    (h.generator.pop hpop).isExpired_iff.mpr hidle
  obtain ⟨s₁, delay, hq, rfl⟩ := @generateFakeData_eq { s with queue } s' dataBytes hexpired hcall
  have hstate : s₁.state = .connected := hq.state.trans (h.connected (.inr hrunning))
  have hsender : s₁.senderObject = s.senderObject := hq.senderObject
  have hidle₁ : ¬s₁.queue.IsPending .generateFakeData := fun hgen =>
    hidle (hq.generates_iff.mp hgen)
  constructor
  · exact ⟨fun _ => hstate, fun _ => hq.connectsSent, fun _ obj hobj => hsender ▸ hobj⟩
  · exact {
      initiator := hq.initiator.trans h.initiator
      receiver := hq.receiver h.receiver
      connected := fun _ => hstate
      generates_iff := iff_of_true (isPending_schedule.mpr (.inr rfl))
        (hsender.symm ▸ h.generates_iff.mp hrunning)
      generator := .of_schedule hidle₁ }

/-- Taking another event out of the queue leaves the generator. -/
theorem pop_quiet {e : Event EndpointEvent} {queue : EventQueue EndpointEvent}
    (hpop : s.queue.pop = some (e, queue)) (hother : e.action ≠ .generateFakeData) :
    Quiet s { s with queue } where
  state := rfl
  stopped := rfl
  initiator := rfl
  receiver := id
  senderObject := rfl
  connectsSent := rfl
  generates_iff := isPending_pop hpop hother.symm
  generator := fun htracks => htracks.pop hpop

/-- **One call** keeps the session in order exactly if it is safe, and with it the
invariant. -/
theorem call_orderly_iff {i : Input} (h : s.SessionInv)
    (hcall : call dataBytes s i = some s') :
    (Orderly s s' ↔ s.SafeCall i) ∧ (s.SafeCall i → s'.SessionInv) := by
  cases i with
  | start =>
      obtain rfl := Option.some.inj hcall
      exact ⟨start_orderly_iff h, fun hsafe => h.start hsafe.1⟩
  | stop =>
      obtain rfl := Option.some.inj hcall
      exact ⟨stop_orderly_iff h, h.stop⟩
  | packet srcIp srcPort message stale calls => exact recvPacket_orderly_iff h hcall
  | timer calls =>
      unfold call at hcall
      simp only at hcall
      split at hcall
      · exact absurd hcall nofun
      · rename_i e queue hpop
        -- only the retry of the connection has a condition
        have hother (hne : e.action ≠ .doConnect) : s.SafeCall (.timer calls) := by
          intro e' queue' hpop' hconnect
          obtain rfl := (Prod.mk.inj (Option.some.inj (hpop.symm.trans hpop'))).1
          exact absurd hconnect hne
        have hquiet (hne : e.action ≠ .doConnect) (hne' : e.action ≠ .generateFakeData)
            (hq : Quiet { s with queue } s') :
            (Orderly s s' ↔ s.SafeCall (.timer calls)) ∧
              (s.SafeCall (.timer calls) → s'.SessionInv) := by
          have hall := (pop_quiet hpop hne').trans hq
          exact ⟨iff_of_true (.of_quiet h.connected hall) (hother hne), fun _ => h.of_quiet hall⟩
        cases haction : e.action with
        | sendPing =>
            rw [haction] at hcall
            exact hquiet (by simp [haction]) (by simp [haction])
              (Option.some.inj hcall ▸ sendPing_quiet _)
        | doConnect =>
            rw [haction] at hcall
            obtain rfl := Option.some.inj hcall
            have hinv := h.of_quiet (pop_quiet hpop (by simp [haction]))
            have hiff := doConnect_orderly_iff hinv
            have hsafe : s.SafeCall (.timer calls) ↔ s.SafeConnect := by
              constructor
              · exact fun hcall => hcall e queue hpop haction
              · exact fun hconnect _ _ _ _ => hconnect
            rw [hsafe]
            refine ⟨?_, fun hc => hinv.doConnect hc.of_zero⟩
            exact ⟨fun ho => hiff.mp ⟨ho.connected, ho.noConnect, ho.noSender⟩,
              fun hc => ⟨(hiff.mpr hc).connected, (hiff.mpr hc).noConnect,
                (hiff.mpr hc).noSender⟩⟩
        | generateFakeData =>
            rw [haction] at hcall
            obtain ⟨ho, hinv⟩ := generate_orderly h hpop haction hcall
            exact ⟨iff_of_true ho (hother (by simp [haction])), fun _ => hinv⟩
        | paceHeartBeat obj =>
            rw [haction] at hcall
            exact hquiet (by simp [haction]) (by simp [haction]) (paceHeartBeat_quiet hcall)
        -- an initiator has no receiver whose timers could run
        | heartBeat obj =>
            rw [haction] at hcall
            have hcall' := @heartBeat_none { s with queue } h.receiver obj calls
            exact absurd (hcall'.symm.trans hcall) nofun
        | statsRecvRate obj =>
            rw [haction] at hcall
            have hcall' := @statsRecvRate_none { s with queue } h.receiver obj
            exact absurd (hcall'.symm.trans hcall) nofun

variable (dataBytes)

/-- A step that is safe for the session. -/
def SafeStep (s : SimEndpoint) (e : Nat × Input) (s' : SimEndpoint) : Prop :=
  ∃ queue, s.queue.advance? e.1 = some queue ∧
    call dataBytes { s with queue } e.2 = some s' ∧ SafeCall { s with queue } e.2

variable {dataBytes}

/-- Time that passes leaves the session alone. -/
theorem SessionInv.advance {t : Nat} {queue : EventQueue EndpointEvent} (h : s.SessionInv)
    (hqueue : s.queue.advance? t = some queue) :
    ({ s with queue } : SimEndpoint).SessionInv ∧
      (({ s with queue } : SimEndpoint).GeneratesData ↔ s.GeneratesData) := by
  obtain ⟨hpending, _, hnext⟩ := advance?_eq_some hqueue
  have hgen : ({ s with queue } : SimEndpoint).GeneratesData ↔ s.GeneratesData := by
    unfold GeneratesData IsPending
    rw [hpending]
  refine ⟨⟨h.initiator, h.receiver, ?_, hgen.trans h.generates_iff, ?_⟩, hgen⟩
  · exact fun hor => h.connected (hor.imp_right hgen.mp)
  · exact h.generator.of_subset (Nat.le_of_eq hnext.symm) fun e he => hpending ▸ he

theorem SafeStep.kept {e : Nat × Input} (h : s.SessionInv) (hstep : SafeStep dataBytes s e s') :
    s'.SessionInv := by
  obtain ⟨queue, hqueue, hcall, hsafe⟩ := hstep
  exact (call_orderly_iff (h.advance hqueue).1 hcall).2 hsafe

end Runs

end SimEndpoint

end Razor
