import RmcatNs3.Lib.Runs
import RmcatNs3.Razor.SimEndpoint

/-!
# The events of an endpoint

Which events call the sender and the receiver of an endpoint, and which of them their
destructors cancel. `~SimReceiver` cancels both timers of the receiver; `~SimSender`
cancels nothing, and a sender always has its next heartbeat in the simulator.
-/

namespace Razor

open Runs EventQueue

/-- What the events of an endpoint depend on. -/
structure EventState where
  queue : EventQueue EndpointEvent
  sender : Option (Nat × EventId)
  receiver : Option (Nat × SimReceiver)
  nextObject : Nat
  reConEvent : EventId
  pingEvent : EventId
  generateDataEvent : EventId

def SimEndpoint.events (s : SimEndpoint) : EventState where
  queue := s.queue
  sender := s.sender.map fun b => (b.1, b.2.paceEvent)
  receiver := s.receiver
  nextObject := s.nextObject
  reConEvent := s.reConEvent
  pingEvent := s.pingEvent
  generateDataEvent := s.generateDataEvent

namespace EventState

/-- The object that the event calls exists. -/
def Alive (v : EventState) : EndpointEvent → Prop
  | .paceHeartBeat obj => ∃ id, v.sender = some (obj, id)
  | .heartBeat obj => ∃ r, v.receiver = some (obj, r)
  | .statsRecvRate obj => ∃ r, v.receiver = some (obj, r)
  | _ => True

def AllLive (v : EventState) : Prop :=
  ∀ e ∈ v.queue.pending, v.Alive e.action

/-- The event calls the endpoint itself. -/
def isOwn : EndpointEvent → Bool
  | .sendPing => true
  | .doConnect => true
  | .generateFakeData => true
  | _ => false

/-- The handles of a receiver track its events, which the first packet starts. -/
structure ReceiverInv (q : EventQueue EndpointEvent) (obj : Nat) (r : SimReceiver) : Prop where
  heartbeat : q.Tracks r.heartbeatEvent (.heartBeat obj)
  statsRate : q.Tracks r.statsRateEvent (.statsRecvRate obj)
  first : r.recvFirstPacket = true →
    ¬ q.IsPending (.heartBeat obj) ∧ ¬ q.IsPending (.statsRecvRate obj)

/-- Events call objects that exist, and handles belong to their events. -/
structure HandlesInv (v : EventState) : Prop where
  live : v.AllLive
  sender : ∀ obj id, v.sender = some (obj, id) →
    obj < v.nextObject ∧ v.queue.Tracks id (.paceHeartBeat obj)
  receiver : ∀ obj r, v.receiver = some (obj, r) →
    obj < v.nextObject ∧ ReceiverInv v.queue obj r
  reCon : v.queue.Refers v.reConEvent .doConnect
  ping : v.queue.Refers v.pingEvent .sendPing
  generate : v.queue.Refers v.generateDataEvent .generateFakeData

/-- The next heartbeat of a sender is pending. -/
def Paced (v : EventState) : Prop :=
  ∀ obj id, v.sender = some (obj, id) → v.queue.IsPending (.paceHeartBeat obj)

variable {v : EventState} {q : EventQueue EndpointEvent} {e : Event EndpointEvent}

/-! ## Changes of the queue -/

theorem ReceiverInv.of_subset {q' : EventQueue EndpointEvent} {obj : Nat} {r : SimReceiver}
    (h : ReceiverInv q obj r) (hnext : q.nextUid ≤ q'.nextUid)
    (hsub : ∀ e ∈ q'.pending, e ∈ q.pending) : ReceiverInv q' obj r where
  heartbeat := h.heartbeat.of_subset hnext hsub
  statsRate := h.statsRate.of_subset hnext hsub
  first := by
    intro hfirst
    obtain ⟨hheart, hstats⟩ := h.first hfirst
    constructor
    · rintro ⟨e, he, ha⟩
      exact hheart ⟨e, hsub e he, ha⟩
    · rintro ⟨e, he, ha⟩
      exact hstats ⟨e, hsub e he, ha⟩

/-- Some events have run or were cancelled. -/
theorem HandlesInv.of_subset (h : HandlesInv v) (hnext : v.queue.nextUid ≤ q.nextUid)
    (hsub : ∀ e ∈ q.pending, e ∈ v.queue.pending) : HandlesInv { v with queue := q } where
  live := fun e he => h.live e (hsub e he)
  sender := fun obj id hs =>
    ⟨(h.sender obj id hs).1, (h.sender obj id hs).2.of_subset hnext hsub⟩
  receiver := fun obj r hr =>
    ⟨(h.receiver obj r hr).1, (h.receiver obj r hr).2.of_subset hnext hsub⟩
  reCon := h.reCon.of_subset hnext hsub
  ping := h.ping.of_subset hnext hsub
  generate := h.generate.of_subset hnext hsub

theorem HandlesInv.cancel (h : HandlesInv v) (id : EventId) :
    HandlesInv { v with queue := v.queue.cancel id } :=
  h.of_subset (Nat.le_refl _) fun _ he => (mem_cancel.mp he).1

theorem HandlesInv.pop (h : HandlesInv v) (hpop : v.queue.pop = some (e, q)) :
    HandlesInv { v with queue := q } :=
  h.of_subset (Nat.le_of_eq (pop_nextUid hpop).symm)
    fun e' he' => (((pop_eq_some hpop).2.2 e').mp he').1

/-- The endpoint schedules an event of its own. -/
theorem HandlesInv.schedule (h : HandlesInv v) (delay : Nat) {a : EndpointEvent}
    (hown : isOwn a = true) : HandlesInv { v with queue := v.queue.schedule delay a } where
  live := by
    intro e he
    rcases mem_schedule.mp he with he | rfl
    · exact h.live e he
    · cases a with
      | sendPing => trivial
      | doConnect => trivial
      | generateFakeData => trivial
      | _ => exact absurd hown Bool.false_ne_true
  sender := by
    intro obj id hs
    refine ⟨(h.sender obj id hs).1, (h.sender obj id hs).2.schedule ?_⟩
    rintro rfl
    exact absurd hown Bool.false_ne_true
  receiver := by
    intro obj r hr
    obtain ⟨hlt, hinv⟩ := h.receiver obj r hr
    have hheart : a ≠ .heartBeat obj := by
      rintro rfl
      exact absurd hown Bool.false_ne_true
    have hstats : a ≠ .statsRecvRate obj := by
      rintro rfl
      exact absurd hown Bool.false_ne_true
    refine ⟨hlt, hinv.heartbeat.schedule hheart, hinv.statsRate.schedule hstats, ?_⟩
    intro hfirst
    rw [isPending_schedule, isPending_schedule, or_iff_left hheart, or_iff_left hstats]
    exact hinv.first hfirst
  reCon := h.reCon.schedule
  ping := h.ping.schedule
  generate := h.generate.schedule

theorem Paced.schedule (h : Paced v) (delay : Nat) (a : EndpointEvent) :
    Paced { v with queue := v.queue.schedule delay a } :=
  fun obj id hs => isPending_schedule.mpr (.inl (h obj id hs))

/-- An event other than a heartbeat of the sender is cancelled. -/
theorem Paced.cancel (h : Paced v) {id : EventId} {a : EndpointEvent}
    (hid : v.queue.Refers id a) (hne : ∀ obj, a ≠ .paceHeartBeat obj) :
    Paced { v with queue := v.queue.cancel id } :=
  fun obj paceEvent hs => (hid.isPending_cancel (hne obj).symm).mpr (h obj paceEvent hs)

/-- An event other than a heartbeat of the sender has run. -/
theorem Paced.pop (h : Paced v) (hpop : v.queue.pop = some (e, q))
    (hne : ∀ obj, e.action ≠ .paceHeartBeat obj) : Paced { v with queue := q } :=
  fun obj id hs => (isPending_pop hpop (hne obj).symm).mpr (h obj id hs)

/-! ## Handles -/

/-- The endpoint schedules its next ping. -/
theorem HandlesInv.setPing (h : HandlesInv v) (delay : Nat) :
    HandlesInv { v with
      queue := v.queue.schedule delay .sendPing
      pingEvent := v.queue.nextId } :=
  let hs := h.schedule delay (a := .sendPing) rfl
  { hs with ping := .of_schedule v.queue delay .sendPing }

theorem HandlesInv.setReCon (h : HandlesInv v) (delay : Nat) :
    HandlesInv { v with
      queue := v.queue.schedule delay .doConnect
      reConEvent := v.queue.nextId } :=
  let hs := h.schedule delay (a := .doConnect) rfl
  { hs with reCon := .of_schedule v.queue delay .doConnect }

theorem HandlesInv.setGenerate (h : HandlesInv v) (delay : Nat) :
    HandlesInv { v with
      queue := v.queue.schedule delay .generateFakeData
      generateDataEvent := v.queue.nextId } :=
  let hs := h.schedule delay (a := .generateFakeData) rfl
  { hs with generate := .of_schedule v.queue delay .generateFakeData }

/-! ## Sender and receiver -/

/-- Every step keeps this. -/
def Inv (v : EventState) : Prop := HandlesInv v ∧ Paced v

/-- Events with another sender object, on the same receiver. -/
theorem Alive.of_sender {obj : Nat} {id : EventId} {a : EndpointEvent} (h : v.Alive a)
    (hs : ∀ obj' id', v.sender = some (obj', id') → obj' = obj) (q : EventQueue EndpointEvent)
    (n : Nat) :
    ({ v with queue := q, sender := some (obj, id), nextObject := n } : EventState).Alive a := by
  cases a with
  | paceHeartBeat obj' =>
      obtain ⟨id', hs'⟩ := h
      obtain rfl := hs obj' id' hs'
      exact ⟨id, rfl⟩
  | heartBeat obj' => exact h
  | statsRecvRate obj' => exact h
  | _ => trivial

/-- The heartbeat of a sender is scheduled, and was not pending. The sender may be a
new one. -/
theorem HandlesInv.setPace (h : HandlesInv v) {obj n : Nat}
    (hs : ∀ obj' id', v.sender = some (obj', id') → obj' = obj) (hobj : obj < n)
    (hn : v.nextObject ≤ n) (hidle : ¬ v.queue.IsPending (.paceHeartBeat obj)) (delay : Nat) :
    Inv { v with
      queue := v.queue.schedule delay (.paceHeartBeat obj)
      sender := some (obj, v.queue.nextId)
      nextObject := n } := by
  refine ⟨⟨?_, ?_, ?_, h.reCon.schedule, h.ping.schedule, h.generate.schedule⟩, ?_⟩
  · intro e he
    rcases mem_schedule.mp he with he | rfl
    · exact (h.live e he).of_sender hs _ n
    · exact ⟨_, rfl⟩
  · intro obj' id' hs'
    obtain ⟨rfl, rfl⟩ := Prod.mk.inj (Option.some.inj hs')
    exact ⟨hobj, .of_schedule hidle⟩
  · intro obj' r hr
    obtain ⟨hlt, hinv⟩ := h.receiver obj' r hr
    refine ⟨Nat.lt_of_lt_of_le hlt hn, hinv.heartbeat.schedule nofun,
      hinv.statsRate.schedule nofun, ?_⟩
    intro hfirst
    rw [isPending_schedule, isPending_schedule, or_iff_left nofun, or_iff_left nofun]
    exact hinv.first hfirst
  · intro obj' id' hs'
    obtain ⟨rfl, rfl⟩ := Prod.mk.inj (Option.some.inj hs')
    exact isPending_schedule.mpr (.inr rfl)

/-- A timer of the receiver is scheduled. -/
theorem Inv.setReceiver (h : Inv v) {obj : Nat} {r r' : SimReceiver}
    (hr : v.receiver = some (obj, r)) {delay : Nat} {a : EndpointEvent}
    (ha : a = .heartBeat obj ∨ a = .statsRecvRate obj)
    (hinv : ReceiverInv (v.queue.schedule delay a) obj r') :
    Inv { v with
      queue := v.queue.schedule delay a
      receiver := some (obj, r') } := by
  obtain ⟨hinv₀, hpaced⟩ := h
  have hpace : ∀ obj', a ≠ .paceHeartBeat obj' := by
    rintro obj' rfl
    rcases ha with ha | ha <;> exact absurd ha nofun
  refine ⟨⟨?_, ?_, ?_, hinv₀.reCon.schedule, hinv₀.ping.schedule, hinv₀.generate.schedule⟩, ?_⟩
  · intro e he
    rcases mem_schedule.mp he with he | rfl
    · have halive := hinv₀.live e he
      generalize e.action = b at halive
      cases b with
      | paceHeartBeat obj' => exact halive
      | heartBeat obj' =>
          obtain ⟨r₁, hr₁⟩ := halive
          obtain ⟨rfl, _⟩ := Prod.mk.inj (Option.some.inj (hr.symm.trans hr₁))
          exact ⟨r', rfl⟩
      | statsRecvRate obj' =>
          obtain ⟨r₁, hr₁⟩ := halive
          obtain ⟨rfl, _⟩ := Prod.mk.inj (Option.some.inj (hr.symm.trans hr₁))
          exact ⟨r', rfl⟩
      | _ => trivial
    · rcases ha with rfl | rfl
      · exact ⟨r', rfl⟩
      · exact ⟨r', rfl⟩
  · intro obj' id' hs'
    exact ⟨(hinv₀.sender obj' id' hs').1, (hinv₀.sender obj' id' hs').2.schedule (hpace obj')⟩
  · intro obj' r₁ hr₁
    obtain ⟨rfl, rfl⟩ := Prod.mk.inj (Option.some.inj hr₁)
    exact ⟨(hinv₀.receiver obj r hr).1, hinv⟩
  · exact fun obj' id' hs' => isPending_schedule.mpr (.inl (hpaced obj' id' hs'))

/-- A receiver is made. -/
theorem Inv.newReceiver (h : Inv v) (hnone : v.receiver = none) :
    Inv { v with
      receiver := some (v.nextObject, ⟨true, none, none⟩)
      nextObject := v.nextObject + 1 } := by
  obtain ⟨hinv, hpaced⟩ := h
  have hheart : ∀ obj, ¬ v.queue.IsPending (.heartBeat obj) := by
    rintro obj ⟨e, he, ha⟩
    have halive := hinv.live e he
    rw [ha] at halive
    obtain ⟨r, hr⟩ := halive
    exact absurd (hnone.symm.trans hr) nofun
  have hstats : ∀ obj, ¬ v.queue.IsPending (.statsRecvRate obj) := by
    rintro obj ⟨e, he, ha⟩
    have halive := hinv.live e he
    rw [ha] at halive
    obtain ⟨r, hr⟩ := halive
    exact absurd (hnone.symm.trans hr) nofun
  refine ⟨⟨?_, ?_, ?_, hinv.reCon, hinv.ping, hinv.generate⟩, hpaced⟩
  · intro e he
    have halive := hinv.live e he
    cases haction : e.action with
    | paceHeartBeat obj =>
        rw [haction] at halive
        exact halive
    | heartBeat obj => exact absurd ⟨e, he, haction⟩ (hheart obj)
    | statsRecvRate obj => exact absurd ⟨e, he, haction⟩ (hstats obj)
    | _ => trivial
  · exact fun obj id hs =>
      ⟨Nat.lt_succ_of_lt (hinv.sender obj id hs).1, (hinv.sender obj id hs).2⟩
  · intro obj r hr
    obtain ⟨rfl, rfl⟩ := Prod.mk.inj (Option.some.inj hr)
    exact ⟨Nat.lt_succ_self _, .of_absent (hheart _), .of_absent (hstats _),
      fun _ => ⟨hheart _, hstats _⟩⟩

/-- The receiver is deleted, and its timers are cancelled. -/
theorem Inv.deleteReceiver (h : Inv v) {obj : Nat} {r : SimReceiver}
    (hr : v.receiver = some (obj, r)) :
    Inv { v with
      queue := (v.queue.cancel r.heartbeatEvent).cancel r.statsRateEvent
      receiver := none } := by
  obtain ⟨hinv, hpaced⟩ := h
  obtain ⟨_, hreceiver⟩ := hinv.receiver obj r hr
  have hdropped := (hinv.cancel r.heartbeatEvent).cancel r.statsRateEvent
  have hstats : (v.queue.cancel r.heartbeatEvent).Tracks r.statsRateEvent
      (.statsRecvRate obj) := hreceiver.statsRate.cancel
  refine ⟨⟨?_, hdropped.sender, nofun, hdropped.reCon, hdropped.ping, hdropped.generate⟩, ?_⟩
  · intro e he
    have halive := hdropped.live e he
    cases haction : e.action with
    | paceHeartBeat obj' =>
        rw [haction] at halive
        exact halive
    | heartBeat obj' =>
        rw [haction] at halive
        obtain ⟨r₁, hr₁⟩ := halive
        obtain ⟨rfl, _⟩ := Prod.mk.inj (Option.some.inj (hr.symm.trans hr₁))
        have hkept := (mem_cancel.mp he).1
        exact absurd ⟨e, hkept, haction⟩ hreceiver.heartbeat.not_pending
    | statsRecvRate obj' =>
        rw [haction] at halive
        obtain ⟨r₁, hr₁⟩ := halive
        obtain ⟨rfl, _⟩ := Prod.mk.inj (Option.some.inj (hr.symm.trans hr₁))
        exact absurd ⟨e, he, haction⟩ hstats.not_pending
    | _ => trivial
  · have hpaced₁ := hpaced.cancel hreceiver.heartbeat.refers nofun
    have hpaced₂ := @Paced.cancel { v with queue := v.queue.cancel r.heartbeatEvent } hpaced₁
      r.statsRateEvent (.statsRecvRate obj) hstats.refers nofun
    exact hpaced₂

/-- **Deleting the sender** leaves no event that calls it exactly if there is none. -/
theorem Inv.deleteSender_live_iff (h : Inv v) :
    ({ v with sender := none } : EventState).AllLive ↔ v.sender = none := by
  constructor
  · intro hlive
    cases hs : v.sender with
    | none => rfl
    | some b =>
        obtain ⟨e, he, ha⟩ := h.2 b.1 b.2 hs
        have halive := hlive e he
        rw [ha] at halive
        obtain ⟨id, hid⟩ := halive
        exact absurd hid nofun
  · intro hnone
    have hsame : ({ v with sender := none } : EventState) = v := by
      rw [← hnone]
    exact hsame.symm ▸ h.1.live

end EventState

theorem SimSender.fileSegments_paceEvent (ftype : BitVec 8) (timestamp : BitVec 32)
    (total : Nat) (splits : List (BitVec 16)) (i : Nat) (snd : SimSender) :
    (fileSegments ftype timestamp total i snd splits).paceEvent = snd.paceEvent := by
  induction splits generalizing i snd with
  | nil => rfl
  | cons dataSize rest ih => exact ih (i + 1) _

theorem SimSender.putFakeData_paceEvent {snd snd' : SimSender} {ftype : BitVec 8}
    {size : BitVec 32} {nowMs : Nat} (h : snd.putFakeData ftype size nowMs = some snd') :
    snd'.paceEvent = snd.paceEvent := by
  unfold putFakeData at h
  split at h
  · obtain rfl := Option.some.inj h
    exact fileSegments_paceEvent _ _ _ _ _ _
  · exact absurd h nofun

namespace SimEndpoint

open EventState

variable {s s' : SimEndpoint} {q : EventQueue EndpointEvent} {e : Event EndpointEvent}

/-! ## Steps without events -/

theorem pacePacketSend_events (s : SimEndpoint) (packetId : BitVec 32) :
    (s.pacePacketSend packetId).events = s.events := by
  unfold pacePacketSend
  split
  · rfl
  · rename_i obj snd hsender
    split
    · rfl
    · simp [events, send, hsender]

theorem runCalls_events {calls : List CcCall} (h : s.runCalls calls = some s') :
    s'.events = s.events := by
  induction calls generalizing s with
  | nil => exact Option.some.inj h ▸ rfl
  | cons c rest ih =>
      cases c with
      | pacePacketSend packetId => exact (ih h).trans (pacePacketSend_events s packetId)
      | changeRate kbps => exact (ih h).trans rfl
      | sendFeedback payload =>
          unfold runCalls at h
          split at h
          · exact (ih h).trans rfl
          · exact absurd h nofun

theorem putData_events {len : BitVec 32} (h : s.putData len = some s') :
    s'.events = s.events := by
  unfold putData at h
  split at h
  · exact Option.some.inj h ▸ rfl
  · split at h
    · exact Option.some.inj h ▸ rfl
    · rename_i obj snd hsender
      split at h
      · exact absurd h nofun
      · rename_i snd₁ hput
        obtain rfl := Option.some.inj h
        have hpace : snd₁.paceEvent = snd.paceEvent := SimSender.putFakeData_paceEvent hput
        simp [events, hsender, hpace]

/-! ## Steps of the endpoint -/

theorem stopApplication_inv (h : Inv s.events) : Inv s.stopApplication.events := by
  obtain ⟨hinv, hpaced⟩ := h
  have hinv₁ := hinv.cancel s.pingEvent
  have hpaced₁ := hpaced.cancel hinv.ping nofun
  unfold stopApplication
  simp only
  split
  · have hinv₂ := hinv₁.cancel s.generateDataEvent
    have hgenerate : (s.queue.cancel s.pingEvent).Refers s.generateDataEvent
        .generateFakeData := hinv₁.generate
    have hpaced₂ := @Paced.cancel { s.events with queue := s.queue.cancel s.pingEvent }
      hpaced₁ s.generateDataEvent .generateFakeData hgenerate nofun
    exact ⟨hinv₂, hpaced₂⟩
  · exact ⟨hinv₁, hpaced₁⟩

theorem doConnect_inv (h : Inv s.events) : Inv s.doConnect.events := by
  unfold doConnect
  split
  · exact stopApplication_inv h
  · exact ⟨h.1.setReCon _, h.2.schedule _ _⟩

theorem startApplication_inv (h : Inv s.events) : Inv s.startApplication.events := by
  unfold startApplication
  split
  · exact doConnect_inv h
  · exact h

theorem receiverInit_inv (h : Inv s.events) : Inv s.receiverInit.events := by
  unfold receiverInit
  split
  · exact h
  · rename_i hnone
    exact h.newReceiver hnone

theorem processConnect_inv (h : Inv s.events) (cid : BitVec 32) :
    Inv (s.processConnect cid).events := by
  unfold processConnect
  simp only
  split
  · have hmade := @receiverInit_inv ({ s with state := .connected }.send (.connectAck cid 0) 0) h
    exact ⟨hmade.1.setPing _, hmade.2.schedule _ _⟩
  · exact h

/-- The new sender gets its first heartbeat. -/
theorem senderInit_inv (h : Inv s.events) (hnone : s.sender = none) :
    Inv s.senderInit.events := by
  have hsender : s.events.sender = none := by simp [events, hnone]
  have hidle : ∀ obj, ¬ s.events.queue.IsPending (.paceHeartBeat obj) := by
    rintro obj ⟨e, he, ha⟩
    have halive := h.1.live e he
    rw [ha] at halive
    obtain ⟨id, hid⟩ := halive
    exact absurd (hsender.symm.trans hid) nofun
  have hpaced := @HandlesInv.setPace _ h.1 s.nextObject (s.nextObject + 1)
    (fun obj' id' hs' => absurd (hsender.symm.trans hs') nofun)
    (Nat.lt_succ_self _) (Nat.le_succ _) (hidle _) 0
  exact ⟨hpaced.1.setGenerate 0, hpaced.2.schedule 0 .generateFakeData⟩

theorem acceptConnection_inv (h : Inv s.events) : Inv s.acceptConnection.events := by
  unfold acceptConnection
  split
  · have hinv := h.1.cancel s.reConEvent
    have hpaced := h.2.cancel h.1.reCon nofun
    exact ⟨hinv.setPing 0, hpaced.schedule 0 .sendPing⟩
  · exact h

theorem processConnectAck_inv (h : Inv s.events) : Inv s.processConnectAck.events := by
  unfold processConnectAck
  simp only
  split
  · rename_i hnone
    exact senderInit_inv (acceptConnection_inv h) (Option.isNone_iff_eq_none.mp hnone)
  · exact acceptConnection_inv h

theorem processPong_events (s : SimEndpoint) (ts : BitVec 64) :
    (s.processPong ts).events = s.events := by
  unfold processPong
  simp only
  split
  · rfl
  · rfl

/-- The first packet starts both timers of the receiver. -/
theorem recvFakeData_inv {obj : Nat} {r : SimReceiver} (h : Inv s.events)
    (hr : s.receiver = some (obj, r)) : Inv (s.recvFakeData obj r).events := by
  unfold recvFakeData
  split
  · rename_i hfirst
    obtain ⟨_, hreceiver⟩ := h.1.receiver obj r hr
    obtain ⟨hheart, hstats⟩ := hreceiver.first hfirst
    have hfirst₁ : ReceiverInv (s.queue.schedule (milliSeconds rateStatsInterval)
        (.statsRecvRate obj)) obj ⟨false, r.heartbeatEvent, s.queue.nextId⟩ := by
      refine ⟨hreceiver.heartbeat.schedule nofun, .of_schedule hstats, nofun⟩
    have h₁ := h.setReceiver hr (.inr rfl) hfirst₁
    have hheart₁ : ¬ (s.queue.schedule (milliSeconds rateStatsInterval)
        (.statsRecvRate obj)).IsPending (.heartBeat obj) := by
      rw [isPending_schedule, or_iff_left nofun]
      exact hheart
    exact h₁.setReceiver rfl (.inl rfl)
      ⟨.of_schedule hheart₁, hfirst₁.statsRate.schedule nofun, nofun⟩
  · exact h

theorem sendPing_inv (h : Inv s.events) : Inv s.sendPing.events := by
  unfold sendPing
  split
  · exact ⟨h.1.setPing _, h.2.schedule _ _⟩
  · exact h

theorem generateFakeData_inv {dataBytes : Nat → BitVec 32 → BitVec 32} (h : Inv s.events)
    (hdata : s.generateFakeData dataBytes = some s') : Inv s'.events := by
  unfold generateFakeData at hdata
  split at hdata
  · simp only at hdata
    split at hdata
    · exact absurd hdata nofun
    · rename_i s₁ hput
      obtain rfl := Option.some.inj hdata
      have h₁ : Inv s₁.events := (putData_events hput).symm ▸ h
      exact ⟨h₁.1.setGenerate _, h₁.2.schedule _ _⟩
  · exact Option.some.inj hdata ▸ h

theorem deleteReceiver_inv (h : Inv s.events) : Inv s.deleteReceiver.events := by
  unfold deleteReceiver
  split
  · exact h
  · rename_i obj r hr
    exact h.deleteReceiver hr

/-- **A disconnect** leaves no event of a deleted object exactly if there is no sender. -/
theorem processDisconnect_live_iff (h : Inv s.events) (cid : BitVec 32) :
    (s.processDisconnect cid).events.AllLive ↔ s.sender = none := by
  have hdeleted := @deleteReceiver_inv
    ({ s with state := .disconnected }.send (.disconnectAck cid 0) 0) h
  have hsender : ∀ s : SimEndpoint, s.deleteReceiver.sender = s.sender := by
    intro s
    unfold deleteReceiver
    split <;> rfl
  have hiff := hdeleted.deleteSender_live_iff
  refine hiff.trans ?_
  simp [events, hsender, send]

theorem processDisconnect_inv (h : Inv s.events) (hnone : s.sender = none) (cid : BitVec 32) :
    Inv (s.processDisconnect cid).events := by
  have hdeleted := @deleteReceiver_inv
    ({ s with state := .disconnected }.send (.disconnectAck cid 0) 0) h
  have hlive := (processDisconnect_live_iff h cid).mpr hnone
  exact ⟨⟨hlive, nofun, hdeleted.1.receiver, hdeleted.1.reCon, hdeleted.1.ping,
    hdeleted.1.generate⟩, nofun⟩

/-! ## Timers -/

/-- The heartbeat of the sender runs, and is scheduled again. -/
theorem paceHeartBeat_inv {obj : Nat} {calls : List CcCall} (h : HandlesInv s.events)
    (hidle : ¬ s.queue.IsPending (.paceHeartBeat obj))
    (hpace : s.paceHeartBeat obj calls = some s') : Inv s'.events := by
  unfold paceHeartBeat at hpace
  split at hpace
  · exact absurd hpace nofun
  · rename_i obj' snd hsender
    split at hpace
    · rename_i hobj
      subst hobj
      have hview : s.events.sender = some (obj', snd.paceEvent) := by
        simp [events, hsender]
      obtain ⟨hlt, htracks⟩ := h.sender obj' snd.paceEvent hview
      have hexpired : s.queue.isExpired snd.paceEvent = true := htracks.isExpired_iff.mpr hidle
      rw [if_pos hexpired] at hpace
      split at hpace
      · exact absurd hpace nofun
      · rename_i s₁ hcalls
        have hevents := runCalls_events hcalls
        have h₁ : HandlesInv s₁.events := hevents.symm ▸ h
        have hidle₁ : ¬ s₁.events.queue.IsPending (.paceHeartBeat obj') := hevents.symm ▸ hidle
        have hnext : s₁.events.nextObject = s.events.nextObject := by rw [hevents]
        have hview₁ : s₁.events.sender = some (obj', snd.paceEvent) := by rw [hevents, hview]
        unfold rearmSender at hpace
        split at hpace
        · exact absurd hpace nofun
        · obtain rfl := Option.some.inj hpace
          refine h₁.setPace ?_ (hnext.symm ▸ hlt) (Nat.le_refl _) hidle₁ (milliSeconds paceTime)
          intro obj₂ id₂ hs₂
          exact (Prod.mk.inj (Option.some.inj (hview₁.symm.trans hs₂))).1.symm
    · exact absurd hpace nofun

/-- A timer of a receiver that has started runs, and is scheduled again. -/
theorem heartBeat_inv {obj : Nat} {calls : List CcCall} (h : Inv s.events)
    (hstarted : ∀ obj r, s.receiver = some (obj, r) → r.recvFirstPacket = false)
    (hidle : ¬ s.queue.IsPending (.heartBeat obj))
    (hbeat : s.heartBeat obj calls = some s') : Inv s'.events := by
  unfold heartBeat at hbeat
  split at hbeat
  · exact absurd hbeat nofun
  · rename_i obj' r hr
    split at hbeat
    · rename_i hobj
      subst hobj
      split at hbeat
      · split at hbeat
        · exact absurd hbeat nofun
        · rename_i s₁ hcalls
          obtain rfl := Option.some.inj hbeat
          have hevents := runCalls_events hcalls
          have h₁ : Inv s₁.events := hevents.symm ▸ h
          have hr₁ : s₁.events.receiver = some (obj', r) := by rw [hevents]; exact hr
          have hidle₁ : ¬ s₁.events.queue.IsPending (.heartBeat obj') := hevents.symm ▸ hidle
          obtain ⟨_, hreceiver⟩ := h₁.1.receiver obj' r hr₁
          refine h₁.setReceiver hr₁ (.inl rfl) ⟨.of_schedule hidle₁,
            hreceiver.statsRate.schedule nofun, ?_⟩
          exact fun hfirst => absurd ((hstarted obj' r hr).symm.trans hfirst) nofun
      · exact Option.some.inj hbeat ▸ h
    · exact absurd hbeat nofun

theorem statsRecvRate_inv {obj : Nat} (h : Inv s.events)
    (hstarted : ∀ obj r, s.receiver = some (obj, r) → r.recvFirstPacket = false)
    (hidle : ¬ s.queue.IsPending (.statsRecvRate obj))
    (hstats : s.statsRecvRate obj = some s') : Inv s'.events := by
  unfold statsRecvRate at hstats
  split at hstats
  · exact absurd hstats nofun
  · rename_i obj' r hr
    split at hstats
    · rename_i hobj
      subst hobj
      split at hstats
      · obtain rfl := Option.some.inj hstats
        obtain ⟨_, hreceiver⟩ := h.1.receiver obj' r hr
        refine h.setReceiver hr (.inr rfl) ⟨hreceiver.heartbeat.schedule nofun,
          .of_schedule hidle, ?_⟩
        exact fun hfirst => absurd ((hstarted obj' r hr).symm.trans hfirst) nofun
      · exact Option.some.inj hstats ▸ h
    · exact absurd hstats nofun

/-- Every event that runs keeps the invariant. -/
theorem runEvent_inv {dataBytes : Nat → BitVec 32 → BitVec 32} {calls : List CcCall}
    (h : Inv s.events) (hpop : s.queue.pop = some (e, q))
    (hrun : runEvent dataBytes { s with queue := q } calls e.action = some s') :
    Inv s'.events := by
  have hmem : e ∈ s.events.queue.pending := (pop_eq_some hpop).1
  have halive := h.1.live e hmem
  have hinv : HandlesInv ({ s with queue := q } : SimEndpoint).events := h.1.pop hpop
  have hpaced (hne : ∀ obj, e.action ≠ .paceHeartBeat obj) :
      Inv ({ s with queue := q } : SimEndpoint).events := ⟨hinv, h.2.pop hpop hne⟩
  cases haction : e.action with
  | sendPing =>
      rw [haction] at hrun
      exact Option.some.inj hrun ▸ sendPing_inv (hpaced (by simp [haction]))
  | doConnect =>
      rw [haction] at hrun
      exact Option.some.inj hrun ▸ doConnect_inv (hpaced (by simp [haction]))
  | generateFakeData =>
      rw [haction] at hrun
      exact generateFakeData_inv (hpaced (by simp [haction])) hrun
  | paceHeartBeat obj =>
      rw [haction] at hrun halive
      obtain ⟨id, hid⟩ := halive
      have htracks := (h.1.sender obj id hid).2
      refine paceHeartBeat_inv hinv ?_ hrun
      rw [← haction] at htracks ⊢
      exact htracks.not_pending_of_pop hpop
  | heartBeat obj =>
      rw [haction] at hrun halive
      obtain ⟨r, hr⟩ := halive
      have hreceiver := (h.1.receiver obj r hr).2
      have hstarted : ∀ obj' r', s.receiver = some (obj', r') → r'.recvFirstPacket = false := by
        intro obj' r' hr'
        obtain ⟨rfl, rfl⟩ := Prod.mk.inj (Option.some.inj (hr.symm.trans hr'))
        by_contra hfirst
        exact (hreceiver.first (by simpa using hfirst)).1 ⟨e, hmem, haction⟩
      have htracks := hreceiver.heartbeat
      refine heartBeat_inv (hpaced (by simp [haction])) hstarted ?_ hrun
      rw [← haction] at htracks ⊢
      exact htracks.not_pending_of_pop hpop
  | statsRecvRate obj =>
      rw [haction] at hrun halive
      obtain ⟨r, hr⟩ := halive
      have hreceiver := (h.1.receiver obj r hr).2
      have hstarted : ∀ obj' r', s.receiver = some (obj', r') → r'.recvFirstPacket = false := by
        intro obj' r' hr'
        obtain ⟨rfl, rfl⟩ := Prod.mk.inj (Option.some.inj (hr.symm.trans hr'))
        by_contra hfirst
        exact (hreceiver.first (by simpa using hfirst)).2 ⟨e, hmem, haction⟩
      have htracks := hreceiver.statsRate
      refine statsRecvRate_inv (hpaced (by simp [haction])) hstarted ?_ hrun
      rw [← haction] at htracks ⊢
      exact htracks.not_pending_of_pop hpop

/-! ## Runs -/

/-- The message asks to disconnect. -/
def Input.isDisconnect : Input → Bool
  | .packet _ _ (.disconnect _) _ _ => true
  | _ => false

section Runs

variable {dataBytes : Nat → BitVec 32 → BitVec 32}

/-- Every call but a disconnect keeps the invariant. -/
theorem call_inv {i : Input} (h : Inv s.events) (hother : i.isDisconnect = false)
    (hcall : call dataBytes s i = some s') : Inv s'.events := by
  cases i with
  | start => exact Option.some.inj hcall ▸ startApplication_inv h
  | stop => exact Option.some.inj hcall ▸ stopApplication_inv h
  | timer calls =>
      unfold call at hcall
      simp only at hcall
      split at hcall
      · exact absurd hcall nofun
      · rename_i e queue hpop
        exact runEvent_inv h hpop hcall
  | packet srcIp srcPort message stale calls =>
      cases message with
      | connect cid token =>
          unfold call recvPacket at hcall
          obtain rfl := Option.some.inj hcall
          refine processConnect_inv ?_ _
          split
          · exact h
          · exact h
      | connectAck cid result => exact Option.some.inj hcall ▸ processConnectAck_inv h
      | ping ts => exact Option.some.inj hcall ▸ h
      | pong ts =>
          have hevents := (runCalls_events hcall).trans (processPong_events s ts)
          exact hevents.symm ▸ h
      | seg seg =>
          unfold call recvPacket at hcall
          simp only at hcall
          split at hcall
          · exact Option.some.inj hcall ▸ h
          · rename_i obj r hr
            exact Option.some.inj hcall ▸ recvFakeData_inv h hr
      | segAck base acked nack => exact Option.some.inj hcall ▸ h
      | feedback base feedback =>
          unfold call recvPacket at hcall
          simp only at hcall
          split at hcall
          · exact (runCalls_events hcall).symm ▸ h
          · exact Option.some.inj hcall ▸ h
      | disconnect cid => exact absurd hother.symm Bool.false_ne_true
      | disconnectAck cid result => exact Option.some.inj hcall ▸ h

variable (dataBytes)

/-- A step after which every pending event calls an object that exists. -/
def LiveStep (s : SimEndpoint) (e : Nat × Input) (s' : SimEndpoint) : Prop :=
  Step dataBytes s e s' ∧ s'.events.AllLive

/-- A step that does not delete a sender. -/
def SenderKept (s : SimEndpoint) (e : Nat × Input) (s' : SimEndpoint) : Prop :=
  Step dataBytes s e s' ∧ (e.2.isDisconnect = true → s.sender = none)

variable {dataBytes}

theorem advance_inv {t : Nat} (h : Inv s.events) (hqueue : s.queue.advance? t = some q) :
    Inv ({ s with queue := q } : SimEndpoint).events := by
  obtain ⟨hpending, _, hnext⟩ := advance?_eq_some hqueue
  refine ⟨h.1.of_subset (Nat.le_of_eq hnext.symm) fun e he => hpending ▸ he, ?_⟩
  intro obj id hs
  obtain ⟨e, he, ha⟩ := h.2 obj id hs
  exact ⟨e, hpending.symm ▸ he, ha⟩

/-- An input that asks to disconnect is a packet. -/
theorem Input.disconnect_cases {i : Input} (h : i.isDisconnect = true) :
    ∃ srcIp srcPort cid stale calls,
      i = .packet srcIp srcPort (.disconnect cid) stale calls := by
  cases i with
  | packet srcIp srcPort message stale calls =>
      cases message with
      | disconnect cid => exact ⟨srcIp, srcPort, cid, stale, calls, rfl⟩
      | _ => exact absurd h Bool.false_ne_true
  | _ => exact absurd h Bool.false_ne_true

/-- **One step** leaves no event of a deleted object exactly if it deletes no sender. -/
theorem liveStep_iff {i : Nat × Input} (h : Inv s.events) :
    LiveStep dataBytes s i s' ↔ SenderKept dataBytes s i s' := by
  refine and_congr_right fun hstep => ?_
  obtain ⟨queue, hqueue, hcall⟩ := step_iff.mp hstep
  have h₁ := advance_inv h hqueue
  by_cases hdisconnect : i.2.isDisconnect = true
  · obtain ⟨srcIp, srcPort, cid, stale, calls, hi⟩ := Input.disconnect_cases hdisconnect
    rw [hi] at hcall
    obtain rfl := Option.some.inj hcall
    have hiff := processDisconnect_live_iff h₁ stale
    exact ⟨fun hlive _ => hiff.mp hlive, fun hnone => hiff.mpr (hnone hdisconnect)⟩
  · have hkept := call_inv h₁ (Bool.eq_false_iff.mpr hdisconnect) hcall
    exact iff_of_true hkept.1.live fun hd => absurd hd hdisconnect

theorem SenderKept.inv {i : Nat × Input} (h : Inv s.events)
    (hstep : SenderKept dataBytes s i s') : Inv s'.events := by
  obtain ⟨hstep, hnone⟩ := hstep
  obtain ⟨queue, hqueue, hcall⟩ := step_iff.mp hstep
  have h₁ := advance_inv h hqueue
  by_cases hdisconnect : i.2.isDisconnect = true
  · obtain ⟨srcIp, srcPort, cid, stale, calls, hi⟩ := Input.disconnect_cases hdisconnect
    rw [hi] at hcall
    obtain rfl := Option.some.inj hcall
    exact processDisconnect_inv h₁ (hnone hdisconnect) stale
  · exact call_inv h₁ (Bool.eq_false_iff.mpr hdisconnect) hcall

theorem new_inv (initiator : Bool) (peerIp : BitVec 32) (peerPort : BitVec 16)
    (uid cid bitRate frameRate packetSize : BitVec 32) :
    Inv (new initiator peerIp peerPort uid cid bitRate frameRate packetSize).events :=
  ⟨⟨nofun, nofun, nofun, .none _ _, .none _ _, .none _ _⟩, nofun⟩

/-- **The events of an endpoint**: every pending event of a run calls an object that
exists, exactly if no disconnect arrives while there is a sender. -/
theorem liveRun_iff (initiator : Bool) (peerIp : BitVec 32) (peerPort : BitVec 16)
    (uid cid bitRate frameRate packetSize : BitVec 32) (es : List (Nat × Input))
    (s : SimEndpoint) :
    Run (LiveStep dataBytes)
      (new initiator peerIp peerPort uid cid bitRate frameRate packetSize) es s ↔
    Run (SenderKept dataBytes)
      (new initiator peerIp peerPort uid cid bitRate frameRate packetSize) es s := by
  have hinv : ∀ es s, Run (SenderKept dataBytes)
      (new initiator peerIp peerPort uid cid bitRate frameRate packetSize) es s →
      Inv s.events := by
    intro es s hrun
    exact hrun.stateInvariant (I := fun s => Inv s.events)
      (new_inv initiator peerIp peerPort uid cid bitRate frameRate packetSize)
      fun _ _ _ h hstep => hstep.inv h
  constructor
  · intro hrun
    induction hrun with
    | nil => exact .nil
    | snoc _ hstep ih => exact .snoc ih ((liveStep_iff (hinv _ _ ih)).mp hstep)
  · intro hrun
    induction hrun with
    | nil => exact .nil
    | snoc hprev hstep ih => exact .snoc ih ((liveStep_iff (hinv _ _ hprev)).mpr hstep)

end Runs

end SimEndpoint

end Razor
