import RmcatNs3.Lib.Runs
import RmcatNs3.Multipath.MpSender
import RmcatNs3.Razor.EndpointEvents

/-!
# The events of paths

Which events call a path, and which of them its destructor cancels. `~Path` leaves
the retry of `Connect` in the simulator, so stopping the sender is safe exactly
while no path is connecting.
-/

namespace Multipath

open Razor Runs EventQueue

/-- What a path knows of its events: the state they depend on, and its handles. -/
def Path.handles (p : Path) : PathSession × EventId × EventId × EventId :=
  (p.pathState, p.rxConEvent, p.paceTimer, p.heartBeat)

namespace MpSender

/-- Every pending event calls an object that exists. -/
def AllLive (s : MpSender) : Prop :=
  ∀ e ∈ s.queue.pending, ∀ path, e.action.owner = some path → (s.heap path).isSome

/-- No path in the map is connecting. -/
def NoneConnecting (s : MpSender) : Prop :=
  ∀ path ∈ s.paths.values, ∀ p, s.heap path = some p → p.pathState ≠ .connecting

/-! ## One path -/

/-- The handles of a path track its events, a retry of `Connect` is pending exactly
while it is connecting, and only a connected path is paced. -/
structure PathInv (q : EventQueue PathEvent) (path : Nat) (p : Path) : Prop where
  rxCon : q.Tracks p.rxConEvent (.connect path)
  pace : q.Tracks p.paceTimer (.paceCallback path)
  heartBeat : p.heartBeat = none
  connecting_iff : p.pathState = .connecting ↔ q.IsPending (.connect path)
  paced : q.IsPending (.paceCallback path) → p.pathState = .connected

/-- A path for which no retry of `Connect` is pending. -/
structure Ready (q : EventQueue PathEvent) (path : Nat) (p : Path) : Prop where
  rxCon : q.Tracks p.rxConEvent (.connect path)
  pace : q.Tracks p.paceTimer (.paceCallback path)
  heartBeat : p.heartBeat = none
  unarmed : ¬ q.IsPending (.connect path)
  paced : q.IsPending (.paceCallback path) → p.pathState = .connected

variable {q q' : EventQueue PathEvent} {path : Nat} {p p' : Path} {e : Event PathEvent}

theorem PathInv.ready (h : PathInv q path p) (hstate : p.pathState ≠ .connecting) :
    Ready q path p where
  rxCon := h.rxCon
  pace := h.pace
  heartBeat := h.heartBeat
  unarmed := fun hpending => hstate (h.connecting_iff.mpr hpending)
  paced := h.paced

theorem Ready.inv (h : Ready q path p) (hstate : p.pathState ≠ .connecting) :
    PathInv q path p where
  rxCon := h.rxCon
  pace := h.pace
  heartBeat := h.heartBeat
  connecting_iff := iff_of_false hstate h.unarmed
  paced := h.paced

theorem PathInv.of_handles (h : PathInv q path p) (hhandles : p'.handles = p.handles) :
    PathInv q path p' := by
  obtain ⟨hstate, hrest⟩ := Prod.mk.inj hhandles
  obtain ⟨hrx, hrest⟩ := Prod.mk.inj hrest
  obtain ⟨hpace, hheart⟩ := Prod.mk.inj hrest
  constructor
  · exact hrx ▸ h.rxCon
  · exact hpace ▸ h.pace
  · exact hheart ▸ h.heartBeat
  · exact hstate ▸ h.connecting_iff
  · exact hstate ▸ h.paced

/-- An event that does not call this path is scheduled. -/
theorem PathInv.schedule (h : PathInv q path p) {action : PathEvent} {delay : Nat}
    (hother : action.owner ≠ some path) : PathInv (q.schedule delay action) path p := by
  have hconnect : action ≠ .connect path := fun heq => hother (heq ▸ rfl)
  have hpace : action ≠ .paceCallback path := fun heq => hother (heq ▸ rfl)
  constructor
  · exact h.rxCon.schedule hconnect
  · exact h.pace.schedule hpace
  · exact h.heartBeat
  · rw [isPending_schedule, or_iff_left hconnect]
    exact h.connecting_iff
  · rw [isPending_schedule, or_iff_left hpace]
    exact h.paced

/-- An event that does not call this path is cancelled. -/
theorem PathInv.cancel (h : PathInv q path p) {action : PathEvent} {id : EventId}
    (hid : q.Tracks id action) (hother : action.owner ≠ some path) :
    PathInv (q.cancel id) path p := by
  have hconnect : PathEvent.connect path ≠ action := fun heq => hother (heq ▸ rfl)
  have hpace : PathEvent.paceCallback path ≠ action := fun heq => hother (heq ▸ rfl)
  constructor
  · exact h.rxCon.cancel
  · exact h.pace.cancel
  · exact h.heartBeat
  · rw [hid.refers.isPending_cancel hconnect]
    exact h.connecting_iff
  · rw [hid.refers.isPending_cancel hpace]
    exact h.paced

/-- An event other than the retry of `Connect` of this path has run. -/
theorem PathInv.pop (h : PathInv q path p) (hpop : q.pop = some (e, q'))
    (hne : e.action ≠ .connect path) : PathInv q' path p where
  rxCon := h.rxCon.pop hpop
  pace := h.pace.pop hpop
  heartBeat := h.heartBeat
  connecting_iff := by
    rw [isPending_pop hpop hne.symm]
    exact h.connecting_iff
  paced := by
    rintro ⟨e', he', ha⟩
    exact h.paced ⟨e', (((pop_eq_some hpop).2.2 e').mp he').1, ha⟩

/-- The retry of `Connect` of this path has run. -/
theorem PathInv.pop_connect (h : PathInv q path p) (hpop : q.pop = some (e, q'))
    (haction : e.action = .connect path) : Ready q' path p where
  rxCon := h.rxCon.pop hpop
  pace := h.pace.pop hpop
  heartBeat := h.heartBeat
  unarmed := by
    rw [← haction]
    exact (haction ▸ h.rxCon).not_pending_of_pop hpop
  paced := by
    rintro ⟨e', he', ha⟩
    exact h.paced ⟨e', (((pop_eq_some hpop).2.2 e').mp he').1, ha⟩

theorem PathInv.of_pending (h : PathInv q path p) (hpending : q'.pending = q.pending)
    (hnext : q'.nextUid = q.nextUid) : PathInv q' path p := by
  have hsub : ∀ e ∈ q'.pending, e ∈ q.pending := fun e he => hpending ▸ he
  have hiff : ∀ action, q'.IsPending action ↔ q.IsPending action := by
    intro action
    simp only [IsPending, hpending]
  constructor
  · exact h.rxCon.of_subset (Nat.le_of_eq hnext.symm) hsub
  · exact h.pace.of_subset (Nat.le_of_eq hnext.symm) hsub
  · exact h.heartBeat
  · exact h.connecting_iff.trans (hiff _).symm
  · exact fun hpaced => h.paced ((hiff _).mp hpaced)

/-- A new path has no events. -/
theorem PathInv.new (info : PathAddressInfo) (pathIndex : BitVec 32) (lastUpdate : Nat)
    (byteRemaining : BitVec 32) (hconnect : ¬ q.IsPending (.connect path))
    (hpace : ¬ q.IsPending (.paceCallback path)) :
    PathInv q path (.new info pathIndex lastUpdate byteRemaining) where
  rxCon := .of_absent hconnect
  pace := .of_absent hpace
  heartBeat := rfl
  connecting_iff := iff_of_false nofun hconnect
  paced := fun h => absurd h hpace

/-! ## All paths -/

structure EventsInv (s : MpSender) : Prop where
  paths : ∀ path p, s.heap path = some p → PathInv s.queue path p
  live : s.AllLive
  fresh : s.started = false → ∀ path p, s.heap path = some p → p.pathState ≠ .connecting
  nodup : s.paths.values.Nodup
  values_lt : ∀ path ∈ s.paths.values, path < s.nextPath
  allocated : ∀ path p, s.heap path = some p → path < s.nextPath

variable {s s' : MpSender}

theorem AllLive.not_pending (h : s.AllLive) (hgone : s.heap path = none) {action : PathEvent}
    (howner : action.owner = some path) : ¬ s.queue.IsPending action := by
  rintro ⟨e, he, rfl⟩
  have hsome := h e he path howner
  rw [hgone] at hsome
  exact absurd hsome Bool.false_ne_true

/-- Nothing happens to paths and events. -/
structure SameEvents (s s' : MpSender) : Prop where
  queue : s'.queue = s.queue
  paths : s'.paths = s.paths
  nextPath : s'.nextPath = s.nextPath
  started : s'.started = s.started
  handles : ∀ path, (s'.heap path).map Path.handles = (s.heap path).map Path.handles

theorem SameEvents.of_eq (hqueue : s'.queue = s.queue) (hpaths : s'.paths = s.paths)
    (hnext : s'.nextPath = s.nextPath) (hstarted : s'.started = s.started)
    (hheap : s'.heap = s.heap) : SameEvents s s' where
  queue := hqueue
  paths := hpaths
  nextPath := hnext
  started := hstarted
  handles := fun path => by rw [hheap]

theorem SameEvents.refl (s : MpSender) : SameEvents s s := .of_eq rfl rfl rfl rfl rfl

theorem SameEvents.trans {s'' : MpSender} (h : SameEvents s s') (h' : SameEvents s' s'') :
    SameEvents s s'' where
  queue := h'.queue.trans h.queue
  paths := h'.paths.trans h.paths
  nextPath := h'.nextPath.trans h.nextPath
  started := h'.started.trans h.started
  handles := fun path => (h'.handles path).trans (h.handles path)

theorem SameEvents.back (h : SameEvents s s') (hp' : s'.heap path = some p') :
    ∃ p, s.heap path = some p ∧ p'.handles = p.handles := by
  have hmap := h.handles path
  rw [hp'] at hmap
  obtain ⟨p, hp, hhandles⟩ := Option.map_eq_some_iff.mp hmap.symm
  exact ⟨p, hp, hhandles.symm⟩

theorem SameEvents.forth (h : SameEvents s s') (hp : s.heap path = some p) :
    ∃ p', s'.heap path = some p' ∧ p'.handles = p.handles := by
  have hmap := h.handles path
  rw [hp] at hmap
  exact Option.map_eq_some_iff.mp hmap

theorem EventsInv.of_same (hinv : EventsInv s) (h : SameEvents s s') : EventsInv s' where
  paths := by
    intro path p' hp'
    obtain ⟨p, hp, hhandles⟩ := h.back hp'
    exact h.queue.symm ▸ (hinv.paths path p hp).of_handles hhandles
  live := by
    intro e he path howner
    obtain ⟨p, hp⟩ := Option.isSome_iff_exists.mp (hinv.live e (h.queue ▸ he) path howner)
    obtain ⟨p', hp', _⟩ := h.forth hp
    simp [hp']
  fresh := by
    intro hstarted path p' hp'
    obtain ⟨p, hp, hhandles⟩ := h.back hp'
    rw [show p'.pathState = p.pathState from (Prod.mk.inj hhandles).1]
    exact hinv.fresh (h.started ▸ hstarted) path p hp
  nodup := h.paths.symm ▸ hinv.nodup
  values_lt := by
    rw [h.paths, h.nextPath]
    exact hinv.values_lt
  allocated := by
    intro path p' hp'
    obtain ⟨p, hp, _⟩ := h.back hp'
    exact h.nextPath ▸ hinv.allocated path p hp

theorem SameEvents.setPath (hp : s.heap path = some p) (hhandles : p'.handles = p.handles) :
    SameEvents s (s.setPath path (some p')) where
  queue := rfl
  paths := rfl
  nextPath := rfl
  started := rfl
  handles := by
    intro q
    by_cases hq : q = path
    · simp [MpSender.setPath, hq, hp, hhandles]
    · simp [MpSender.setPath, hq]

/-! ## Video -/

theorem SameEvents.timeStamp (s : MpSender) : SameEvents s s.timeStamp.2 := by
  unfold MpSender.timeStamp
  split
  · exact .of_eq rfl rfl rfl rfl rfl
  · exact .refl s

theorem SameEvents.fileSegments (ftype : BitVec 8) (stamp : BitVec 32) (npacket : Nat)
    (splits : List (BitVec 16)) (i : Nat) (s : MpSender) :
    SameEvents s (MpSender.fileSegments ftype stamp npacket i s splits) := by
  induction splits generalizing i s with
  | nil => exact .refl s
  | cons dataSize rest ih =>
      unfold MpSender.fileSegments
      refine SameEvents.trans ?_ (ih (i + 1) _)
      exact .of_eq rfl rfl rfl rfl rfl

theorem SameEvents.queueOnPaths {val val' : SegmentRef} {paths : List Nat}
    (h : s.queueOnPaths val paths = some (s', val')) : SameEvents s s' := by
  induction paths generalizing s val with
  | nil =>
      obtain ⟨rfl, rfl⟩ := Prod.mk.inj (Option.some.inj h)
      exact .refl s
  | cons path rest ih =>
      unfold MpSender.queueOnPaths at h
      split at h
      · exact absurd h nofun
      · rename_i p hp
        split at h
        · refine SameEvents.trans ?_ (ih h)
          exact .setPath hp rfl
        · exact ih h

theorem SameEvents.queueTurn (h : s.queueTurn = some s') : SameEvents s s' := by
  unfold MpSender.queueTurn at h
  simp only at h
  split at h
  · exact absurd h nofun
  · split at h
    · exact absurd h nofun
    · rename_i s₁ val' hqueue
      have hstart : SameEvents s { s with currentPacketId := s.currentPacketId + 1 } :=
        .of_eq rfl rfl rfl rfl rfl
      have hsame := hstart.trans (SameEvents.queueOnPaths hqueue)
      split at h
      · obtain rfl := Option.some.inj h
        exact hsame.trans (.of_eq rfl rfl rfl rfl rfl)
      · obtain rfl := Option.some.inj h
        exact hsame

theorem SameEvents.queueSegments {n : Nat} (h : queueSegments n s = some s') :
    SameEvents s s' := by
  induction n generalizing s with
  | zero => exact Option.some.inj h ▸ .refl s
  | succ n ih =>
      unfold MpSender.queueSegments at h
      split at h
      · exact absurd h nofun
      · rename_i s₁ hturn
        exact (SameEvents.queueTurn hturn).trans (ih h)

theorem SameEvents.schedule {ftype : BitVec 8} {byte : BitVec 32}
    (h : s.schedule ftype byte = some s') : SameEvents s s' := by
  unfold MpSender.schedule at h
  split at h
  · exact absurd h nofun
  · rename_i splits _
    exact ((SameEvents.timeStamp s).trans (.fileSegments ftype s.timeStamp.1 splits.length
      splits 0 s.timeStamp.2)).trans (.queueSegments h)

theorem SameEvents.onPacePacket {info : PathAddressInfo} {packetId : BitVec 32}
    {seq : BitVec 16} (h : s.onPacePacket info packetId seq = some s') : SameEvents s s' := by
  unfold MpSender.onPacePacket at h
  split at h
  · exact absurd h nofun
  · obtain rfl := Option.some.inj h
    simp only
    split
    · exact .of_eq rfl rfl rfl rfl rfl
    · exact .of_eq rfl rfl rfl rfl rfl

theorem SameEvents.paceLoop {l : List PacePacket} (h : s.paceLoop p l = some (s', p')) :
    SameEvents s s' ∧ p'.handles = p.handles := by
  induction l generalizing s p with
  | nil =>
      obtain ⟨rfl, rfl⟩ := Prod.mk.inj (Option.some.inj h)
      exact ⟨.refl s, rfl⟩
  | cons ele rest ih =>
      unfold MpSender.paceLoop at h
      split at h
      · obtain ⟨rfl, rfl⟩ := Prod.mk.inj (Option.some.inj h)
        exact ⟨.refl s, rfl⟩
      · split at h
        · exact absurd h nofun
        · rename_i s₁ hpace
          obtain ⟨hsame, hhandles⟩ := ih h
          exact ⟨(SameEvents.onPacePacket hpace).trans hsame, hhandles⟩

theorem SameEvents.probeLoop (stamp : BitVec 32) (npacket : Nat) (splits : List (BitVec 16))
    (i : Nat) (s : MpSender) (p : Path) :
    let r := MpSender.probeLoop stamp npacket i s p splits
    SameEvents s r.1 ∧ r.2.handles = p.handles := by
  induction splits generalizing i s p with
  | nil => exact ⟨.refl s, rfl⟩
  | cons split rest ih =>
      unfold MpSender.probeLoop
      split
      · obtain ⟨hsame, hhandles⟩ := ih (i + 1) _ _
        refine ⟨SameEvents.trans ?_ hsame, hhandles⟩
        exact .of_eq rfl rfl rfl rfl rfl
      · exact ih (i + 1) s p

theorem SameEvents.probe (h : s.probe p = some (s', p')) :
    SameEvents s s' ∧ p'.handles = p.handles := by
  rcases probe_cases h with ⟨rfl, rfl⟩ | ⟨splits, rfl, rfl⟩
  · exact ⟨.refl s', rfl⟩
  · obtain ⟨hsame, hhandles⟩ := SameEvents.probeLoop s.timeStamp.1 splits.length splits 0
      s.timeStamp.2 p
    exact ⟨(SameEvents.timeStamp s).trans hsame, hhandles⟩

/-! ## Events -/

theorem allLive_iff : s.AllLive ↔ ∀ path, s.heap path = none →
    ¬ s.queue.IsPending (.connect path) ∧ ¬ s.queue.IsPending (.paceCallback path) := by
  constructor
  · intro h path hgone
    exact ⟨h.not_pending hgone rfl, h.not_pending hgone rfl⟩
  · intro h e he path howner
    by_contra hgone
    rw [Bool.not_eq_true, Option.isSome_eq_false_iff, Option.isNone_iff_eq_none] at hgone
    obtain ⟨hconnect, hpace⟩ := h path hgone
    cases haction : e.action with
    | connect q =>
        rw [haction] at howner
        obtain rfl := Option.some.inj howner
        exact hconnect ⟨e, he, haction⟩
    | paceCallback q =>
        rw [haction] at howner
        obtain rfl := Option.some.inj howner
        exact hpace ⟨e, he, haction⟩
    | fakePacket =>
        rw [haction] at howner
        exact absurd howner nofun

/-- Events that stay call the objects they called. -/
theorem AllLive.of_subset (h : s.AllLive) (hsub : ∀ e ∈ s'.queue.pending, e ∈ s.queue.pending)
    (hheap : ∀ path, (s.heap path).isSome → (s'.heap path).isSome) : s'.AllLive :=
  fun e he path howner => hheap path (h e (hsub e he) path howner)

theorem EventsInv.pop (hinv : EventsInv s) (hpop : s.queue.pop = some (e, q'))
    (hne : ∀ path, e.action ≠ .connect path) : EventsInv { s with queue := q' } where
  paths := fun path p hp => (hinv.paths path p hp).pop hpop (hne path)
  live := hinv.live.of_subset (fun e' he' => (((pop_eq_some hpop).2.2 e').mp he').1)
    fun _ hsome => hsome
  fresh := hinv.fresh
  nodup := hinv.nodup
  values_lt := hinv.values_lt
  allocated := hinv.allocated

/-- What holds of one path and of the others holds of all. -/
theorem EventsInv.of_path (hp : s.heap path = some p) (hself : PathInv s.queue path p)
    (hothers : ∀ q p', q ≠ path → s.heap q = some p' → PathInv s.queue q p')
    (hlive : s.AllLive) (hstarted : s.started = true) (hnodup : s.paths.values.Nodup)
    (hvalues : ∀ q ∈ s.paths.values, q < s.nextPath)
    (halloc : ∀ q p, s.heap q = some p → q < s.nextPath) : EventsInv s := by
  refine ⟨?_, hlive, fun hnot => absurd (hstarted.symm.trans hnot) (by decide), hnodup,
    hvalues, halloc⟩
  intro q p₁ hp₁
  by_cases hq : q = path
  · subst hq
    obtain rfl := Option.some.inj (hp.symm.trans hp₁)
    exact hself
  · exact hothers q p₁ hq hp₁

/-- A `Connect` that is sent schedules the next one. -/
theorem EventsInv.schedule_connect {p' : Path} (hp : s.heap path = some p)
    (hready : Ready s.queue path p)
    (hothers : ∀ q p', q ≠ path → s.heap q = some p' → PathInv s.queue q p')
    (hlive : s.AllLive) (hstarted : s.started = true) (hnodup : s.paths.values.Nodup)
    (hvalues : ∀ q ∈ s.paths.values, q < s.nextPath)
    (halloc : ∀ q p, s.heap q = some p → q < s.nextPath) (hidle : p.pathState ≠ .connected)
    (hstate' : p'.pathState = .connecting) (hrx' : p'.rxConEvent = s.queue.nextId)
    (hpace' : p'.paceTimer = p.paceTimer) (hheart' : p'.heartBeat = p.heartBeat) :
    EventsInv { (s.sendTo p.info (.connect s.cid [123]) 0).setPath path (some p') with
      queue := s.queue.schedule (milliSeconds 100) (.connect path) } := by
  refine ⟨?_, ?_, ?_, hnodup, hvalues, ?_⟩
  · intro q p₁ hp₁
    by_cases hq : q = path
    · subst hq
      simp only [MpSender.setPath, if_true, Option.some_inj] at hp₁
      subst hp₁
      constructor
      · exact hrx' ▸ .of_schedule hready.unarmed
      · exact hpace' ▸ hready.pace.schedule nofun
      · exact hheart' ▸ hready.heartBeat
      · exact iff_of_true hstate' (isPending_schedule.mpr (.inr rfl))
      · intro hpaced
        rw [isPending_schedule, or_iff_left nofun] at hpaced
        exact absurd (hready.paced hpaced) hidle
    · simp only [MpSender.setPath, if_neg hq] at hp₁
      refine (hothers q p₁ hq hp₁).schedule ?_
      exact fun howner => hq (Option.some.inj howner).symm
  · intro e he q howner
    by_cases hq : q = path
    · simp [MpSender.setPath, hq]
    · rcases mem_schedule.mp he with he | rfl
      · simpa [MpSender.setPath, sendTo, hq] using hlive e he q howner
      · exact absurd (Option.some.inj howner).symm hq
  · exact fun hnot => absurd (hstarted.symm.trans hnot) (by decide)
  · intro q p₁ hp₁
    by_cases hq : q = path
    · exact hq ▸ halloc path p hp
    · simp only [MpSender.setPath, if_neg hq] at hp₁
      exact halloc q p₁ hp₁

/-- A path that is connected cancels its timers. -/
theorem EventsInv.cancel_timers (hinv : EventsInv s) (hp : s.heap path = some p)
    (hself : PathInv s.queue path p) (hstate : p.pathState = .connected) :
    EventsInv { s with queue := s.queue.cancel p.rxConEvent } := by
  refine ⟨?_, ?_, hinv.fresh, hinv.nodup, hinv.values_lt, hinv.allocated⟩
  · intro q p₁ hp₁
    by_cases hq : q = path
    · subst hq
      obtain rfl := Option.some.inj (hp.symm.trans hp₁)
      constructor
      · exact hself.rxCon.cancel
      · exact hself.pace.cancel
      · exact hself.heartBeat
      · exact iff_of_false (by simp [hstate]) hself.rxCon.not_pending
      · exact fun _ => hstate
    · refine (hinv.paths q p₁ hp₁).cancel hself.rxCon ?_
      exact fun howner => hq (Option.some.inj howner).symm
  · exact hinv.live.of_subset (fun e he => (mem_cancel.mp he).1) fun _ hsome => hsome

/-- `Connect` on a path without a pending retry. -/
theorem EventsInv.connect (hp : s.heap path = some p) (hready : Ready s.queue path p)
    (hothers : ∀ q p', q ≠ path → s.heap q = some p' → PathInv s.queue q p')
    (hlive : s.AllLive) (hstarted : s.started = true) (hnodup : s.paths.values.Nodup)
    (hvalues : ∀ q ∈ s.paths.values, q < s.nextPath)
    (halloc : ∀ q p, s.heap q = some p → q < s.nextPath)
    (h : s.connect path = some s') :
    EventsInv s' ∧ s'.started = s.started ∧ ∀ q, q ≠ path → s'.heap q = s.heap q := by
  unfold MpSender.connect at h
  rw [hp, Option.bind_eq_bind, Option.bind_some] at h
  by_cases hretry : p.pathState = .idle ∨ p.pathState = .disconnected ∨
      p.pathState = .connecting
  · obtain ⟨p', hstate', hrx', hpace', hheart', rfl⟩ : ∃ p' : Path,
        p'.pathState = .connecting ∧ p'.rxConEvent = s.queue.nextId ∧
        p'.paceTimer = p.paceTimer ∧ p'.heartBeat = p.heartBeat ∧
        { (s.sendTo p.info (.connect s.cid [123]) 0).setPath path (some p') with
          queue := s.queue.schedule (milliSeconds 100) (.connect path) } = s' := by
      refine ⟨{ p with pathState := .connecting, rxConEvent := s.queue.nextId }, rfl, rfl,
        rfl, rfl, ?_⟩
      rcases hretry with hstate | hstate | hstate <;> rw [hstate] at h <;>
        exact Option.some.inj h
    have hidle : p.pathState ≠ .connected := by
      intro hstate
      simp [hstate] at hretry
    refine ⟨.schedule_connect hp hready hothers hlive hstarted hnodup hvalues halloc hidle
      hstate' hrx' hpace' hheart', rfl, fun q hq => ?_⟩
    simp [MpSender.setPath, sendTo, hq]
  · obtain ⟨hidle, hrest⟩ := not_or.mp hretry
    obtain ⟨hdisconnected, hconnecting⟩ := not_or.mp hrest
    have hself := hready.inv hconnecting
    have hinv : EventsInv s :=
      .of_path hp hself hothers hlive hstarted hnodup hvalues halloc
    cases hstate : p.pathState <;> rw [hstate] at h hidle hdisconnected hconnecting
    · exact absurd rfl hidle
    · exact absurd rfl hconnecting
    · obtain rfl := Option.some.inj h
      exact ⟨hinv.cancel_timers hp hself hstate, rfl, fun _ _ => rfl⟩
    · obtain rfl := Option.some.inj h
      exact ⟨hinv, rfl, fun _ _ => rfl⟩
    · exact absurd rfl hdisconnected

theorem EventsInv.startApplication (hinv : EventsInv s) (h : s.startApplication = some s') :
    EventsInv s' := by
  unfold MpSender.startApplication at h
  split at h
  · exact absurd h nofun
  · rename_i hnot
    have hloop : ∀ (paths : List Nat) (s₁ : MpSender), paths.Nodup → EventsInv s₁ →
        s₁.started = true →
        (∀ path ∈ paths, ∀ p, s₁.heap path = some p → p.pathState ≠ .connecting) →
        paths.foldlM MpSender.connect s₁ = some s' → EventsInv s' := by
      intro paths
      induction paths with
      | nil =>
          intro s₁ _ hinv₁ _ _ h₁
          exact Option.some.inj h₁ ▸ hinv₁
      | cons path rest ih =>
          intro s₁ hnodup hinv₁ hstarted hidle h₁
          obtain ⟨hpath, hnodup⟩ := List.nodup_cons.mp hnodup
          obtain ⟨s₂, hconnect, hrest⟩ := Option.bind_eq_some_iff.mp h₁
          obtain ⟨p, hp, _⟩ := Option.bind_eq_some_iff.mp hconnect
          have hready := (hinv₁.paths path p hp).ready
            (hidle path (List.mem_cons_self ..) p hp)
          obtain ⟨hinv₂, hsame, hheap⟩ := EventsInv.connect hp hready
            (fun q p' _ hp' => hinv₁.paths q p' hp') hinv₁.live hstarted hinv₁.nodup
            hinv₁.values_lt hinv₁.allocated hconnect
          refine ih s₂ hnodup hinv₂ ?_ ?_ hrest
          · exact hsame.trans hstarted
          · intro q hq p₁ hp₁
            have hne : q ≠ path := fun heq => hpath (heq ▸ hq)
            rw [hheap q hne] at hp₁
            exact hidle q (List.mem_cons_of_mem _ hq) p₁ hp₁
    have hinv₁ : EventsInv { s with started := true } :=
      ⟨hinv.paths, hinv.live, nofun, hinv.nodup, hinv.values_lt, hinv.allocated⟩
    refine hloop _ _ hinv.nodup hinv₁ rfl ?_ h
    intro path _ p hp
    exact hinv.fresh (Bool.eq_false_iff.mpr hnot) path p hp

theorem EventsInv.addPathTurn (hinv : EventsInv s) (lastUpdate : Nat)
    (byteRemaining : BitVec 32) (info : PathAddressInfo) :
    EventsInv (MpSender.addPathTurn lastUpdate byteRemaining s info) := by
  have hgone : s.heap s.nextPath = none := by
    cases hheap : s.heap s.nextPath with
    | none => rfl
    | some p => exact absurd (hinv.allocated _ p hheap) (Nat.lt_irrefl _)
  have hheap : ∀ q p, (MpSender.addPathTurn lastUpdate byteRemaining s info).heap q = some p →
      q = s.nextPath ∧ p = .new info s.pathNum lastUpdate byteRemaining ∨
      q ≠ s.nextPath ∧ s.heap q = some p := by
    intro q p hp
    by_cases hq : q = s.nextPath
    · simp only [MpSender.addPathTurn, MpSender.setPath, hq, if_true, Option.some_inj] at hp
      exact .inl ⟨hq, hp.symm⟩
    · simp only [MpSender.addPathTurn, MpSender.setPath, if_neg hq] at hp
      exact .inr ⟨hq, hp⟩
  constructor
  · intro q p hp
    rcases hheap q p hp with ⟨rfl, rfl⟩ | ⟨_, hp⟩
    · exact .new info s.pathNum lastUpdate byteRemaining
        (hinv.live.not_pending hgone rfl) (hinv.live.not_pending hgone rfl)
    · exact hinv.paths q p hp
  · refine hinv.live.of_subset (fun _ he => he) ?_
    intro q hsome
    by_cases hq : q = s.nextPath
    · simp [MpSender.addPathTurn, MpSender.setPath, hq]
    · simpa [MpSender.addPathTurn, MpSender.setPath, hq] using hsome
  · intro hstarted q p hp
    rcases hheap q p hp with ⟨rfl, rfl⟩ | ⟨_, hp⟩
    · exact nofun
    · exact hinv.fresh hstarted q p hp
  · refine ComparatorMap.nodup_values_insert hinv.nodup ?_
    exact fun hmem => Nat.lt_irrefl _ (hinv.values_lt _ hmem)
  · intro q hq
    rcases ComparatorMap.mem_values_insert hq with rfl | hq
    · exact Nat.lt_succ_self _
    · exact Nat.lt_succ_of_lt (hinv.values_lt q hq)
  · intro q p hp
    rcases hheap q p hp with ⟨rfl, rfl⟩ | ⟨_, hp⟩
    · exact Nat.lt_succ_self _
    · exact Nat.lt_succ_of_lt (hinv.allocated q p hp)

theorem EventsInv.addPath (hinv : EventsInv s)
    (isExistPath : Ipv4Address → Ipv4Address → Bool) (destIp : Ipv4Address)
    (destPort : Port) (lastUpdate : Nat) (byteRemaining : BitVec 32) :
    EventsInv (s.addPath isExistPath destIp destPort lastUpdate byteRemaining) := by
  unfold MpSender.addPath
  induction s.addPathInfos isExistPath destIp destPort generalizing s with
  | nil => exact hinv
  | cons info rest ih => exact ih (hinv.addPathTurn lastUpdate byteRemaining info)

/-! ## Messages -/

theorem EventsInv.processConnectAck (hinv : EventsInv s) (hp : s.heap path = some p) :
    EventsInv (s.processConnectAck path p) := by
  have hself := hinv.paths path p hp
  have hheap : ∀ q p₁, (s.processConnectAck path p).heap q = some p₁ →
      q = path ∧ p₁ = { p with pathState := .connected } ∨ q ≠ path ∧ s.heap q = some p₁ := by
    intro q p₁ hp₁
    by_cases hq : q = path
    · simp only [MpSender.processConnectAck, MpSender.setPath, hq, if_true,
        Option.some_inj] at hp₁
      exact .inl ⟨hq, hp₁.symm⟩
    · simp only [MpSender.processConnectAck, MpSender.setPath, if_neg hq] at hp₁
      exact .inr ⟨hq, hp₁⟩
  constructor
  · intro q p₁ hp₁
    rcases hheap q p₁ hp₁ with ⟨rfl, rfl⟩ | ⟨hq, hp₁⟩
    · constructor
      · exact hself.rxCon.cancel
      · exact hself.pace.cancel
      · exact hself.heartBeat
      · exact iff_of_false nofun hself.rxCon.not_pending
      · exact fun _ => rfl
    · refine (hinv.paths q p₁ hp₁).cancel hself.rxCon ?_
      exact fun howner => hq (Option.some.inj howner).symm
  · refine hinv.live.of_subset (fun e he => (mem_cancel.mp he).1) ?_
    intro q hsome
    by_cases hq : q = path
    · simp [MpSender.processConnectAck, MpSender.setPath, hq]
    · simpa [MpSender.processConnectAck, MpSender.setPath, hq] using hsome
  · intro hstarted q p₁ hp₁
    rcases hheap q p₁ hp₁ with ⟨rfl, rfl⟩ | ⟨_, hp₁⟩
    · exact nofun
    · exact hinv.fresh hstarted q p₁ hp₁
  · exact hinv.nodup
  · exact hinv.values_lt
  · intro q p₁ hp₁
    rcases hheap q p₁ hp₁ with ⟨rfl, rfl⟩ | ⟨_, hp₁⟩
    · exact hinv.allocated q p hp
    · exact hinv.allocated q p₁ hp₁

theorem activate_heap (s : MpSender) : s.activate.heap = s.heap := by
  unfold activate
  split <;> rfl

theorem activate_pending (s : MpSender) : s.activate.queue.IsPending (.paceCallback path) ↔
    s.queue.IsPending (.paceCallback path) := by
  unfold activate
  split
  · exact Iff.rfl
  · exact isPending_schedule.trans (or_iff_left nofun)

theorem EventsInv.activate (hinv : EventsInv s) : EventsInv s.activate := by
  unfold MpSender.activate
  split
  · exact hinv
  · refine ⟨?_, ?_, hinv.fresh, hinv.nodup, hinv.values_lt, hinv.allocated⟩
    · exact fun q p hp => (hinv.paths q p hp).schedule nofun
    · intro e he q howner
      rcases mem_schedule.mp he with he | rfl
      · exact hinv.live e he q howner
      · exact absurd howner nofun

/-- A connected path that is not paced gets its next event. -/
theorem EventsInv.pace (hinv : EventsInv s) (hp : s.heap path = some p)
    (hstate : p.pathState = .connected) (hidle : ¬ s.queue.IsPending (.paceCallback path))
    (delay : Nat) (hhandles : p'.handles =
      ({ p with paceTimer := s.queue.nextId } : Path).handles) :
    EventsInv { s.setPath path (some p') with
      queue := s.queue.schedule delay (.paceCallback path) } := by
  have hself := hinv.paths path p hp
  have hnew : PathInv (s.queue.schedule delay (.paceCallback path)) path
      { p with paceTimer := s.queue.nextId } := by
    constructor
    · exact hself.rxCon.schedule nofun
    · exact .of_schedule hidle
    · exact hself.heartBeat
    · rw [isPending_schedule, or_iff_left nofun]
      exact hself.connecting_iff
    · exact fun _ => hstate
  have hheap : ∀ q p₁, (s.setPath path (some p')).heap q = some p₁ →
      q = path ∧ p₁ = p' ∨ q ≠ path ∧ s.heap q = some p₁ := by
    intro q p₁ hp₁
    by_cases hq : q = path
    · simp only [MpSender.setPath, hq, if_true, Option.some_inj] at hp₁
      exact .inl ⟨hq, hp₁.symm⟩
    · simp only [MpSender.setPath, if_neg hq] at hp₁
      exact .inr ⟨hq, hp₁⟩
  have hstate' : p'.pathState = .connected := (Prod.mk.inj hhandles).1.trans hstate
  constructor
  · intro q p₁ hp₁
    rcases hheap q p₁ hp₁ with ⟨rfl, rfl⟩ | ⟨hq, hp₁⟩
    · exact hnew.of_handles hhandles
    · refine (hinv.paths q p₁ hp₁).schedule ?_
      exact fun howner => hq (Option.some.inj howner).symm
  · intro e he q howner
    by_cases hq : q = path
    · simp [MpSender.setPath, hq]
    · rcases mem_schedule.mp he with he | rfl
      · simpa [MpSender.setPath, hq] using hinv.live e he q howner
      · exact absurd (Option.some.inj howner).symm hq
  · intro hstarted q p₁ hp₁
    rcases hheap q p₁ hp₁ with ⟨rfl, rfl⟩ | ⟨_, hp₁⟩
    · simp [hstate']
    · exact hinv.fresh hstarted q p₁ hp₁
  · exact hinv.nodup
  · exact hinv.values_lt
  · intro q p₁ hp₁
    rcases hheap q p₁ hp₁ with ⟨rfl, rfl⟩ | ⟨_, hp₁⟩
    · exact hinv.allocated q p hp
    · exact hinv.allocated q p₁ hp₁

theorem EventsInv.recvPacket {info : PathAddressInfo} {message : SimMessage}
    (hinv : EventsInv s) (h : s.recvPacket info message = some s') : EventsInv s' := by
  unfold MpSender.recvPacket at h
  obtain ⟨path, _, h⟩ := Option.bind_eq_some_iff.mp h
  obtain ⟨p, hp, h⟩ := Option.bind_eq_some_iff.mp h
  split at h
  · have hack := (hinv.processConnectAck hp).activate
    simp only [Option.bind_eq_bind] at h
    by_cases hstate : p.pathState = .connecting
    · rw [if_pos hstate] at h
      obtain ⟨p₁, hp₁, h⟩ := Option.bind_eq_some_iff.mp h
      obtain rfl := Option.some.inj h
      have hp₁' : p₁ = { p with pathState := .connected } := by
        rw [activate_heap] at hp₁
        simpa [MpSender.processConnectAck, MpSender.setPath] using hp₁.symm
      refine hack.pace hp₁ (by rw [hp₁']) ?_ 0 rfl
      -- a connecting path has not been paced
      rw [activate_pending]
      rintro ⟨e, he, ha⟩
      have hpaced := (hinv.paths path p hp).paced ⟨e, (mem_cancel.mp he).1, ha⟩
      exact absurd (hstate.symm.trans hpaced) nofun
    · rw [if_neg hstate] at h
      exact Option.some.inj h ▸ hack
  · obtain rfl := Option.some.inj h
    exact hinv.of_same (.of_eq rfl rfl rfl rfl rfl)
  · exact Option.some.inj h ▸ hinv

theorem EventsInv.paceCallback (hinv : EventsInv s) (hp : s.heap path = some p)
    (hstate : p.pathState = .connected) (hidle : ¬ s.queue.IsPending (.paceCallback path))
    (h : s.paceCallback path = some s') : EventsInv s' := by
  unfold MpSender.paceCallback at h
  have hbudget : ∀ delta, (p.increaseBudget delta).handles = p.handles := by
    intro delta
    unfold Path.increaseBudget
    split <;> rfl
  rw [hp, Option.bind_eq_bind, Option.bind_some] at h
  simp only at h
  split at h
  · obtain ⟨⟨s₁, p₁⟩, hpace, h⟩ := Option.bind_eq_some_iff.mp h
    obtain ⟨⟨s₂, p₂⟩, hprobe, h⟩ := Option.bind_eq_some_iff.mp h
    obtain rfl := Option.some.inj h
    obtain ⟨hsame₁, hhandles₁⟩ := SameEvents.paceLoop hpace
    obtain ⟨hsame₂, hhandles₂⟩ := SameEvents.probe hprobe
    have hsame := hsame₁.trans hsame₂
    have hhandles : p₂.handles = p.handles :=
      hhandles₂.trans (hhandles₁.trans (hbudget _))
    obtain ⟨p₃, hp₃, hhandles₃⟩ := hsame.forth hp
    have hstate₃ : p₃.pathState = .connected := (Prod.mk.inj hhandles₃).1.trans hstate
    refine (hinv.of_same hsame).pace hp₃ hstate₃ ?_ (milliSeconds paceGap) ?_
    · exact hsame.queue ▸ hidle
    · have heq := hhandles.trans hhandles₃.symm
      simp only [Path.handles, Prod.mk.injEq] at heq ⊢
      exact ⟨heq.1, heq.2.1, trivial, heq.2.2.2⟩
  · obtain rfl := Option.some.inj h
    exact hinv.of_same (.setPath hp (hbudget _))

/-! ## Stopping -/

/-- Destructors keep what the other paths know of their events, and cancel pacing. -/
theorem deleteLoop_eq (paths : List Nat) (s : MpSender)
    (hinv : ∀ q p, s.heap q = some p → PathInv s.queue q p) :
    let r := paths.foldl deletePath s
    (∀ q p, r.heap q = some p → PathInv r.queue q p) ∧
    (∀ q, r.heap q = if q ∈ paths then none else s.heap q) ∧
    (∀ q, r.queue.IsPending (.connect q) ↔ s.queue.IsPending (.connect q)) ∧
    (∀ q, r.queue.IsPending (.paceCallback q) ↔ s.queue.IsPending (.paceCallback q) ∧
      ¬ (q ∈ paths ∧ (s.heap q).isSome)) ∧
    r.started = s.started ∧ r.nextPath = s.nextPath := by
  induction paths generalizing s with
  | nil => exact ⟨hinv, by simp, by simp, by simp, rfl, rfl⟩
  | cons path rest ih =>
      cases hp : s.heap path with
      | none =>
          have hsame : s.deletePath path = s := by
            simp [MpSender.deletePath, hp]
          obtain ⟨h₁, h₂, h₃, h₄, h₅⟩ := ih s hinv
          rw [List.foldl_cons, hsame]
          refine ⟨h₁, ?_, h₃, ?_, h₅⟩
          · intro q
            rw [h₂ q]
            by_cases hq : q = path
            · simp [hq, hp]
            · simp [hq]
          · intro q
            rw [h₄ q]
            by_cases hq : q = path
            · simp [hq, hp]
            · simp [hq]
      | some p =>
          have hself := hinv path p hp
          have hdelete : s.deletePath path =
              { s.setPath path none with queue := s.queue.cancel p.paceTimer } := by
            simp [MpSender.deletePath, hp, hself.heartBeat]
          have hinv₁ : ∀ q p₁, (s.deletePath path).heap q = some p₁ →
              PathInv (s.deletePath path).queue q p₁ := by
            rw [hdelete]
            intro q p₁ hp₁
            by_cases hq : q = path
            · simp [MpSender.setPath, hq] at hp₁
            · simp only [MpSender.setPath, if_neg hq] at hp₁
              refine (hinv q p₁ hp₁).cancel hself.pace ?_
              exact fun howner => hq (Option.some.inj howner).symm
          obtain ⟨h₁, h₂, h₃, h₄, h₅, h₆⟩ := ih (s.deletePath path) hinv₁
          rw [List.foldl_cons]
          rw [hdelete] at h₁ h₂ h₃ h₄ h₅ h₆ ⊢
          refine ⟨h₁, ?_, ?_, ?_, h₅, h₆⟩
          · intro q
            rw [h₂ q]
            by_cases hq : q = path
            · simp [MpSender.setPath, hq]
            · simp [MpSender.setPath, hq]
          · intro q
            rw [h₃ q]
            exact hself.pace.refers.isPending_cancel nofun
          · intro q
            rw [h₄ q]
            by_cases hq : q = path
            · subst hq
              simp [MpSender.setPath, hp, hself.pace.not_pending]
            · have hne : PathEvent.paceCallback q ≠ .paceCallback path :=
                fun heq => hq (PathEvent.paceCallback.inj heq)
              simp [MpSender.setPath, hq, hself.pace.refers.isPending_cancel hne]

/-- **Stopping** leaves no event of a deleted path exactly if no path is connecting. -/
theorem EventsInv.stop_live_iff (hinv : EventsInv s) :
    s.stopApplication.AllLive ↔ s.NoneConnecting := by
  obtain ⟨_, hheap, hconnect, hpace, _⟩ := deleteLoop_eq s.paths.values s hinv.paths
  rw [allLive_iff]
  constructor
  · intro hlive path hmem p hp hstate
    have hgone : s.stopApplication.heap path = none := (hheap path).trans (if_pos hmem)
    refine (hlive path hgone).1 ((hconnect path).mpr ?_)
    exact (hinv.paths path p hp).connecting_iff.mp hstate
  · intro hnone path hgone
    cases hp : s.heap path with
    | none =>
        constructor
        · intro hpending
          exact hinv.live.not_pending hp rfl ((hconnect path).mp hpending)
        · intro hpending
          exact hinv.live.not_pending hp rfl ((hpace path).mp hpending).1
    | some p =>
        have hmem : path ∈ s.paths.values := by
          by_contra hmem
          have hkept := (hheap path).trans (if_neg hmem)
          rw [hp] at hkept
          exact absurd (hkept.symm.trans hgone) nofun
        constructor
        · intro hpending
          exact hnone path hmem p hp
            ((hinv.paths path p hp).connecting_iff.mpr ((hconnect path).mp hpending))
        · intro hpending
          exact ((hpace path).mp hpending).2 ⟨hmem, by simp [hp]⟩

theorem EventsInv.stopApplication (hinv : EventsInv s) (hlive : s.stopApplication.AllLive) :
    EventsInv s.stopApplication := by
  obtain ⟨hpaths, hheap, _, _, hstarted, hnext⟩ :=
    deleteLoop_eq s.paths.values s hinv.paths
  have hback : ∀ q p, s.stopApplication.heap q = some p → s.heap q = some p := by
    intro q p hp
    have hp' := (hheap q).symm.trans hp
    split at hp'
    · exact absurd hp' nofun
    · exact hp'
  constructor
  · exact hpaths
  · exact hlive
  · intro hnot q p hp
    exact hinv.fresh (hstarted ▸ hnot) q p (hback q p hp)
  · exact List.nodup_nil
  · exact nofun
  · intro q p hp
    exact hnext.symm ▸ hinv.allocated q p (hback q p hp)

/-! ## Runs -/

section Runs

variable {isExistPath : Ipv4Address → Ipv4Address → Bool} {frameBytes : BitVec 32}

theorem EventsInv.fakePacket (hinv : EventsInv s) (h : s.fakePacket frameBytes = some s') :
    EventsInv s' := by
  unfold MpSender.fakePacket at h
  split at h
  · split at h
    · exact absurd h nofun
    · rename_i s₁ hschedule
      obtain rfl := Option.some.inj h
      have hinv₁ := hinv.of_same (SameEvents.schedule hschedule)
      refine ⟨?_, ?_, hinv₁.fresh, hinv₁.nodup, hinv₁.values_lt, hinv₁.allocated⟩
      · exact fun q p hp => (hinv₁.paths q p hp).schedule nofun
      · intro e he q howner
        rcases mem_schedule.mp he with he | rfl
        · exact hinv₁.live e he q howner
        · exact absurd howner nofun
  · exact Option.some.inj h ▸ hinv

theorem EventsInv.runEvent (hinv : EventsInv s) (hpop : s.queue.pop = some (e, q'))
    (h : MpSender.runEvent frameBytes { s with queue := q' } e.action = some s') :
    EventsInv s' := by
  have hmem := (pop_eq_some hpop).1
  cases haction : e.action with
  | connect path =>
      rw [haction] at h
      obtain ⟨p, hp⟩ := Option.isSome_iff_exists.mp
        (hinv.live e hmem path (by rw [haction]; rfl))
      have hself := hinv.paths path p hp
      have hstarted : s.started = true := by
        by_contra hnot
        exact hinv.fresh (Bool.eq_false_iff.mpr hnot) path p hp
          (hself.connecting_iff.mpr ⟨e, hmem, haction⟩)
      have hothers : ∀ q p', q ≠ path → s.heap q = some p' → PathInv q' q p' := by
        intro q p' hq hp'
        refine (hinv.paths q p' hp').pop hpop ?_
        rw [haction]
        exact fun heq => hq (PathEvent.connect.inj heq).symm
      have hlive : ({ s with queue := q' } : MpSender).AllLive :=
        hinv.live.of_subset (fun e' he' => (((pop_eq_some hpop).2.2 e').mp he').1)
          fun _ hsome => hsome
      have hp₁ : ({ s with queue := q' } : MpSender).heap path = some p := hp
      exact (EventsInv.connect hp₁ (hself.pop_connect hpop haction) hothers hlive hstarted
        hinv.nodup hinv.values_lt hinv.allocated h).1
  | paceCallback path =>
      rw [haction] at h
      obtain ⟨p, hp⟩ := Option.isSome_iff_exists.mp
        (hinv.live e hmem path (by rw [haction]; rfl))
      have hself := hinv.paths path p hp
      have hinv₁ := hinv.pop hpop (by simp [haction])
      have hidle : ¬ q'.IsPending (.paceCallback path) := by
        rw [← haction]
        exact (haction ▸ hself.pace).not_pending_of_pop hpop
      exact hinv₁.paceCallback hp (hself.paced ⟨e, hmem, haction⟩) hidle h
  | fakePacket =>
      rw [haction] at h
      exact (hinv.pop hpop (by simp [haction])).fakePacket h

theorem EventsInv.advance {t : Nat} (hinv : EventsInv s) (h : s.queue.advance? t = some q') :
    EventsInv { s with queue := q' } := by
  obtain ⟨hpending, _, hnext⟩ := advance?_eq_some h
  refine ⟨?_, ?_, hinv.fresh, hinv.nodup, hinv.values_lt, hinv.allocated⟩
  · exact fun q p hp => (hinv.paths q p hp).of_pending hpending hnext
  · exact hinv.live.of_subset (fun e he => hpending ▸ he) fun _ hsome => hsome

/-- Every call but stopping keeps the invariant. -/
theorem EventsInv.call {i : Input} (hinv : EventsInv s) (hstop : i ≠ .stop)
    (h : MpSender.call isExistPath frameBytes s i = some s') : EventsInv s' := by
  cases i with
  | addPath destIp destPort lastUpdate byteRemaining =>
      exact Option.some.inj h ▸
        hinv.addPath isExistPath destIp destPort lastUpdate byteRemaining
  | start => exact hinv.startApplication h
  | stop => exact absurd rfl hstop
  | packet info message => exact hinv.recvPacket h
  | schedule ftype byte => exact hinv.of_same (.schedule h)
  | timer =>
      simp only [MpSender.call] at h
      split at h
      · exact absurd h nofun
      · rename_i e queue hpop
        exact hinv.runEvent hpop h

variable (isExistPath frameBytes)

/-- A step after which every pending event calls an object that exists. -/
def LiveStep (s : MpSender) (e : Nat × Input) (s' : MpSender) : Prop :=
  Step isExistPath frameBytes s e s' ∧ s'.AllLive

/-- A step that does not stop the sender while a path is connecting. -/
def ConnectedStop (s : MpSender) (e : Nat × Input) (s' : MpSender) : Prop :=
  Step isExistPath frameBytes s e s' ∧ (e.2 = .stop → s.NoneConnecting)

variable {isExistPath frameBytes}

theorem liveStep_iff {i : Nat × Input} (hinv : EventsInv s) :
    LiveStep isExistPath frameBytes s i s' ↔ ConnectedStop isExistPath frameBytes s i s' := by
  refine and_congr_right fun hstep => ?_
  obtain ⟨queue, hqueue, hcall⟩ := step_iff.mp hstep
  have hinv₁ := hinv.advance hqueue
  by_cases hstop : i.2 = .stop
  · rw [hstop] at hcall
    obtain rfl := Option.some.inj hcall
    rw [hinv₁.stop_live_iff]
    exact ⟨fun h _ => h, fun h => h hstop⟩
  · exact iff_of_true (hinv₁.call hstop hcall).live fun h => absurd h hstop

theorem LiveStep.inv {i : Nat × Input} (hinv : EventsInv s)
    (h : LiveStep isExistPath frameBytes s i s') : EventsInv s' := by
  obtain ⟨hstep, hlive⟩ := h
  obtain ⟨queue, hqueue, hcall⟩ := step_iff.mp hstep
  have hinv₁ := hinv.advance hqueue
  by_cases hstop : i.2 = .stop
  · rw [hstop] at hcall
    obtain rfl := Option.some.inj hcall
    exact hinv₁.stopApplication hlive
  · exact hinv₁.call hstop hcall

theorem EventsInv.new (cid uid frameId : BitVec 32)
    (sockets : ComparatorMap Ipv4Address Port compSocket) :
    EventsInv (new cid uid frameId sockets) where
  paths := nofun
  live := nofun
  fresh := nofun
  nodup := List.nodup_nil
  values_lt := nofun
  allocated := nofun

/-- **The events of paths**: every pending event of a run calls a path that exists,
exactly if the sender never stops while a path is connecting. -/
theorem liveRun_iff (cid uid frameId : BitVec 32)
    (sockets : ComparatorMap Ipv4Address Port compSocket) (es : List (Nat × Input))
    (s : MpSender) :
    Run (LiveStep isExistPath frameBytes) (MpSender.new cid uid frameId sockets) es s ↔
      Run (ConnectedStop isExistPath frameBytes) (MpSender.new cid uid frameId sockets) es s := by
  have hinv : ∀ es s, Run (LiveStep isExistPath frameBytes)
      (MpSender.new cid uid frameId sockets) es s → EventsInv s := by
    intro es s hrun
    exact hrun.stateInvariant (EventsInv.new cid uid frameId sockets)
      fun _ _ _ hinv hstep => hstep.inv hinv
  constructor
  · intro hrun
    induction hrun with
    | nil => exact .nil
    | snoc hprev hstep ih => exact .snoc ih ((liveStep_iff (hinv _ _ hprev)).mp hstep)
  · intro hrun
    induction hrun with
    | nil => exact .nil
    | snoc _ hstep ih => exact .snoc ih ((liveStep_iff (hinv _ _ ih)).mpr hstep)

end Runs

end MpSender

/-! ## Owners of events -/

/-- **Every pending event calls an object that exists** in a run of an endpoint exactly
if no disconnect arrives while it has a sender, and in a run of a multipath sender
exactly if it does not stop while a path is connecting. -/
theorem eventOwners_live_iff (uid cid : BitVec 32) :
    (∀ dataBytes initiator peerIp peerPort bitRate frameRate packetSize es s,
      let s₀ := SimEndpoint.new initiator peerIp peerPort uid cid bitRate frameRate packetSize
      Run (SimEndpoint.LiveStep dataBytes) s₀ es s ↔
        Run (SimEndpoint.SenderKept dataBytes) s₀ es s) ∧
    ∀ isExistPath frameBytes frameId sockets es s,
      let s₀ := MpSender.new cid uid frameId sockets
      Run (MpSender.LiveStep isExistPath frameBytes) s₀ es s ↔
        Run (MpSender.ConnectedStop isExistPath frameBytes) s₀ es s := by
  constructor
  · intro dataBytes initiator peerIp peerPort bitRate frameRate packetSize es s
    exact SimEndpoint.liveRun_iff initiator peerIp peerPort uid cid bitRate frameRate
      packetSize es s
  · intro isExistPath frameBytes frameId sockets es s
    exact MpSender.liveRun_iff cid uid frameId sockets es s

/-- A session that is disconnected by the peer. -/
def disconnected : List (Nat × SimEndpoint.Input) :=
  [(0, .start), (0, .packet 0x0a010201 5000 (.connectAck 7 0) 0 []),
    (0, .packet 0x0a010201 5000 (.disconnect 7) 0 [])]

/-- A path that has no answer yet when the sender stops. -/
def stoppedConnecting : List (Nat × MpSender.Input) :=
  [(0, .addPath 0x0a010201 5000 0 0), (0, .start), (0, .stop)]

/-- The heartbeat of a deleted sender, and the retry of a deleted path, stay in the
simulator. -/
theorem dead_owners :
    (∃ s, Run (SimEndpoint.Step fun _ _ => 0)
      (.new true 0x0a010201 5000 1 7 800000 40 1000) disconnected s ∧ ¬ s.events.AllLive) ∧
    ∃ s, Run (MpSender.Step (fun _ _ => true) 400)
      (.new 1234 0 0 ⟨[(0x0a010101, 49153)]⟩) stoppedConnecting s ∧ ¬ s.AllLive := by
  constructor
  · have hlast : (disconnected.foldlM (SimEndpoint.step? fun _ _ => 0)
        (.new true 0x0a010201 5000 1 7 800000 40 1000)).map (fun s =>
          (s.sender.isSome, s.queue.pending.any fun e =>
            decide (e.action = .paceHeartBeat 0))) = some (false, true) := by
      decide
    obtain ⟨s, hs, hlast⟩ := Option.map_eq_some_iff.mp hlast
    simp only [Prod.mk.injEq, List.any_eq_true, decide_eq_true_eq] at hlast
    obtain ⟨hgone, e, he, ha⟩ := hlast
    refine ⟨s, .of_foldlM hs, ?_⟩
    intro hlive
    have halive := hlive e he
    rw [ha] at halive
    obtain ⟨id, hid⟩ := halive
    obtain ⟨b, hb, _⟩ := Option.map_eq_some_iff.mp hid
    simp [hb] at hgone
  · have hlast : (stoppedConnecting.foldlM (MpSender.step? (fun _ _ => true) 400)
        (.new 1234 0 0 ⟨[(0x0a010101, 49153)]⟩)).map (fun s =>
          ((s.heap 0).isSome, s.queue.pending.any fun e =>
            decide (e.action = .connect 0))) = some (false, true) := by
      decide
    obtain ⟨s, hs, hlast⟩ := Option.map_eq_some_iff.mp hlast
    simp only [Prod.mk.injEq, List.any_eq_true, decide_eq_true_eq] at hlast
    obtain ⟨hgone, e, he, ha⟩ := hlast
    refine ⟨s, .of_foldlM hs, ?_⟩
    intro hlive
    have halive := hlive e he 0 (by rw [ha]; rfl)
    exact absurd (hgone.symm.trans halive) Bool.false_ne_true

end Multipath
