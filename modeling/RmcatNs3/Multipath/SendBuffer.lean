import RmcatNs3.Lib.Runs
import RmcatNs3.Multipath.MpSender
import RmcatNs3.Razor.FrameSegments

/-!
# The send buffer

What `m_txBuffer` and the pace queues of the paths have to do with each other. The
entries are counted on copies, so every count stays zero and no entry leaves: the
buffer is right only as long as no packet is queued.
-/

namespace Multipath

open Razor Runs

namespace MpSender

/-- The pace queue behind this pointer has the packet. -/
def Holds (s : MpSender) (id : Nat) (path : Nat) : Bool :=
  match s.heap path with
  | none => false
  | some p => p.paceQueue.any fun ele => decide (ele.seq.toNat = id)

/-- The number of paths whose pace queue has the packet. -/
def holders (s : MpSender) (id : Nat) : Nat :=
  (List.range s.nextPath).countP (s.Holds id)

/-- Every packet that is queued is in the buffer. -/
def Present (s : MpSender) : Prop :=
  ∀ path p, s.heap path = some p → ∀ ele ∈ p.paceQueue,
    (s.txBuffer.find? ele.seq.toNat).isSome

/-- Every entry counts the paths that hold its packet, and every packet that is
queued has an entry. -/
structure Counted (s : MpSender) : Prop where
  ref_eq : ∀ b ∈ s.txBuffer, b.2.ref.toNat = s.holders b.1
  present : s.Present

/-- An entry leaves in the step in which the last path that holds it paces it out,
and in no other. -/
def LeavesWithLast (s s' : MpSender) : Prop :=
  ∀ id, (s.txBuffer.find? id).isSome →
    (s'.txBuffer.find? id = none ↔ 0 < s.holders id ∧ s'.holders id = 0)

/-- The call schedules a frame. -/
def Schedules (s : MpSender) : Input → Prop
  | .schedule _ _ => True
  | .timer => ∃ e queue, s.queue.pop = some (e, queue) ∧ e.action = .fakePacket ∧
      queue.isExpired s.generateTimer = true
  | _ => False

/-- No path in the map is connected. -/
def NoneConnected (s : MpSender) : Prop :=
  ∀ path ∈ s.paths.values, ∀ p, s.heap path = some p → p.pathState ≠ .connected

section Steps

variable (isExistPath : Ipv4Address → Ipv4Address → Bool) (frameBytes : BitVec 32)

/-- A step after which the counts are right. -/
def CountedStep (s : MpSender) (e : Nat × Input) (s' : MpSender) : Prop :=
  Step isExistPath frameBytes s e s' ∧ s'.Counted ∧ s.LeavesWithLast s'

/-- A step that schedules a frame only while no path is connected. -/
def IdleStep (s : MpSender) (e : Nat × Input) (s' : MpSender) : Prop :=
  ∃ queue, s.queue.advance? e.1 = some queue ∧
    let s₁ := { s with queue }
    call isExistPath frameBytes s₁ e.2 = some s' ∧ (s₁.Schedules e.2 → s₁.NoneConnected)

end Steps

/-! ## Calls that queue nothing -/

/-- Events, flags and the states of paths change, and nothing is queued or counted. -/
inductive Signals : MpSender → MpSender → Prop
  | same {s s' : MpSender} (hbuffer : s'.txBuffer = s.txBuffer) (hheap : s'.heap = s.heap)
      (hpaths : s'.paths = s.paths) (hnext : s'.nextPath = s.nextPath)
      (hcounters : (s'.currentPacketId, s'.packetId, s'.frameId) =
        (s.currentPacketId, s.packetId, s.frameId)) : Signals s s'
  | path {s : MpSender} {path : Nat} {p p' : Path} (hp : s.heap path = some p)
      (hinfo : p'.info = p.info) (hseq : p'.transSeq = p.transSeq)
      (hqueue : p'.paceQueue = p.paceQueue) : Signals s (s.setPath path (some p'))
  | trans {s s' s'' : MpSender} (h : Signals s s') (h' : Signals s' s'') : Signals s s''

/-- Besides, path objects are made and deleted. -/
inductive Rewires : MpSender → MpSender → Prop
  | signals {s s' : MpSender} (h : Signals s s') : Rewires s s'
  | delete (s : MpSender) (path : Nat) : Rewires s (s.setPath path none)
  | add (lastUpdate : Nat) (byteRemaining : BitVec 32) (s : MpSender)
      (info : PathAddressInfo) : Rewires s (addPathTurn lastUpdate byteRemaining s info)
  | clear (s : MpSender) : Rewires s { s with paths := .empty }
  | trans {s s' s'' : MpSender} (h : Rewires s s') (h' : Rewires s' s'') : Rewires s s''

variable {s s' s'' : MpSender}

theorem Signals.connect {path : Nat} (h : s.connect path = some s') : Signals s s' := by
  unfold MpSender.connect at h
  obtain ⟨p, hp, h⟩ := Option.bind_eq_some_iff.mp h
  have hset := @Signals.path s path p
    { p with pathState := .connecting, rxConEvent := s.queue.nextId } hp rfl rfl rfl
  cases hstate : p.pathState <;> rw [hstate] at h <;> obtain rfl := Option.some.inj h
  · exact hset.trans (.same rfl rfl rfl rfl rfl)
  · exact hset.trans (.same rfl rfl rfl rfl rfl)
  · exact .same rfl rfl rfl rfl rfl
  · exact .same rfl rfl rfl rfl rfl
  · exact hset.trans (.same rfl rfl rfl rfl rfl)

theorem Signals.startApplication (h : s.startApplication = some s') : Signals s s' := by
  unfold MpSender.startApplication at h
  split at h
  · exact absurd h nofun
  · have hloop : ∀ (paths : List Nat) (s₁ : MpSender),
        paths.foldlM MpSender.connect s₁ = some s' → Signals s₁ s' := by
      intro paths
      induction paths with
      | nil =>
          intro s₁ h₁
          obtain rfl := Option.some.inj h₁
          exact .same rfl rfl rfl rfl rfl
      | cons path rest ih =>
          intro s₁ h₁
          obtain ⟨s₂, hconnect, hrest⟩ := Option.bind_eq_some_iff.mp h₁
          exact (Signals.connect hconnect).trans (ih s₂ hrest)
    refine Signals.trans ?_ (hloop _ _ h)
    exact .same rfl rfl rfl rfl rfl

theorem Signals.activate (s : MpSender) : Signals s s.activate := by
  unfold MpSender.activate
  split
  · exact .same rfl rfl rfl rfl rfl
  · exact .same rfl rfl rfl rfl rfl

theorem Signals.recvPacket {info : PathAddressInfo} {message : SimMessage}
    (h : s.recvPacket info message = some s') : Signals s s' := by
  unfold MpSender.recvPacket at h
  obtain ⟨path, _, h⟩ := Option.bind_eq_some_iff.mp h
  obtain ⟨p, hp, h⟩ := Option.bind_eq_some_iff.mp h
  have hack : Signals s (s.processConnectAck path p).activate := by
    have hset := @Signals.path s path p { p with pathState := .connected } hp rfl rfl rfl
    refine Signals.trans ?_ (.activate _)
    exact hset.trans (.same rfl rfl rfl rfl rfl)
  split at h
  · simp only [Option.bind_eq_bind] at h
    split at h
    · obtain ⟨p₁, hp₁, h⟩ := Option.bind_eq_some_iff.mp h
      obtain rfl := Option.some.inj h
      refine hack.trans ?_
      unfold startPace
      refine Signals.trans (.path hp₁ ?_ ?_ ?_) (.same rfl rfl rfl rfl rfl)
      · rfl
      · rfl
      · rfl
    · obtain rfl := Option.some.inj h
      exact hack
  · obtain rfl := Option.some.inj h
    exact .same rfl rfl rfl rfl rfl
  · obtain rfl := Option.some.inj h
    exact .same rfl rfl rfl rfl rfl

theorem Rewires.deletePath (s : MpSender) (path : Nat) : Rewires s (s.deletePath path) := by
  unfold MpSender.deletePath
  split
  · exact .signals (.same rfl rfl rfl rfl rfl)
  · exact (Rewires.delete s path).trans (.signals (.same rfl rfl rfl rfl rfl))

theorem Rewires.addPath (isExistPath : Ipv4Address → Ipv4Address → Bool)
    (destIp : Ipv4Address) (destPort : Port) (lastUpdate : Nat) (byteRemaining : BitVec 32)
    (s : MpSender) :
    Rewires s (s.addPath isExistPath destIp destPort lastUpdate byteRemaining) := by
  unfold MpSender.addPath
  induction s.addPathInfos isExistPath destIp destPort generalizing s with
  | nil => exact .signals (.same rfl rfl rfl rfl rfl)
  | cons info rest ih => exact (Rewires.add lastUpdate byteRemaining s info).trans (ih _)

theorem Rewires.stopApplication (s : MpSender) : Rewires s s.stopApplication := by
  have hloop : ∀ (paths : List Nat) (s₁ : MpSender),
      Rewires s₁ (paths.foldl MpSender.deletePath s₁) := by
    intro paths
    induction paths with
    | nil => exact fun s₁ => .signals (.same rfl rfl rfl rfl rfl)
    | cons path rest ih => exact fun s₁ => (Rewires.deletePath s₁ path).trans (ih _)
  exact (hloop s.paths.values s).trans (.clear _)

/-! ## The buffer in every run -/

/-- No entry counts a path, and every queued packet has an entry. -/
structure BufferInv (s : MpSender) : Prop where
  ref_zero : ∀ b ∈ s.txBuffer, b.2.ref = 0
  key_eq : ∀ b ∈ s.txBuffer, b.2.seg.packetId.toNat = b.1
  present : s.Present
  allocated : ∀ path p, s.heap path = some p → path < s.nextPath

/-- Nothing is queued. -/
def Idle (s : MpSender) : Prop :=
  ∀ path p, s.heap path = some p → p.paceQueue = []

/-- The buffer stays as it is, and what is queued afterwards was queued before. -/
structure NoNewWork (s s' : MpSender) : Prop where
  txBuffer : s'.txBuffer = s.txBuffer
  queued : ∀ path p', s'.heap path = some p' → ∀ ele ∈ p'.paceQueue,
    ∃ p, s.heap path = some p ∧ ele ∈ p.paceQueue
  allocated : ∀ path p', s'.heap path = some p' →
    path < s'.nextPath ∨ (s.heap path).isSome
  nextPath_le : s.nextPath ≤ s'.nextPath

theorem NoNewWork.of_eq (hbuffer : s'.txBuffer = s.txBuffer) (hheap : s'.heap = s.heap)
    (hnext : s'.nextPath = s.nextPath) : NoNewWork s s' where
  txBuffer := hbuffer
  queued := fun path p' hp' _ hele => ⟨p', hheap ▸ hp', hele⟩
  allocated := by
    intro path p' hp'
    rw [hheap] at hp'
    exact .inr (by simp [hp'])
  nextPath_le := Nat.le_of_eq hnext.symm

theorem NoNewWork.trans (h : NoNewWork s s') (h' : NoNewWork s' s'') : NoNewWork s s'' where
  txBuffer := h'.txBuffer.trans h.txBuffer
  queued := by
    intro path p'' hp'' ele hele
    obtain ⟨p', hp', hele⟩ := h'.queued path p'' hp'' ele hele
    exact h.queued path p' hp' ele hele
  allocated := by
    intro path p'' hp''
    rcases h'.allocated path p'' hp'' with hlt | hsome
    · exact .inl hlt
    · obtain ⟨p', hp'⟩ := Option.isSome_iff_exists.mp hsome
      exact (h.allocated path p' hp').imp_left fun hlt => Nat.lt_of_lt_of_le hlt h'.nextPath_le
  nextPath_le := Nat.le_trans h.nextPath_le h'.nextPath_le

theorem BufferInv.of_noNewWork (h : BufferInv s) (hw : NoNewWork s s') : BufferInv s' where
  ref_zero := hw.txBuffer ▸ h.ref_zero
  key_eq := hw.txBuffer ▸ h.key_eq
  present := by
    intro path p' hp' ele hele
    obtain ⟨p, hp, hele⟩ := hw.queued path p' hp' ele hele
    rw [hw.txBuffer]
    exact h.present path p hp ele hele
  allocated := by
    intro path p' hp'
    rcases hw.allocated path p' hp' with hlt | hsome
    · exact hlt
    · obtain ⟨p, hp⟩ := Option.isSome_iff_exists.mp hsome
      exact Nat.lt_of_lt_of_le (h.allocated path p hp) hw.nextPath_le

theorem Idle.of_noNewWork (h : Idle s) (hw : NoNewWork s s') : Idle s' := by
  intro path p' hp'
  refine List.eq_nil_iff_forall_not_mem.mpr ?_
  intro ele hele
  obtain ⟨p, hp, hele⟩ := hw.queued path p' hp' ele hele
  rw [h path p hp] at hele
  exact absurd hele List.not_mem_nil

/-- A path object is replaced by one with no more in its queue. -/
theorem NoNewWork.setPath {path : Nat} {p p' : Path} (hp : s.heap path = some p)
    (hqueue : ∀ ele ∈ p'.paceQueue, ele ∈ p.paceQueue) :
    NoNewWork s (s.setPath path (some p')) where
  txBuffer := rfl
  queued := by
    intro q p₁ hp₁ ele hele
    by_cases hq : q = path
    · subst hq
      simp only [MpSender.setPath, if_true, Option.some_inj] at hp₁
      subst hp₁
      exact ⟨p, hp, hqueue ele hele⟩
    · simp only [MpSender.setPath, if_neg hq] at hp₁
      exact ⟨p₁, hp₁, hele⟩
  allocated := by
    intro q p₁ hp₁
    by_cases hq : q = path
    · exact .inr (by simp [hq, hp])
    · simp only [MpSender.setPath, if_neg hq] at hp₁
      exact .inr (by simp [hp₁])
  nextPath_le := Nat.le_refl _

theorem NoNewWork.of_signals (h : Signals s s') : NoNewWork s s' := by
  induction h with
  | same hbuffer hheap _ hnext _ => exact .of_eq hbuffer hheap hnext
  | path hp _ _ hqueue => exact .setPath hp fun ele hele => hqueue ▸ hele
  | trans _ _ ih ih' => exact ih.trans ih'

theorem NoNewWork.of_rewires (h : Rewires s s') : NoNewWork s s' := by
  induction h with
  | signals h => exact .of_signals h
  | delete s path =>
      constructor
      · rfl
      · intro q p₁ hp₁ ele hele
        by_cases hq : q = path
        · simp [MpSender.setPath, hq] at hp₁
        · simp only [MpSender.setPath, if_neg hq] at hp₁
          exact ⟨p₁, hp₁, hele⟩
      · intro q p₁ hp₁
        by_cases hq : q = path
        · simp [MpSender.setPath, hq] at hp₁
        · simp only [MpSender.setPath, if_neg hq] at hp₁
          exact .inr (by simp [hp₁])
      · exact Nat.le_refl _
  | add lastUpdate byteRemaining s info =>
      constructor
      · rfl
      · intro q p₁ hp₁ ele hele
        by_cases hq : q = s.nextPath
        · simp only [MpSender.addPathTurn, MpSender.setPath, hq, if_true,
            Option.some_inj] at hp₁
          subst hp₁
          exact absurd hele List.not_mem_nil
        · simp only [MpSender.addPathTurn, MpSender.setPath, if_neg hq] at hp₁
          exact ⟨p₁, hp₁, hele⟩
      · intro q p₁ hp₁
        by_cases hq : q = s.nextPath
        · exact .inl (hq ▸ Nat.lt_succ_self _)
        · simp only [MpSender.addPathTurn, MpSender.setPath, if_neg hq] at hp₁
          exact .inr (by simp [hp₁])
      · exact Nat.le_succ _
  | clear s => exact .of_eq rfl rfl rfl
  | trans _ _ ih ih' => exact ih.trans ih'

/-! ## Pacing -/

/-- A packet is paced out, and its entry stays. -/
theorem onPacePacket_eq {info : PathAddressInfo} {packetId : BitVec 32} {seq : BitVec 16}
    (hzero : ∀ b ∈ s.txBuffer, b.2.ref = 0)
    (h : s.onPacePacket info packetId seq = some s') :
    s'.txBuffer = s.txBuffer ∧ s'.heap = s.heap ∧ s'.nextPath = s.nextPath := by
  unfold onPacePacket at h
  split at h
  · exact absurd h nofun
  · rename_i ref hlookup
    obtain ⟨b, hfind, rfl⟩ := Option.map_eq_some_iff.mp hlookup
    have href := hzero b (SortedMap.find?_eq_some_iff.mp hfind).1
    have hwrapped : ¬ b.2.ref - 1 = 0 := by
      rw [href]
      decide
    simp only [if_neg hwrapped, Option.some_inj] at h
    subst h
    exact ⟨rfl, rfl, rfl⟩

theorem onPacePacket_isSome {info : PathAddressInfo} {packetId : BitVec 32} {seq : BitVec 16}
    (h : (s.txBuffer.find? packetId.toNat).isSome) :
    (s.onPacePacket info packetId seq).isSome := by
  obtain ⟨b, hb⟩ := Option.isSome_iff_exists.mp h
  simp [onPacePacket, SortedMap.lookup, hb]

theorem paceLoop_eq {l : List PacePacket} {p p' : Path}
    (hzero : ∀ b ∈ s.txBuffer, b.2.ref = 0) (h : s.paceLoop p l = some (s', p')) :
    s'.txBuffer = s.txBuffer ∧ s'.heap = s.heap ∧ s'.nextPath = s.nextPath ∧
      ∀ ele ∈ p'.paceQueue, ele ∈ l := by
  induction l generalizing s p with
  | nil =>
      obtain ⟨rfl, rfl⟩ := Prod.mk.inj (Option.some.inj h)
      exact ⟨rfl, rfl, rfl, fun _ hele => hele⟩
  | cons ele rest ih =>
      unfold paceLoop at h
      split at h
      · obtain ⟨rfl, rfl⟩ := Prod.mk.inj (Option.some.inj h)
        exact ⟨rfl, rfl, rfl, fun _ hele => hele⟩
      · split at h
        · exact absurd h nofun
        · rename_i s₁ hpace
          obtain ⟨hbuffer, hheap, hnext⟩ := onPacePacket_eq hzero hpace
          obtain ⟨hbuffer', hheap', hnext', hqueue⟩ := ih (hbuffer ▸ hzero) h
          exact ⟨hbuffer'.trans hbuffer, hheap'.trans hheap, hnext'.trans hnext,
            fun e he => List.mem_cons_of_mem _ (hqueue e he)⟩

theorem timeStamp_eq (s : MpSender) :
    s.timeStamp.2.txBuffer = s.txBuffer ∧ s.timeStamp.2.heap = s.heap ∧
      s.timeStamp.2.nextPath = s.nextPath ∧ s.timeStamp.2.paths = s.paths := by
  unfold timeStamp
  split
  · exact ⟨rfl, rfl, rfl, rfl⟩
  · exact ⟨rfl, rfl, rfl, rfl⟩

theorem probeLoop_eq (stamp : BitVec 32) (npacket : Nat) (splits : List (BitVec 16)) (i : Nat)
    (s : MpSender) (p : Path) :
    let r := probeLoop stamp npacket i s p splits
    r.1.txBuffer = s.txBuffer ∧ r.1.heap = s.heap ∧ r.1.nextPath = s.nextPath ∧
      r.2.paceQueue = p.paceQueue := by
  induction splits generalizing i s p with
  | nil => exact ⟨rfl, rfl, rfl, rfl⟩
  | cons split rest ih =>
      unfold probeLoop
      split
      · exact ih _ _ _
      · exact ih _ _ _

theorem probe_eq {p p' : Path} (h : s.probe p = some (s', p')) :
    s'.txBuffer = s.txBuffer ∧ s'.heap = s.heap ∧ s'.nextPath = s.nextPath ∧
      p'.paceQueue = p.paceQueue := by
  rcases probe_cases h with ⟨rfl, rfl⟩ | ⟨splits, rfl, rfl⟩
  · exact ⟨rfl, rfl, rfl, rfl⟩
  · obtain ⟨hbuffer, hheap, hnext, _⟩ := timeStamp_eq s
    obtain ⟨hbuffer', hheap', hnext', hqueue⟩ :=
      probeLoop_eq s.timeStamp.1 splits.length splits 0 s.timeStamp.2 p
    exact ⟨hbuffer'.trans hbuffer, hheap'.trans hheap, hnext'.trans hnext, hqueue⟩

theorem NoNewWork.paceCallback {path : Nat} (hzero : ∀ b ∈ s.txBuffer, b.2.ref = 0)
    (h : s.paceCallback path = some s') : NoNewWork s s' := by
  unfold MpSender.paceCallback at h
  obtain ⟨p, hp, h⟩ := Option.bind_eq_some_iff.mp h
  have hbudget : ∀ delta, (p.increaseBudget delta).paceQueue = p.paceQueue := by
    intro delta
    unfold Path.increaseBudget
    split <;> rfl
  simp only [Option.bind_eq_bind] at h
  split at h
  · obtain ⟨⟨s₁, p₁⟩, hpace, h⟩ := Option.bind_eq_some_iff.mp h
    obtain ⟨⟨s₂, p₂⟩, hprobe, h⟩ := Option.bind_eq_some_iff.mp h
    obtain rfl := Option.some.inj h
    obtain ⟨hbuffer₁, hheap₁, hnext₁, hqueue₁⟩ := paceLoop_eq hzero hpace
    obtain ⟨hbuffer₂, hheap₂, hnext₂, hqueue₂⟩ := probe_eq hprobe
    have hwork : NoNewWork s s₂ := .of_eq (hbuffer₂.trans hbuffer₁) (hheap₂.trans hheap₁)
      (hnext₂.trans hnext₁)
    have hp₂ : s₂.heap path = some p := by rw [hheap₂, hheap₁, hp]
    refine hwork.trans (NoNewWork.trans (NoNewWork.setPath hp₂ ?_) (.of_eq rfl rfl rfl))
    intro ele hele
    rw [← hbudget]
    exact hqueue₁ ele (hqueue₂ ▸ hele)
  · obtain rfl := Option.some.inj h
    refine NoNewWork.setPath hp ?_
    intro ele hele
    rw [hbudget] at hele
    exact hele

/-! ## Scheduling -/

theorem fileSegments_eq (ftype : BitVec 8) (stamp : BitVec 32) (npacket : Nat)
    (splits : List (BitVec 16)) (i : Nat) (s : MpSender) :
    let r := fileSegments ftype stamp npacket i s splits
    r.heap = s.heap ∧ r.nextPath = s.nextPath ∧ r.paths = s.paths ∧
      ∀ b ∈ s.txBuffer, b ∈ r.txBuffer := by
  induction splits generalizing i s with
  | nil => exact ⟨rfl, rfl, rfl, fun _ hb => hb⟩
  | cons dataSize rest ih =>
      unfold fileSegments
      obtain ⟨hheap, hnext, hpaths, hkept⟩ := ih (i + 1) _
      exact ⟨hheap, hnext, hpaths, fun b hb => hkept b (SortedMap.mem_insert.mpr (.inl hb))⟩

theorem BufferInv.fileSegments (ftype : BitVec 8) (stamp : BitVec 32) (npacket : Nat)
    (splits : List (BitVec 16)) (i : Nat) (h : BufferInv s) :
    BufferInv (MpSender.fileSegments ftype stamp npacket i s splits) := by
  induction splits generalizing i s with
  | nil => exact h
  | cons dataSize rest ih =>
      refine ih _ ⟨?_, ?_, ?_, h.allocated⟩
      · intro b hb
        rcases SortedMap.mem_insert.mp hb with hb | ⟨_, rfl⟩
        · exact h.ref_zero b hb
        · rfl
      · intro b hb
        rcases SortedMap.mem_insert.mp hb with hb | ⟨_, rfl⟩
        · exact h.key_eq b hb
        · rfl
      · intro path p hp ele hele
        obtain ⟨b, hb, hkey⟩ := SortedMap.isSome_find?_iff.mp (h.present path p hp ele hele)
        exact SortedMap.isSome_find?_iff.mpr ⟨b, SortedMap.mem_insert.mpr (.inl hb), hkey⟩

/-- Objects and buffer stay, and pace queues only grow, by packet `seq`. -/
structure Queues (seq : BitVec 32) (s s' : MpSender) : Prop where
  txBuffer : s'.txBuffer = s.txBuffer
  nextPath : s'.nextPath = s.nextPath
  paths : s'.paths = s.paths
  back : ∀ path p', s'.heap path = some p' → ∃ p, s.heap path = some p ∧
    ∀ ele ∈ p'.paceQueue, ele ∈ p.paceQueue ∨ ele.seq = seq
  forth : ∀ path p, s.heap path = some p → ∃ p', s'.heap path = some p' ∧
    p'.pathState = p.pathState ∧ ∀ ele ∈ p.paceQueue, ele ∈ p'.paceQueue

theorem Queues.of_eq {seq : BitVec 32} (hbuffer : s'.txBuffer = s.txBuffer)
    (hheap : s'.heap = s.heap) (hnext : s'.nextPath = s.nextPath)
    (hpaths : s'.paths = s.paths) : Queues seq s s' where
  txBuffer := hbuffer
  nextPath := hnext
  paths := hpaths
  back := fun _ p' hp' => ⟨p', hheap ▸ hp', fun _ hele => .inl hele⟩
  forth := fun _ p hp => ⟨p, hheap.symm ▸ hp, rfl, fun _ hele => hele⟩

theorem Queues.trans {seq : BitVec 32} (h : Queues seq s s') (h' : Queues seq s' s'') :
    Queues seq s s'' where
  txBuffer := h'.txBuffer.trans h.txBuffer
  nextPath := h'.nextPath.trans h.nextPath
  paths := h'.paths.trans h.paths
  back := by
    intro path p'' hp''
    obtain ⟨p', hp', hqueue'⟩ := h'.back path p'' hp''
    obtain ⟨p, hp, hqueue⟩ := h.back path p' hp'
    refine ⟨p, hp, ?_⟩
    intro ele hele
    rcases hqueue' ele hele with hele | hseq
    · exact hqueue ele hele
    · exact .inr hseq
  forth := by
    intro path p hp
    obtain ⟨p', hp', hstate, hqueue⟩ := h.forth path p hp
    obtain ⟨p'', hp'', hstate', hqueue'⟩ := h'.forth path p' hp'
    exact ⟨p'', hp'', hstate'.trans hstate, fun ele hele => hqueue' ele (hqueue ele hele)⟩

theorem Queues.setPath {path : Nat} {p : Path} (hp : s.heap path = some p)
    (packetId : BitVec 32) (retrans : BitVec 8) (size : BitVec 32) (now : Nat) :
    Queues packetId s (s.setPath path (some (p.addPacePacket packetId retrans size now))) where
  txBuffer := rfl
  nextPath := rfl
  paths := rfl
  back := by
    intro q p' hp'
    by_cases hq : q = path
    · subst hq
      simp only [MpSender.setPath, if_true, Option.some_inj] at hp'
      subst hp'
      refine ⟨p, hp, ?_⟩
      intro ele hele
      rcases List.mem_append.mp hele with hele | hele
      · exact .inl hele
      · obtain rfl := List.mem_singleton.mp hele
        exact .inr rfl
    · simp only [MpSender.setPath, if_neg hq] at hp'
      exact ⟨p', hp', fun _ hele => .inl hele⟩
  forth := by
    intro q p' hp'
    by_cases hq : q = path
    · subst hq
      obtain rfl := Option.some.inj (hp.symm.trans hp')
      exact ⟨p.addPacePacket packetId retrans size now, by simp [MpSender.setPath], rfl,
        fun _ hele => List.mem_append_left _ hele⟩
    · exact ⟨p', by simp [MpSender.setPath, hq, hp'], rfl, fun _ hele => hele⟩

theorem Queues.queueOnPaths {val val' : SegmentRef} {paths : List Nat}
    (h : s.queueOnPaths val paths = some (s', val')) : Queues val.seg.packetId s s' := by
  induction paths generalizing s val with
  | nil =>
      obtain ⟨rfl, rfl⟩ := Prod.mk.inj (Option.some.inj h)
      exact .of_eq rfl rfl rfl rfl
  | cons path rest ih =>
      unfold MpSender.queueOnPaths at h
      split at h
      · exact absurd h nofun
      · rename_i p hp
        split at h
        · exact (Queues.setPath hp _ _ _ _).trans (@ih _ { val with ref := val.ref + 1 } h)
        · exact ih h

/-- A connected path of the list gets the packet. -/
theorem queueOnPaths_holds {val val' : SegmentRef} {paths : List Nat} {path : Nat} {p : Path}
    (h : s.queueOnPaths val paths = some (s', val')) (hmem : path ∈ paths)
    (hp : s.heap path = some p) (hstate : p.pathState = .connected) :
    ∃ p', s'.heap path = some p' ∧ ∃ ele ∈ p'.paceQueue, ele.seq = val.seg.packetId := by
  induction paths generalizing s val p with
  | nil => exact absurd hmem List.not_mem_nil
  | cons q rest ih =>
      unfold MpSender.queueOnPaths at h
      split at h
      · exact absurd h nofun
      · rename_i p₁ hp₁
        by_cases hq : path = q
        · subst hq
          obtain rfl := Option.some.inj (hp.symm.trans hp₁)
          rw [if_pos hstate] at h
          obtain ⟨p', hp', _, hqueue⟩ := (Queues.queueOnPaths h).forth path _
            (by simp only [MpSender.setPath, if_true]; rfl)
          exact ⟨p', hp', _, hqueue _ (List.mem_append_right _ (List.mem_singleton_self _)), rfl⟩
        · have hrest := (List.mem_cons.mp hmem).resolve_left hq
          split at h
          · exact @ih _ { val with ref := val.ref + 1 } p h hrest
              (by simp [MpSender.setPath, hq, hp]) hstate
          · exact ih h hrest hp hstate

/-- Without a connected path nothing happens. -/
theorem queueOnPaths_none {val val' : SegmentRef} {paths : List Nat}
    (h : s.queueOnPaths val paths = some (s', val'))
    (hnone : ∀ path ∈ paths, ∀ p, s.heap path = some p → p.pathState ≠ .connected) :
    s' = s := by
  induction paths with
  | nil => exact (Prod.mk.inj (Option.some.inj h)).1.symm
  | cons path rest ih =>
      unfold MpSender.queueOnPaths at h
      split at h
      · exact absurd h nofun
      · rename_i p hp
        rw [if_neg (hnone path (List.mem_cons_self ..) p hp)] at h
        exact ih h fun q hq => hnone q (List.mem_cons_of_mem _ hq)

/-- One turn queues a packet of the buffer, on the connected paths. -/
theorem queueTurn_eq (h : s.queueTurn = some s') :
    ∃ b ∈ s.txBuffer, Queues b.2.seg.packetId s s' ∧
      (s.NoneConnected → s'.heap = s.heap) ∧
      ∀ path ∈ s.paths.values, ∀ p, s.heap path = some p → p.pathState = .connected →
        ∃ p', s'.heap path = some p' ∧ ∃ ele ∈ p'.paceQueue, ele.seq = b.2.seg.packetId := by
  unfold queueTurn at h
  simp only at h
  split at h
  · exact absurd h nofun
  · rename_i val hlookup
    obtain ⟨b, hfind, rfl⟩ := Option.map_eq_some_iff.mp hlookup
    refine ⟨b, (SortedMap.find?_eq_some_iff.mp hfind).1, ?_⟩
    split at h
    · exact absurd h nofun
    · rename_i s₁ val' hqueue
      have hs' : s'.txBuffer = s₁.txBuffer ∧ s'.heap = s₁.heap ∧ s'.nextPath = s₁.nextPath ∧
          s'.paths = s₁.paths := by
        split at h
        · obtain rfl := Option.some.inj h
          exact ⟨rfl, rfl, rfl, rfl⟩
        · obtain rfl := Option.some.inj h
          exact ⟨rfl, rfl, rfl, rfl⟩
      obtain ⟨hbuffer, hheap, hnext, hpaths⟩ := hs'
      have hcounter : Queues b.2.seg.packetId s
          { s with currentPacketId := s.currentPacketId + 1 } := .of_eq rfl rfl rfl rfl
      refine ⟨?_, ?_, ?_⟩
      · exact (hcounter.trans (Queues.queueOnPaths hqueue)).trans
          (.of_eq hbuffer hheap hnext hpaths)
      · intro hnone
        rw [hheap, queueOnPaths_none hqueue hnone]
      · intro path hmem p hp hstate
        rw [hheap]
        exact queueOnPaths_holds hqueue hmem hp hstate

theorem BufferInv.queueTurn (hinv : BufferInv s) (h : s.queueTurn = some s') :
    BufferInv s' := by
  obtain ⟨b, hb, hqueues, -⟩ := queueTurn_eq h
  constructor
  · exact hqueues.txBuffer ▸ hinv.ref_zero
  · exact hqueues.txBuffer ▸ hinv.key_eq
  · intro path p' hp' ele hele
    rw [hqueues.txBuffer]
    obtain ⟨p, hp, hback⟩ := hqueues.back path p' hp'
    rcases hback ele hele with hele | hseq
    · exact hinv.present path p hp ele hele
    · rw [hseq, hinv.key_eq b hb]
      exact SortedMap.isSome_find?_iff.mpr ⟨b, hb, rfl⟩
  · intro path p' hp'
    obtain ⟨p, hp, -⟩ := hqueues.back path p' hp'
    exact hqueues.nextPath ▸ hinv.allocated path p hp

theorem BufferInv.queueSegments {n : Nat} (hinv : BufferInv s)
    (h : queueSegments n s = some s') : BufferInv s' := by
  induction n generalizing s with
  | zero => exact Option.some.inj h ▸ hinv
  | succ n ih =>
      unfold MpSender.queueSegments at h
      split at h
      · exact absurd h nofun
      · rename_i s₁ hturn
        exact ih (hinv.queueTurn hturn) h

/-- What is queued stays queued. -/
theorem queueSegments_forth {n : Nat} (h : queueSegments n s = some s') {path : Nat} {p : Path}
    (hp : s.heap path = some p) :
    ∃ p', s'.heap path = some p' ∧ ∀ ele ∈ p.paceQueue, ele ∈ p'.paceQueue := by
  induction n generalizing s p with
  | zero =>
      obtain rfl := Option.some.inj h
      exact ⟨p, hp, fun _ hele => hele⟩
  | succ n ih =>
      unfold MpSender.queueSegments at h
      split at h
      · exact absurd h nofun
      · rename_i s₁ hturn
        obtain ⟨_, _, hqueues, -⟩ := queueTurn_eq hturn
        obtain ⟨p₁, hp₁, _, hkept₁⟩ := hqueues.forth path p hp
        obtain ⟨p', hp', hkept⟩ := ih h hp₁
        exact ⟨p', hp', fun ele hele => hkept ele (hkept₁ ele hele)⟩

theorem queueSegments_txBuffer {n : Nat} (h : queueSegments n s = some s') :
    s'.txBuffer = s.txBuffer := by
  induction n generalizing s with
  | zero => exact Option.some.inj h ▸ rfl
  | succ n ih =>
      unfold MpSender.queueSegments at h
      split at h
      · exact absurd h nofun
      · rename_i s₁ hturn
        obtain ⟨_, _, hqueues, -⟩ := queueTurn_eq hturn
        exact (ih h).trans hqueues.txBuffer

theorem queueSegments_none {n : Nat} (h : queueSegments n s = some s')
    (hnone : s.NoneConnected) : s'.heap = s.heap := by
  induction n generalizing s with
  | zero => exact Option.some.inj h ▸ rfl
  | succ n ih =>
      unfold MpSender.queueSegments at h
      split at h
      · exact absurd h nofun
      · rename_i s₁ hturn
        obtain ⟨_, _, hqueues, hsame, -⟩ := queueTurn_eq hturn
        have hheap := hsame hnone
        have hnone₁ : s₁.NoneConnected := by
          intro path hmem p hp
          rw [hqueues.paths] at hmem
          exact hnone path hmem p (hheap ▸ hp)
        exact (ih h hnone₁).trans hheap

/-- Frames are split as the other sender of video splits them. -/
theorem frameSplit_eq_some_iff {size : Nat} {splits : List (BitVec 16)} :
    frameSplit size = some splits ↔
      size / segmentSize < maxSplitPackets ∧ splits = SimSender.frameSplit segmentSize size := by
  have hsplit : frameSplit size =
      if size / segmentSize < maxSplitPackets then
        some (SimSender.frameSplit segmentSize size) else none := by
    unfold frameSplit SimSender.frameSplit
    split
    · split
      · rfl
      · simp only
        split <;> rfl
    · rfl
  rw [hsplit]
  split
  · rename_i hlt
    simp [hlt, eq_comm]
  · rename_i hge
    simp [hge]

theorem frameSplit_ne_nil {size : Nat} {splits : List (BitVec 16)}
    (h : frameSplit size = some splits) : splits ≠ [] := by
  obtain ⟨_, rfl⟩ := frameSplit_eq_some_iff.mp h
  exact SimSender.frameSplit_ne_nil (by decide)

/-- The state in which the segments of a frame are filed, and not yet queued. -/
theorem schedule_eq {ftype : BitVec 8} {byte : BitVec 32} (h : s.schedule ftype byte = some s') :
    ∃ n s₁, queueSegments (n + 1) s₁ = some s' ∧ s₁.heap = s.heap ∧ s₁.paths = s.paths ∧
      (∀ b ∈ s.txBuffer, b ∈ s₁.txBuffer) ∧ (BufferInv s → BufferInv s₁) := by
  unfold schedule at h
  split at h
  · exact absurd h nofun
  · rename_i splits hsplit
    obtain ⟨hbuffer, hheap, hnext, hpaths⟩ := timeStamp_eq s
    obtain ⟨hheap', hnext', hpaths', hkept⟩ :=
      fileSegments_eq ftype s.timeStamp.1 splits.length splits 0 s.timeStamp.2
    obtain ⟨n, hn⟩ := Nat.exists_eq_succ_of_ne_zero
      (fun hzero => frameSplit_ne_nil hsplit (List.length_eq_zero_iff.mp hzero))
    refine ⟨n, _, hn ▸ h, hheap'.trans hheap, hpaths'.trans hpaths, ?_, ?_⟩
    · exact fun b hb => hkept b (hbuffer.symm ▸ hb)
    intro hinv
    have hstamp : BufferInv s.timeStamp.2 :=
      hinv.of_noNewWork (.of_eq hbuffer hheap hnext)
    exact hstamp.fileSegments ftype s.timeStamp.1 splits.length splits 0

theorem BufferInv.schedule {ftype : BitVec 8} {byte : BitVec 32} (hinv : BufferInv s)
    (h : s.schedule ftype byte = some s') : BufferInv s' := by
  obtain ⟨n, s₁, hqueue, _, _, _, hfiled⟩ := schedule_eq h
  exact (hfiled hinv).queueSegments hqueue

theorem schedule_kept {ftype : BitVec 8} {byte : BitVec 32}
    (h : s.schedule ftype byte = some s') : ∀ b ∈ s.txBuffer, b ∈ s'.txBuffer := by
  obtain ⟨n, s₁, hqueue, _, _, hkept, _⟩ := schedule_eq h
  rw [queueSegments_txBuffer hqueue]
  exact hkept

/-- **A frame** is queued exactly if a path is connected. -/
theorem schedule_idle_iff {ftype : BitVec 8} {byte : BitVec 32} (hidle : s.Idle)
    (h : s.schedule ftype byte = some s') : s'.Idle ↔ s.NoneConnected := by
  obtain ⟨n, s₁, hqueue, hheap, hpaths, _, _⟩ := schedule_eq h
  constructor
  · intro hidle' path hmem p hp hstate
    unfold queueSegments at hqueue
    split at hqueue
    · exact absurd hqueue nofun
    · rename_i s₂ hturn
      obtain ⟨b, _, _, _, hholds⟩ := queueTurn_eq hturn
      obtain ⟨p₂, hp₂, ele, hele, _⟩ := hholds path (hpaths ▸ hmem) p (hheap ▸ hp) hstate
      obtain ⟨p', hp', hkept⟩ := queueSegments_forth hqueue hp₂
      have hmem' := hkept ele hele
      rw [hidle' path p' hp'] at hmem'
      exact absurd hmem' List.not_mem_nil
  · intro hnone path p hp
    have hnone₁ : s₁.NoneConnected := by
      intro q hmem p hp
      exact hnone q (hpaths ▸ hmem) p (hheap ▸ hp)
    rw [queueSegments_none hqueue hnone₁, hheap] at hp
    exact hidle path p hp

/-! ## Steps -/

theorem fakePacket_cases {frameBytes : BitVec 32} (h : s.fakePacket frameBytes = some s') :
    (s.queue.isExpired s.generateTimer = true ∧
      ∃ s₁, s.schedule 0 frameBytes = some s₁ ∧ NoNewWork s₁ s' ∧ s'.heap = s₁.heap) ∨
    (¬ s.queue.isExpired s.generateTimer = true ∧ s' = s) := by
  unfold fakePacket at h
  by_cases hexpired : s.queue.isExpired s.generateTimer = true
  · rw [if_pos hexpired] at h
    split at h
    · exact absurd h nofun
    · rename_i s₁ hschedule
      obtain rfl := Option.some.inj h
      exact .inl ⟨hexpired, s₁, hschedule, .of_eq rfl rfl rfl, rfl⟩
  · rw [if_neg hexpired] at h
    exact .inr ⟨hexpired, (Option.some.inj h).symm⟩

/-- Every call but the scheduling of a frame brings no new work. -/
theorem call_cases {isExistPath : Ipv4Address → Ipv4Address → Bool} {frameBytes : BitVec 32}
    {e : Input} (hzero : ∀ b ∈ s.txBuffer, b.2.ref = 0)
    (h : call isExistPath frameBytes s e = some s') :
    (s.Schedules e ∧ ∃ s₀ ftype byte s₁, NoNewWork s s₀ ∧ s₀.heap = s.heap ∧
      s₀.paths = s.paths ∧ s₀.schedule ftype byte = some s₁ ∧
      NoNewWork s₁ s' ∧ s'.heap = s₁.heap) ∨
    (¬ s.Schedules e ∧ NoNewWork s s') := by
  cases e with
  | addPath destIp destPort lastUpdate byteRemaining =>
      obtain rfl := Option.some.inj h
      exact .inr ⟨id, .of_rewires
        (.addPath isExistPath destIp destPort lastUpdate byteRemaining s)⟩
  | start => exact .inr ⟨id, .of_signals (.startApplication h)⟩
  | stop =>
      obtain rfl := Option.some.inj h
      exact .inr ⟨id, .of_rewires (.stopApplication s)⟩
  | packet info message => exact .inr ⟨id, .of_signals (.recvPacket h)⟩
  | schedule ftype byte =>
      exact .inl ⟨trivial, s, ftype, byte, s', .of_eq rfl rfl rfl, rfl, rfl, h,
        .of_eq rfl rfl rfl, rfl⟩
  | timer =>
      simp only [call] at h
      split at h
      · exact absurd h nofun
      · rename_i ev queue hpop
        have hpopped : NoNewWork s { s with queue } := .of_eq rfl rfl rfl
        have hother (hne : ev.action ≠ .fakePacket) : ¬ s.Schedules .timer := by
          rintro ⟨ev', _, hpop', hfake, _⟩
          obtain rfl := (Prod.mk.inj (Option.some.inj (hpop.symm.trans hpop'))).1
          exact hne hfake
        cases haction : ev.action with
        | connect path =>
            rw [haction] at h
            exact .inr ⟨hother (by simp [haction]), hpopped.trans (.of_signals (.connect h))⟩
        | paceCallback path =>
            rw [haction] at h
            exact .inr ⟨hother (by simp [haction]), hpopped.trans (.paceCallback hzero h)⟩
        | fakePacket =>
            rw [haction] at h
            rcases fakePacket_cases h with ⟨hexpired, s₁, hschedule, hwork⟩ | ⟨hbusy, rfl⟩
            · exact .inl ⟨⟨ev, queue, hpop, haction, hexpired⟩, _, _, _, s₁, hpopped,
                rfl, rfl, hschedule, hwork⟩
            · refine .inr ⟨?_, hpopped⟩
              rintro ⟨_, _, hpop', _, hexpired⟩
              obtain ⟨_, rfl⟩ := Prod.mk.inj (Option.some.inj (hpop.symm.trans hpop'))
              exact hbusy hexpired

section Runs

variable {isExistPath : Ipv4Address → Ipv4Address → Bool} {frameBytes : BitVec 32}

theorem BufferInv.call {e : Input} (hinv : BufferInv s)
    (h : MpSender.call isExistPath frameBytes s e = some s') : BufferInv s' := by
  rcases call_cases hinv.ref_zero h with
    ⟨_, s₀, ftype, byte, s₁, hwork₀, _, _, hschedule, hwork₁, _⟩ | ⟨_, hwork⟩
  · exact ((hinv.of_noNewWork hwork₀).schedule hschedule).of_noNewWork hwork₁
  · exact hinv.of_noNewWork hwork

/-- An idle sender stays idle, except for a frame while a path is connected. -/
theorem Idle.call_iff {e : Input} (hinv : BufferInv s) (hidle : Idle s)
    (h : MpSender.call isExistPath frameBytes s e = some s') :
    Idle s' ↔ (s.Schedules e → s.NoneConnected) := by
  rcases call_cases hinv.ref_zero h with
    ⟨hsched, s₀, ftype, byte, s₁, hwork₀, hheap₀, hpaths₀, hschedule, _, hheap₁⟩ |
    ⟨hnot, hwork⟩
  · have hframe := schedule_idle_iff (hidle.of_noNewWork hwork₀) hschedule
    have hidle₁ : Idle s' ↔ Idle s₁ := by
      simp only [Idle, hheap₁]
    have hnone : s₀.NoneConnected ↔ s.NoneConnected := by
      simp only [NoneConnected, hheap₀, hpaths₀]
    rw [hidle₁, hframe, hnone]
    exact ⟨fun h _ => h, fun h => h hsched⟩
  · exact iff_of_true (hidle.of_noNewWork hwork) fun hsched => absurd hsched hnot

theorem BufferInv.new (cid uid frameId : BitVec 32)
    (sockets : ComparatorMap Ipv4Address Port compSocket) :
    BufferInv (new cid uid frameId sockets) where
  ref_zero := fun _ hb => absurd hb List.not_mem_nil
  key_eq := fun _ hb => absurd hb List.not_mem_nil
  present := nofun
  allocated := nofun

theorem holders_of_idle (h : Idle s) (id : Nat) : s.holders id = 0 := by
  refine List.countP_eq_zero.mpr ?_
  intro path _
  unfold Holds
  split
  · exact Bool.false_ne_true
  · rename_i p hp
    simp [h path p hp]

theorem holders_pos (hinv : BufferInv s) {path : Nat} {p : Path} {ele : PacePacket}
    (hp : s.heap path = some p) (hele : ele ∈ p.paceQueue) :
    0 < s.holders ele.seq.toNat := by
  refine List.countP_pos_iff.mpr ⟨path, List.mem_range.mpr (hinv.allocated path p hp), ?_⟩
  simp only [Holds, hp, List.any_eq_true]
  exact ⟨ele, hele, decide_eq_true rfl⟩

/-- The counts are right exactly if nothing is queued. -/
theorem BufferInv.counted_iff (hinv : BufferInv s) : Counted s ↔ Idle s := by
  constructor
  · intro hcounted path p hp
    refine List.eq_nil_iff_forall_not_mem.mpr ?_
    intro ele hele
    obtain ⟨b, hb, hkey⟩ := SortedMap.isSome_find?_iff.mp (hinv.present path p hp ele hele)
    have href := hcounted.ref_eq b hb
    rw [hinv.ref_zero b hb, hkey] at href
    exact Nat.ne_of_lt (holders_pos hinv hp hele) href
  · intro hidle
    refine ⟨?_, hinv.present⟩
    intro b hb
    rw [hinv.ref_zero b hb, holders_of_idle hidle]
    rfl

/-- No entry leaves the buffer. -/
theorem BufferInv.kept {e : Input} (hinv : BufferInv s)
    (h : MpSender.call isExistPath frameBytes s e = some s') {id : Nat}
    (hid : (s.txBuffer.find? id).isSome) : (s'.txBuffer.find? id).isSome := by
  obtain ⟨b, hb, hkey⟩ := SortedMap.isSome_find?_iff.mp hid
  refine SortedMap.isSome_find?_iff.mpr ⟨b, ?_, hkey⟩
  rcases call_cases hinv.ref_zero h with
    ⟨_, s₀, ftype, byte, s₁, hwork₀, _, _, hschedule, hwork₁, _⟩ | ⟨_, hwork⟩
  · rw [hwork₁.txBuffer]
    exact schedule_kept hschedule b (hwork₀.txBuffer.symm ▸ hb)
  · exact hwork.txBuffer.symm ▸ hb

/-- The loop of `PaceCallback` finds every packet that it takes from the queue. -/
theorem paceLoop_isSome {l : List PacePacket} {p : Path}
    (hzero : ∀ b ∈ s.txBuffer, b.2.ref = 0)
    (hpresent : ∀ ele ∈ l, (s.txBuffer.find? ele.seq.toNat).isSome) :
    (s.paceLoop p l).isSome := by
  induction l generalizing s p with
  | nil => rfl
  | cons ele rest ih =>
      unfold paceLoop
      split
      · rfl
      · have hsome := @onPacePacket_isSome s p.info ele.seq p.transSeq
          (hpresent ele (List.mem_cons_self ..))
        obtain ⟨s₁, hpace⟩ := Option.isSome_iff_exists.mp hsome
        obtain ⟨hbuffer, _, _⟩ := onPacePacket_eq hzero hpace
        simp only [hpace]
        exact ih (hbuffer ▸ hzero)
          fun e he => hbuffer ▸ hpresent e (List.mem_cons_of_mem _ he)

/-- Every step keeps the invariant of the buffer. -/
theorem BufferInv.step {e : Nat × Input} (hinv : BufferInv s)
    (h : Step isExistPath frameBytes s e s') : BufferInv s' := by
  obtain ⟨queue, _, hcall⟩ := step_iff.mp h
  have hinv₁ : BufferInv { s with queue } :=
    hinv.of_noNewWork (.of_eq rfl rfl rfl)
  exact hinv₁.call hcall

/-- One step of an idle sender is right exactly if it schedules no frame on a
connected path. -/
theorem countedStep_iff {e : Nat × Input} (hinv : BufferInv s) (hidle : Idle s) :
    CountedStep isExistPath frameBytes s e s' ↔ IdleStep isExistPath frameBytes s e s' := by
  constructor
  · rintro ⟨hstep, hcounted, _⟩
    obtain ⟨queue, hqueue, hcall⟩ := step_iff.mp hstep
    refine ⟨queue, hqueue, hcall, ?_⟩
    have hinv₁ : BufferInv { s with queue } :=
      hinv.of_noNewWork (.of_eq rfl rfl rfl)
    exact (Idle.call_iff hinv₁ hidle hcall).mp ((hinv₁.call hcall).counted_iff.mp hcounted)
  · rintro ⟨queue, hqueue, hcall, hsafe⟩
    have hinv₁ : BufferInv { s with queue } :=
      hinv.of_noNewWork (.of_eq rfl rfl rfl)
    have hidle' := (Idle.call_iff hinv₁ hidle hcall).mpr hsafe
    refine ⟨step_iff.mpr ⟨queue, hqueue, hcall⟩, (hinv₁.call hcall).counted_iff.mpr hidle', ?_⟩
    intro id hid
    refine iff_of_false ?_ ?_
    · exact Option.isSome_iff_ne_none.mp (hinv₁.kept hcall hid)
    · rw [holders_of_idle hidle]
      exact fun h => Nat.lt_irrefl _ h.1

theorem bufferInv_of_run {cid uid frameId : BitVec 32}
    {sockets : ComparatorMap Ipv4Address Port compSocket} {es : List (Nat × Input)}
    (hrun : Run (Step isExistPath frameBytes) (new cid uid frameId sockets) es s) :
    BufferInv s :=
  hrun.stateInvariant (BufferInv.new cid uid frameId sockets)
    fun _ _ _ hinv hstep => hinv.step hstep

theorem IdleStep.idle {e : Nat × Input} (hinv : BufferInv s) (hidle : Idle s)
    (h : IdleStep isExistPath frameBytes s e s') : BufferInv s' ∧ Idle s' := by
  obtain ⟨hstep, hcounted, _⟩ := (countedStep_iff hinv hidle).mpr h
  exact ⟨hinv.step hstep, (hinv.step hstep).counted_iff.mp hcounted⟩

theorem idle_of_run {cid uid frameId : BitVec 32}
    {sockets : ComparatorMap Ipv4Address Port compSocket} {es : List (Nat × Input)}
    (hrun : Run (IdleStep isExistPath frameBytes) (new cid uid frameId sockets) es s) :
    BufferInv s ∧ Idle s :=
  hrun.stateInvariant (I := fun s => BufferInv s ∧ Idle s)
    ⟨.new cid uid frameId sockets, nofun⟩ fun _ _ _ hinv hstep => hstep.idle hinv.1 hinv.2

end Runs

/-- **The counts are right in a run** exactly if no frame is ever scheduled while a
path is connected. Whatever is scheduled, every queued packet is in the buffer, and
pacing finds it. -/
theorem refCounts_iff (isExistPath : Ipv4Address → Ipv4Address → Bool)
    (frameBytes cid uid frameId : BitVec 32)
    (sockets : ComparatorMap Ipv4Address Port compSocket) (es : List (Nat × Input))
    (s : MpSender) :
    (Run (CountedStep isExistPath frameBytes) (new cid uid frameId sockets) es s ↔
      Run (IdleStep isExistPath frameBytes) (new cid uid frameId sockets) es s) ∧
    (Run (Step isExistPath frameBytes) (new cid uid frameId sockets) es s →
      s.Present ∧ ∀ path p, s.heap path = some p →
        ∀ budgeted, (s.paceLoop budgeted p.paceQueue).isSome) := by
  constructor
  · constructor
    · intro hrun
      induction hrun with
      | nil => exact .nil
      | snoc _ hstep ih =>
          obtain ⟨hinv, hidle⟩ := idle_of_run ih
          exact .snoc ih ((countedStep_iff hinv hidle).mp hstep)
    · intro hrun
      induction hrun with
      | nil => exact .nil
      | snoc hprev hstep ih =>
          obtain ⟨hinv, hidle⟩ := idle_of_run hprev
          exact .snoc ih ((countedStep_iff hinv hidle).mpr hstep)
  · intro hrun
    have hinv := bufferInv_of_run hrun
    exact ⟨hinv.present, fun path p hp _ =>
      paceLoop_isSome hinv.ref_zero (hinv.present path p hp)⟩

/-- A frame for one connected path. -/
def oneFrame : List (Nat × Input) :=
  [(0, .addPath 0x0a010201 5000 0 0), (0, .start),
    (0, .packet ⟨0x0a010101, 0x0a010201, 49153, 5000⟩ (.connectAck 1234 0)),
    (0, .schedule 0 500)]

/-- One path holds packet `0`, and the count of its entry is `0`. -/
theorem count_stays_zero : ∃ s,
    Run (Step (fun _ _ => true) 400) (new 1234 0 0 ⟨[(0x0a010101, 49153)]⟩) oneFrame s ∧
    s.holders 0 = 1 ∧ ¬ s.Counted := by
  have hcounts : (oneFrame.foldlM (step? (fun _ _ => true) 400)
      (new 1234 0 0 ⟨[(0x0a010101, 49153)]⟩)).map (fun s =>
        (s.holders 0, (s.txBuffer.find? 0).map (·.2.ref))) = some (1, some 0) := by decide
  obtain ⟨s, hs, hcounts⟩ := Option.map_eq_some_iff.mp hcounts
  obtain ⟨hholders, href⟩ := Prod.mk.inj hcounts
  refine ⟨s, .of_foldlM hs, hholders, ?_⟩
  intro h
  obtain ⟨b, hfind, href⟩ := Option.map_eq_some_iff.mp href
  obtain ⟨hb, hkey⟩ := SortedMap.find?_eq_some_iff.mp hfind
  have hcount := h.ref_eq b hb
  rw [href, hkey, hholders] at hcount
  exact absurd hcount (by decide)

end MpSender

end Multipath
