import RmcatNs3.Multipath.PathEvents
import RmcatNs3.Multipath.SendBuffer

/-!
# The frames of a run

`Schedule` files the segments of a frame in `m_txBuffer` and hands their packet ids
to the connected paths. It counts packets twice, in `m_packetId` and in
`m_currentPacketId`, and the two stay one apart in every run. Nothing counts frames:
`m_frameId` is written into every segment and never changed.
-/

namespace Multipath

open Razor Runs

namespace MpSender

/-- A call of `Schedule`: the sender it is made on, and its arguments. -/
structure FrameCall where
  sender : MpSender
  ftype : BitVec 8
  byte : BitVec 32

/-- These packets come last in the queues of the connected paths of the list, and
nothing is put in the other queues. -/
def Handed (paths : List Nat) (ids : List (BitVec 32)) (heap heap' : Nat → Option Path) :
    Prop :=
  ∀ path p, heap path = some p → ∃ p', heap' path = some p' ∧ p'.pathState = p.pathState ∧
    p'.paceQueue.map (·.seq) = p.paceQueue.map (·.seq) ++
      if path ∈ paths ∧ p.pathState = .connected then ids else []

/-- The buffer with these segments filed under their packet ids. -/
def fileAll (buffer : SortedMap Nat SegmentRef) (segs : List Segment) :
    SortedMap Nat SegmentRef :=
  buffer.insertAll (segs.map fun seg => (seg.packetId.toNat, ⟨seg, 0⟩))

namespace FrameCall

def splits (f : FrameCall) : List (BitVec 16) :=
  (frameSplit f.byte.toNat).getD []

/-- The segments that the call makes. -/
def segments (f : FrameCall) : List Segment :=
  let fields : FrameFields :=
    { fid := f.sender.frameId, timestamp := f.sender.timeStamp.1, total := f.splits.length
      ftype := f.ftype, remb := 0 }
  fields.segments f.sender.packetId 0 f.splits

/-- The call files the segments of the frame, and hands them to every connected
path. -/
structure Scheduled (f : FrameCall) (s' : MpSender) : Prop where
  filed : s'.txBuffer = fileAll f.sender.txBuffer f.segments
  handed : Handed f.sender.paths.values (f.segments.map (·.packetId)) f.sender.heap s'.heap

end FrameCall

/-- The call of `Schedule` that an input makes. -/
def frameCall? (frameBytes : BitVec 32) (s : MpSender) : Input → Option FrameCall
  | .schedule ftype byte => some ⟨s, ftype, byte⟩
  | .timer =>
      match s.queue.pop with
      | none => none
      | some (e, queue) =>
          if e.action = .fakePacket ∧ queue.isExpired s.generateTimer = true then
            some ⟨{ s with queue }, 0, frameBytes⟩
          else none
  | _ => none

/-- A step of the sender, and the frames scheduled so far. -/
def frameStep? (isExistPath : Ipv4Address → Ipv4Address → Bool) (frameBytes : BitVec 32)
    (t : MpSender × List FrameCall) (e : Nat × Input) : Option (MpSender × List FrameCall) :=
  match t.1.queue.advance? e.1 with
  | none => none
  | some queue =>
      let s := { t.1 with queue }
      match call isExistPath frameBytes s e.2 with
      | none => none
      | some s' => some (s', t.2 ++ (s.frameCall? frameBytes e.2).toList)

/-- Every frame is cut into segments with the next packet ids, is handed to the
connected paths, and the next one will be. -/
structure FramesHanded (s : MpSender) (frames : List FrameCall) : Prop where
  accepts : ∀ ftype byte, byte.toNat / segmentSize < maxSplitPackets →
    (s.schedule ftype byte).isSome
  isFrame : ∀ f ∈ frames, IsFrame f.sender.packetId f.byte.toNat f.segments
  scheduled : ∀ f ∈ frames, ∃ s', f.sender.schedule f.ftype f.byte = some s' ∧ f.Scheduled s'
  packetIds : (frames.flatMap (·.segments)).map (·.packetId) =
    Razor.packetIds 0 (frames.flatMap (·.segments)).length

/-- Frames fewer than `2 ^ 32` apart are told apart by their numbers as well. -/
structure WellSegmented (s : MpSender) (frames : List FrameCall) : Prop
    extends FramesHanded s frames where
  distinct : ∀ i j f g, frames[i]? = some f → frames[j]? = some g → i < j → j < i + 2 ^ 32 →
    ∀ seg ∈ f.segments, ∀ seg' ∈ g.segments, seg.fid ≠ seg'.fid

/-! ## Handing over -/

variable {s s' s'' : MpSender} {paths : List Nat} {ids ids' : List (BitVec 32)}
  {heap heap' heap'' : Nat → Option Path}

theorem Handed.trans (h : Handed paths ids heap heap') (h' : Handed paths ids' heap' heap'') :
    Handed paths (ids ++ ids') heap heap'' := by
  intro path p hp
  obtain ⟨p', hp', hstate, hqueue⟩ := h path p hp
  obtain ⟨p'', hp'', hstate', hqueue'⟩ := h' path p' hp'
  refine ⟨p'', hp'', hstate'.trans hstate, ?_⟩
  rw [hqueue', hqueue, hstate, List.append_assoc]
  by_cases hconnected : path ∈ paths ∧ p.pathState = .connected
  · simp only [if_pos hconnected]
  · simp only [if_neg hconnected, List.append_nil]

theorem Handed.nil (paths : List Nat) (heap : Nat → Option Path) :
    Handed paths [] heap heap := by
  intro path p hp
  exact ⟨p, hp, rfl, by simp⟩

theorem Handed.live (h : Handed paths ids heap heap') {path : Nat}
    (hlive : (heap path).isSome) : (heap' path).isSome := by
  obtain ⟨p, hp⟩ := Option.isSome_iff_exists.mp hlive
  obtain ⟨p', hp', _⟩ := h path p hp
  simp [hp']

/-- The loop over the paths hands the packet to each of them that is connected. -/
theorem queueOnPaths_spec (val : SegmentRef) (hlive : ∀ path ∈ paths, (s.heap path).isSome)
    (hnodup : paths.Nodup) :
    ∃ heap val', s.queueOnPaths val paths = some ({ s with heap }, val') ∧
      Handed paths [val.seg.packetId] s.heap heap := by
  induction paths generalizing s val with
  | nil =>
      refine ⟨s.heap, val, rfl, ?_⟩
      intro path p hp
      exact ⟨p, hp, rfl, by simp⟩
  | cons path rest ih =>
      obtain ⟨hpath, hnodup⟩ := List.nodup_cons.mp hnodup
      obtain ⟨p, hp⟩ := Option.isSome_iff_exists.mp (hlive path (List.mem_cons_self ..))
      have hrest : ∀ q ∈ rest, (s.heap q).isSome :=
        fun q hq => hlive q (List.mem_cons_of_mem _ hq)
      unfold queueOnPaths
      simp only [hp]
      by_cases hstate : p.pathState = .connected
      · simp only [if_pos hstate]
        have hrest₁ : ∀ q ∈ rest, ((s.setPath path (some (p.addPacePacket val.seg.packetId 0
            (val.seg.dataSize.setWidth 32 + headerLen.setWidth 32) s.nowMs))).heap q).isSome := by
          intro q hq
          have hne : q ≠ path := fun heq => hpath (heq ▸ hq)
          simpa [MpSender.setPath, hne] using hrest q hq
        obtain ⟨heap, val', hrun, hhanded⟩ := ih { val with ref := val.ref + 1 } hrest₁ hnodup
        refine ⟨heap, val', hrun, ?_⟩
        intro q p₁ hp₁
        by_cases hq : q = path
        · subst hq
          obtain rfl := Option.some.inj (hp.symm.trans hp₁)
          obtain ⟨p', hp', hstate', hqueue⟩ := hhanded q _ (by
            simp only [MpSender.setPath, if_true]
            rfl)
          refine ⟨p', hp', hstate', ?_⟩
          rw [hqueue, if_neg fun h => hpath h.1,
            if_pos ⟨List.mem_cons_self .., hstate⟩]
          simp [Path.addPacePacket]
        · obtain ⟨p', hp', hstate', hqueue⟩ := hhanded q p₁ (by
            simpa [MpSender.setPath, hq] using hp₁)
          refine ⟨p', hp', hstate', ?_⟩
          rw [hqueue]
          simp [hq]
      · simp only [if_neg hstate]
        obtain ⟨heap, val', hrun, hhanded⟩ := ih val hrest hnodup
        refine ⟨heap, val', hrun, ?_⟩
        intro q p₁ hp₁
        obtain ⟨p', hp', hstate', hqueue⟩ := hhanded q p₁ hp₁
        refine ⟨p', hp', hstate', ?_⟩
        rw [hqueue]
        by_cases hq : q = path
        · subst hq
          obtain rfl := Option.some.inj (hp.symm.trans hp₁)
          simp [hstate]
        · simp [hq]

/-- What the scheduler needs to find: the paths of the map, and under each key of the
buffer the packet with this id. -/
structure Queueable (s : MpSender) : Prop where
  live : ∀ path ∈ s.paths.values, (s.heap path).isSome
  nodup : s.paths.values.Nodup
  key_eq : ∀ b ∈ s.txBuffer, b.2.seg.packetId.toNat = b.1

/-- One turn hands over the packet behind `m_currentPacketId`, also where the counter
starts again. -/
theorem queueTurn_spec {id : BitVec 32} (h : Queueable s)
    (hlock : s.currentPacketId + 1 = id.toNat) (hfind : (s.txBuffer.find? id.toNat).isSome) :
    ∃ heap next, s.queueTurn = some { s with heap, currentPacketId := next } ∧
      next + 1 = (id + 1).toNat ∧ Handed s.paths.values [id] s.heap heap := by
  obtain ⟨b, hb⟩ := Option.isSome_iff_exists.mp hfind
  obtain ⟨hmem, hkey⟩ := SortedMap.find?_eq_some_iff.mp hb
  have hid : b.2.seg.packetId = id := BitVec.eq_of_toNat_eq ((h.key_eq b hmem).trans hkey)
  have hlookup : s.txBuffer.lookup ((s.currentPacketId + 1).toNat % 2 ^ 32) = some b.2 := by
    rw [hlock, Int.toNat_natCast, Nat.mod_eq_of_lt id.isLt]
    simp [SortedMap.lookup, hb]
  have hlive : ∀ path ∈ s.paths.values,
      (({ s with currentPacketId := s.currentPacketId + 1 } : MpSender).heap path).isSome :=
    h.live
  obtain ⟨heap, val', hrun, hhanded⟩ := queueOnPaths_spec b.2 hlive h.nodup
  rw [hid] at hhanded
  have hnext : (id + 1).toNat = (id.toNat + 1) % 2 ^ 32 := BitVec.toNat_add id 1
  unfold queueTurn
  simp only [hlookup, hrun]
  by_cases hlast : s.currentPacketId + 1 = 0xFFFFFFFF
  · rw [if_pos hlast]
    refine ⟨heap, -1, rfl, ?_, hhanded⟩
    have hid : id.toNat = 2 ^ 32 - 1 := by omega
    rw [hnext, hid]
    rfl
  · rw [if_neg hlast]
    refine ⟨heap, s.currentPacketId + 1, rfl, ?_, hhanded⟩
    have hlt := id.isLt
    rw [hnext]
    omega

/-- The loop over the segments hands over as many packets, in the order of their
ids. -/
theorem queueSegments_spec (n : Nat) {id : BitVec 32} (h : Queueable s)
    (hlock : s.currentPacketId + 1 = id.toNat)
    (hfind : ∀ k ∈ packetIds id n, (s.txBuffer.find? k.toNat).isSome) :
    ∃ heap next, queueSegments n s = some { s with heap, currentPacketId := next } ∧
      next + 1 = (id + BitVec.ofNat 32 n).toNat ∧
      Handed s.paths.values (packetIds id n) s.heap heap := by
  induction n generalizing s id with
  | zero =>
      refine ⟨s.heap, s.currentPacketId, rfl, ?_, .nil _ _⟩
      rw [hlock]
      exact congrArg (fun k : BitVec 32 => (k.toNat : Int)) (BitVec.add_zero id).symm
  | succ n ih =>
      rw [packetIds_succ] at hfind ⊢
      obtain ⟨heap₁, next₁, hturn, hlock₁, hhanded₁⟩ :=
        queueTurn_spec h hlock (hfind id (List.mem_cons_self ..))
      have h₁ : Queueable { s with heap := heap₁, currentPacketId := next₁ } :=
        ⟨fun path hpath => hhanded₁.live (h.live path hpath), h.nodup, h.key_eq⟩
      obtain ⟨heap, next, hrun, hlock', hhanded⟩ :=
        ih h₁ hlock₁ fun k hk => hfind k (List.mem_cons_of_mem _ hk)
      refine ⟨heap, next, ?_, ?_, hhanded₁.trans hhanded⟩
      · unfold queueSegments
        simp only [hturn]
        exact hrun
      · rw [hlock', BitVec.add_assoc, Nat.add_comm n 1, BitVec.ofNat_add]
        rfl

/-! ## Filing -/

theorem fileSegments_spec (ftype : BitVec 8) (stamp : BitVec 32) (npacket : Nat)
    (splits : List (BitVec 16)) (i : Nat) (s : MpSender) :
    let fields : FrameFields :=
      { fid := s.frameId, timestamp := stamp, total := npacket, ftype, remb := 0 }
    fileSegments ftype stamp npacket i s splits =
      { s with
        txBuffer := fileAll s.txBuffer (fields.segments s.packetId i splits)
        packetId := s.packetId + BitVec.ofNat 32 splits.length } := by
  induction splits generalizing i s with
  | nil =>
      simp [fileSegments, FrameFields.segments, fileAll, SortedMap.insertAll]
  | cons dataSize rest ih =>
      have hcount : s.packetId + 1 + BitVec.ofNat 32 rest.length =
          s.packetId + BitVec.ofNat 32 (rest.length + 1) := by
        rw [BitVec.add_assoc, Nat.add_comm rest.length 1, BitVec.ofNat_add]
        rfl
      simp only at ih
      simp only [fileSegments, ih, List.length_cons]
      rw [hcount]
      rfl

theorem timeStamp_spec (s : MpSender) :
    s.timeStamp.2 = { s with firstTs := s.timeStamp.2.firstTs } := by
  unfold timeStamp
  split
  · rfl
  · rfl

/-- A call that `Schedule` accepts makes the segments of a frame. -/
theorem FrameCall.isFrame (f : FrameCall) (h : f.byte.toNat / segmentSize < maxSplitPackets) :
    IsFrame f.sender.packetId f.byte.toNat f.segments := by
  have hsplits : f.splits = SimSender.frameSplit segmentSize f.byte.toNat := by
    simp [FrameCall.splits, frameSplit_eq_some_iff.mpr ⟨h, rfl⟩]
  unfold FrameCall.segments
  rw [hsplits]
  exact SimSender.isFrame_segments _ _ (by decide) (by decide) h rfl

/-! ## The counters -/

/-- The packet that is queued next is the packet that is made next, and the paths of
the map exist. -/
structure FrameInv (frameId : BitVec 32) (s : MpSender) : Prop where
  frameId : s.frameId = frameId
  lockstep : s.currentPacketId + 1 = s.packetId.toNat
  live : ∀ path ∈ s.paths.values, (s.heap path).isSome
  nodup : s.paths.values.Nodup
  values_lt : ∀ path ∈ s.paths.values, path < s.nextPath

variable {frameId : BitVec 32}

/-- **A frame** of a size that `Schedule` accepts is filed and handed over, and the
counters stay one apart. -/
theorem FrameInv.schedule (hinv : FrameInv frameId s) (hbuffer : BufferInv s)
    (ftype : BitVec 8) {byte : BitVec 32} (hbyte : byte.toNat / segmentSize < maxSplitPackets) :
    let f : FrameCall := ⟨s, ftype, byte⟩
    ∃ s', s.schedule ftype byte = some s' ∧ FrameInv frameId s' ∧ f.Scheduled s' ∧
      s'.packetId = s.packetId + BitVec.ofNat 32 f.segments.length := by
  intro f
  have hsplit := frameSplit_eq_some_iff.mpr ⟨hbyte, rfl⟩
  obtain ⟨splits, hsplits⟩ : ∃ splits, splits = SimSender.frameSplit segmentSize byte.toNat :=
    ⟨_, rfl⟩
  rw [← hsplits] at hsplit
  have hsegs : f.segments = FrameFields.segments
      { fid := s.frameId, timestamp := s.timeStamp.1, total := splits.length, ftype, remb := 0 }
      s.packetId 0 splits := by
    simp [f, FrameCall.segments, FrameCall.splits, hsplit]
  have hlen : f.segments.length = splits.length := by
    rw [hsegs, FrameFields.length_segments]
  have hids : f.segments.map (·.packetId) = packetIds s.packetId splits.length := by
    rw [hsegs, FrameFields.segments_packetId]
  -- the state in which the segments are filed
  have hfile := fileSegments_spec ftype s.timeStamp.1 splits.length splits 0 s.timeStamp.2
  have hfiled : BufferInv (fileSegments ftype s.timeStamp.1 splits.length 0 s.timeStamp.2
      splits) := by
    obtain ⟨htx, hheap, hnext, _⟩ := timeStamp_eq s
    exact (hbuffer.of_noNewWork (.of_eq htx hheap hnext)).fileSegments ftype _ _ _ _
  rw [timeStamp_spec s] at hfile hfiled
  simp only at hfile
  rw [← hsegs] at hfile
  rw [hfile] at hfiled
  have hfind : ∀ k ∈ packetIds s.packetId splits.length,
      ((fileAll s.txBuffer f.segments).find? k.toNat).isSome := by
    intro k hk
    refine SortedMap.isSome_find?_insertAll (.inr ?_)
    rw [← hids] at hk
    obtain ⟨seg, hseg, rfl⟩ := List.mem_map.mp hk
    exact List.mem_map.mpr ⟨_, List.mem_map_of_mem hseg, rfl⟩
  obtain ⟨heap, next, hrun, hlock, hhanded⟩ := queueSegments_spec splits.length
    (s := { s with
      firstTs := s.timeStamp.2.firstTs
      txBuffer := fileAll s.txBuffer f.segments
      packetId := s.packetId + BitVec.ofNat 32 splits.length })
    ⟨hinv.live, hinv.nodup, hfiled.key_eq⟩ hinv.lockstep hfind
  have hschedule : s.schedule ftype byte = queueSegments splits.length
      (fileSegments ftype s.timeStamp.1 splits.length 0 s.timeStamp.2 splits) := by
    simp only [MpSender.schedule, hsplit]
  rw [timeStamp_spec s, hfile, hrun] at hschedule
  refine ⟨_, hschedule, ⟨hinv.frameId, hlock, ?_, hinv.nodup, hinv.values_lt⟩, ⟨rfl, ?_⟩, ?_⟩
  · exact fun path hpath => hhanded.live (hinv.live path hpath)
  · exact hids ▸ hhanded
  · simp only [hlen]

/-! ## What schedules no frame -/

def counters (s : MpSender) : Int × BitVec 32 × BitVec 32 :=
  (s.currentPacketId, s.packetId, s.frameId)

/-- Counters and paths stay as they are, and no object is deleted. -/
structure KeepsPaths (s s' : MpSender) : Prop where
  counters : s'.counters = s.counters
  paths : s'.paths = s.paths
  nextPath : s'.nextPath = s.nextPath
  live : ∀ path, (s.heap path).isSome → (s'.heap path).isSome

theorem KeepsPaths.of_eq (hcounters : s'.counters = s.counters) (hpaths : s'.paths = s.paths)
    (hnext : s'.nextPath = s.nextPath) (hheap : s'.heap = s.heap) : KeepsPaths s s' where
  counters := hcounters
  paths := hpaths
  nextPath := hnext
  live := fun _ hlive => hheap ▸ hlive

theorem KeepsPaths.trans (h : KeepsPaths s s') (h' : KeepsPaths s' s'') : KeepsPaths s s'' where
  counters := h'.counters.trans h.counters
  paths := h'.paths.trans h.paths
  nextPath := h'.nextPath.trans h.nextPath
  live := fun path hlive => h'.live path (h.live path hlive)

theorem KeepsPaths.of_same (h : SameEvents s s') (hcounters : s'.counters = s.counters) :
    KeepsPaths s s' where
  counters := hcounters
  paths := h.paths
  nextPath := h.nextPath
  live := by
    intro path hlive
    obtain ⟨p, hp⟩ := Option.isSome_iff_exists.mp hlive
    obtain ⟨p', hp', _⟩ := h.forth hp
    simp [hp']

theorem KeepsPaths.setPath (s : MpSender) (path : Nat) (p : Path) :
    KeepsPaths s (s.setPath path (some p)) where
  counters := rfl
  paths := rfl
  nextPath := rfl
  live := by
    intro q hlive
    by_cases hq : q = path
    · simp [MpSender.setPath, hq]
    · simpa [MpSender.setPath, hq] using hlive

theorem FrameInv.of_keeps (h : FrameInv frameId s) (hkeep : KeepsPaths s s') :
    FrameInv frameId s' := by
  obtain ⟨hcurrent, hrest⟩ := Prod.mk.inj hkeep.counters
  obtain ⟨hpacket, hframe⟩ := Prod.mk.inj hrest
  constructor
  · exact hframe.trans h.frameId
  · rw [hcurrent, hpacket]
    exact h.lockstep
  · rw [hkeep.paths]
    exact fun path hpath => hkeep.live path (h.live path hpath)
  · exact hkeep.paths.symm ▸ h.nodup
  · rw [hkeep.paths, hkeep.nextPath]
    exact h.values_lt

theorem KeepsPaths.of_signals (h : Signals s s') : KeepsPaths s s' := by
  induction h with
  | same _ hheap hpaths hnext hcounters => exact .of_eq hcounters hpaths hnext hheap
  | path hp _ _ _ => exact .setPath _ _ _
  | trans _ _ ih ih' => exact ih.trans ih'

theorem onPacePacket_counters {info : PathAddressInfo} {packetId : BitVec 32} {seq : BitVec 16}
    (h : s.onPacePacket info packetId seq = some s') : s'.counters = s.counters := by
  unfold onPacePacket at h
  split at h
  · exact absurd h nofun
  · obtain rfl := Option.some.inj h
    simp only
    split
    · rfl
    · rfl

theorem paceLoop_counters {l : List PacePacket} {p p' : Path}
    (h : s.paceLoop p l = some (s', p')) : s'.counters = s.counters := by
  induction l generalizing s p with
  | nil => exact (Prod.mk.inj (Option.some.inj h)).1 ▸ rfl
  | cons ele rest ih =>
      unfold paceLoop at h
      split at h
      · exact (Prod.mk.inj (Option.some.inj h)).1 ▸ rfl
      · split at h
        · exact absurd h nofun
        · rename_i s₁ hpace
          exact (ih h).trans (onPacePacket_counters hpace)

theorem probeLoop_counters (stamp : BitVec 32) (npacket : Nat) (splits : List (BitVec 16))
    (i : Nat) (s : MpSender) (p : Path) :
    (probeLoop stamp npacket i s p splits).1.counters = s.counters := by
  induction splits generalizing i s p with
  | nil => rfl
  | cons split rest ih =>
      unfold probeLoop
      split
      · exact ih (i + 1) _ _
      · exact ih (i + 1) s p

theorem probe_counters {p p' : Path} (h : s.probe p = some (s', p')) :
    s'.counters = s.counters := by
  rcases probe_cases h with ⟨rfl, -⟩ | ⟨splits, rfl, -⟩
  · rfl
  · rw [probeLoop_counters, timeStamp_spec s]
    rfl

theorem KeepsPaths.paceCallback {path : Nat} (h : s.paceCallback path = some s') :
    KeepsPaths s s' := by
  unfold MpSender.paceCallback at h
  obtain ⟨p, _, h⟩ := Option.bind_eq_some_iff.mp h
  simp only [Option.bind_eq_bind] at h
  split at h
  · obtain ⟨⟨s₁, p₁⟩, hpace, h⟩ := Option.bind_eq_some_iff.mp h
    obtain ⟨⟨s₂, p₂⟩, hprobe, h⟩ := Option.bind_eq_some_iff.mp h
    obtain rfl := Option.some.inj h
    have hpaced := KeepsPaths.of_same (SameEvents.paceLoop hpace).1 (paceLoop_counters hpace)
    have hprobed := KeepsPaths.of_same (SameEvents.probe hprobe).1 (probe_counters hprobe)
    refine (hpaced.trans hprobed).trans ?_
    exact (KeepsPaths.setPath s₂ path _).trans (.of_eq rfl rfl rfl rfl)
  · obtain rfl := Option.some.inj h
    exact .setPath s path _

theorem FrameInv.addPath (hinv : FrameInv frameId s)
    (isExistPath : Ipv4Address → Ipv4Address → Bool) (destIp : Ipv4Address) (destPort : Port)
    (lastUpdate : Nat) (byteRemaining : BitVec 32) :
    FrameInv frameId (s.addPath isExistPath destIp destPort lastUpdate byteRemaining) := by
  unfold MpSender.addPath
  induction s.addPathInfos isExistPath destIp destPort generalizing s with
  | nil => exact hinv
  | cons info rest ih =>
      apply ih
      constructor
      · exact hinv.frameId
      · exact hinv.lockstep
      · intro path hpath
        by_cases hnew : path = s.nextPath
        · simp [addPathTurn, MpSender.setPath, hnew]
        · have hold := (ComparatorMap.mem_values_insert hpath).resolve_left hnew
          simpa [addPathTurn, MpSender.setPath, hnew] using hinv.live path hold
      · refine ComparatorMap.nodup_values_insert hinv.nodup ?_
        exact fun hmem => Nat.lt_irrefl _ (hinv.values_lt _ hmem)
      · intro path hpath
        rcases ComparatorMap.mem_values_insert hpath with rfl | hpath
        · exact Nat.lt_succ_self _
        · exact Nat.lt_succ_of_lt (hinv.values_lt path hpath)

theorem addPath_counters (isExistPath : Ipv4Address → Ipv4Address → Bool)
    (destIp : Ipv4Address) (destPort : Port) (lastUpdate : Nat) (byteRemaining : BitVec 32)
    (s : MpSender) :
    (s.addPath isExistPath destIp destPort lastUpdate byteRemaining).counters = s.counters := by
  unfold MpSender.addPath
  induction s.addPathInfos isExistPath destIp destPort generalizing s with
  | nil => rfl
  | cons info rest ih => exact ih _

theorem deletePath_counters (s : MpSender) (path : Nat) :
    (s.deletePath path).counters = s.counters := by
  unfold deletePath
  split
  · rfl
  · rfl

theorem stopApplication_counters (s : MpSender) : s.stopApplication.counters = s.counters := by
  have hloop : ∀ (paths : List Nat) (s : MpSender),
      (paths.foldl deletePath s).counters = s.counters := by
    intro paths
    induction paths with
    | nil => exact fun _ => rfl
    | cons path rest ih => exact fun s => (ih _).trans (deletePath_counters s path)
  exact hloop s.paths.values s

/-- Stopping deletes the paths of the map, and empties it. -/
theorem FrameInv.stopApplication (hinv : FrameInv frameId s) :
    FrameInv frameId s.stopApplication := by
  obtain ⟨hcurrent, hrest⟩ := Prod.mk.inj (stopApplication_counters s)
  obtain ⟨hpacket, hframe⟩ := Prod.mk.inj hrest
  constructor
  · exact hframe.trans hinv.frameId
  · rw [hcurrent, hpacket]
    exact hinv.lockstep
  · exact nofun
  · exact List.nodup_nil
  · exact nofun

/-! ## Runs -/

section Runs

variable {isExistPath : Ipv4Address → Ipv4Address → Bool} {frameBytes : BitVec 32}

/-- A call schedules a frame, or keeps the counters. -/
theorem frameCall_cases (frameId : BitVec 32) {e : Input}
    (h : call isExistPath frameBytes s e = some s') :
    (∃ f s₁, s.frameCall? frameBytes e = some f ∧ f.sender.schedule f.ftype f.byte = some s₁ ∧
      KeepsPaths s f.sender ∧ NoNewWork s f.sender ∧ KeepsPaths s₁ s') ∨
    (s.frameCall? frameBytes e = none ∧ s'.counters = s.counters ∧
      (FrameInv frameId s → FrameInv frameId s')) := by
  have hkeeps (hframe : s.frameCall? frameBytes e = none) (hkeep : KeepsPaths s s') :
      s.frameCall? frameBytes e = none ∧ s'.counters = s.counters ∧
        (FrameInv frameId s → FrameInv frameId s') :=
    ⟨hframe, hkeep.counters, fun hinv => hinv.of_keeps hkeep⟩
  cases e with
  | addPath destIp destPort lastUpdate byteRemaining =>
      obtain rfl := Option.some.inj h
      exact .inr ⟨rfl, addPath_counters isExistPath destIp destPort lastUpdate byteRemaining s,
        fun hinv => hinv.addPath isExistPath destIp destPort lastUpdate byteRemaining⟩
  | start => exact .inr (hkeeps rfl (.of_signals (.startApplication h)))
  | stop =>
      obtain rfl := Option.some.inj h
      exact .inr ⟨rfl, stopApplication_counters s, FrameInv.stopApplication⟩
  | packet info message => exact .inr (hkeeps rfl (.of_signals (.recvPacket h)))
  | schedule ftype byte =>
      exact .inl ⟨⟨s, ftype, byte⟩, s', rfl, h, .of_eq rfl rfl rfl rfl, .of_eq rfl rfl rfl,
        .of_eq rfl rfl rfl rfl⟩
  | timer =>
      simp only [MpSender.call] at h
      split at h
      · exact absurd h.symm (Option.some_ne_none _)
      · rename_i ev queue hpop
        have hpopped : KeepsPaths s { s with queue } := .of_eq rfl rfl rfl rfl
        cases haction : ev.action with
        | connect path =>
            rw [haction] at h
            exact .inr (hkeeps (by simp [frameCall?, hpop, haction])
              (hpopped.trans (.of_signals (.connect h))))
        | paceCallback path =>
            rw [haction] at h
            exact .inr (hkeeps (by simp [frameCall?, hpop, haction])
              (hpopped.trans (.paceCallback h)))
        | fakePacket =>
            rw [haction] at h
            simp only [runEvent, fakePacket] at h
            by_cases hexpired : queue.isExpired s.generateTimer = true
            · rw [if_pos hexpired] at h
              split at h
              · exact absurd h.symm (Option.some_ne_none _)
              · rename_i s₁ hschedule
                obtain rfl := Option.some.inj h
                exact .inl ⟨⟨{ s with queue }, 0, frameBytes⟩, s₁,
                  by simp [frameCall?, hpop, haction, hexpired], hschedule, hpopped,
                  .of_eq rfl rfl rfl, .of_eq rfl rfl rfl rfl⟩
            · rw [if_neg hexpired] at h
              obtain rfl := Option.some.inj h
              exact .inr (hkeeps (by simp [frameCall?, hpop, hexpired]) hpopped)

theorem frameStep_iff {t t' : MpSender × List FrameCall} {e : Nat × Input} :
    frameStep? isExistPath frameBytes t e = some t' ↔
      ∃ queue, t.1.queue.advance? e.1 = some queue ∧
        call isExistPath frameBytes { t.1 with queue } e.2 = some t'.1 ∧
        t'.2 = t.2 ++ (frameCall? frameBytes { t.1 with queue } e.2).toList := by
  unfold frameStep?
  cases t.1.queue.advance? e.1 with
  | none => simp
  | some queue =>
      simp only [Option.some.injEq, exists_eq_left']
      cases call isExistPath frameBytes { t.1 with queue } e.2 with
      | none => simp
      | some s' =>
          simp only [Option.some.injEq]
          constructor
          · rintro rfl
            exact ⟨rfl, rfl⟩
          · rintro ⟨rfl, hframes⟩
            rw [← hframes]

/-- The frames of a run have the packet ids up to the one that is made next, and the
number of the first frame. -/
structure FramesInv (frameId : BitVec 32) (t : MpSender × List FrameCall) : Prop where
  sender : FrameInv frameId t.1
  buffer : BufferInv t.1
  isFrame : ∀ f ∈ t.2, IsFrame f.sender.packetId f.byte.toNat f.segments
  scheduled : ∀ f ∈ t.2, ∃ s', f.sender.schedule f.ftype f.byte = some s' ∧ f.Scheduled s'
  fid : ∀ f ∈ t.2, ∀ seg ∈ f.segments, seg.fid = frameId
  packetIds : (t.2.flatMap (·.segments)).map (·.packetId) =
    Razor.packetIds 0 (t.2.flatMap (·.segments)).length
  packetId : t.1.packetId = BitVec.ofNat 32 (t.2.flatMap (·.segments)).length

theorem FramesInv.new (cid uid frameId : BitVec 32)
    (sockets : ComparatorMap Ipv4Address Port compSocket) :
    FramesInv frameId (new cid uid frameId sockets, []) where
  sender := ⟨rfl, rfl, nofun, List.nodup_nil, nofun⟩
  buffer := .new cid uid frameId sockets
  isFrame := nofun
  scheduled := nofun
  fid := nofun
  packetIds := rfl
  packetId := rfl

/-- One more frame takes the packet ids that follow. -/
theorem FramesInv.step {t t' : MpSender × List FrameCall} {e : Nat × Input}
    (hinv : FramesInv frameId t) (h : frameStep? isExistPath frameBytes t e = some t') :
    FramesInv frameId t' := by
  obtain ⟨queue, _, hcall, hframes⟩ := frameStep_iff.mp h
  have hsender : FrameInv frameId { t.1 with queue } :=
    hinv.sender.of_keeps (.of_eq rfl rfl rfl rfl)
  have hbuffer : BufferInv { t.1 with queue } := hinv.buffer.of_noNewWork (.of_eq rfl rfl rfl)
  have hbuffer' := hbuffer.call hcall
  rcases frameCall_cases frameId hcall with
    ⟨f, s₁, hframe, hschedule, hkeep, hwork, hkeep'⟩ | ⟨hnone, hcounters, hkept⟩
  · rw [hframe, Option.toList_some] at hframes
    have hsplit : f.byte.toNat / segmentSize < maxSplitPackets := by
      unfold MpSender.schedule at hschedule
      split at hschedule
      · exact absurd hschedule nofun
      · rename_i splits hsplit
        exact (frameSplit_eq_some_iff.mp hsplit).1
    have hfsender := hsender.of_keeps hkeep
    obtain ⟨s₂, hschedule₂, hinv₂, hscheduled, hpacket₂⟩ :=
      hfsender.schedule (hbuffer.of_noNewWork hwork) f.ftype hsplit
    obtain rfl := Option.some.inj (hschedule.symm.trans hschedule₂)
    have hisFrame := f.isFrame hsplit
    have hpacket : f.sender.packetId =
        BitVec.ofNat 32 (t.2.flatMap (·.segments)).length := by
      obtain ⟨_, hrest⟩ := Prod.mk.inj hkeep.counters
      exact (Prod.mk.inj hrest).1.trans hinv.packetId
    have hpacket' : t'.1.packetId = s₁.packetId := by
      obtain ⟨_, hrest⟩ := Prod.mk.inj hkeep'.counters
      exact (Prod.mk.inj hrest).1
    constructor
    · exact hinv₂.of_keeps hkeep'
    · exact hbuffer'
    · intro g hg
      rw [hframes] at hg
      rcases List.mem_append.mp hg with hg | hg
      · exact hinv.isFrame g hg
      · obtain rfl := List.mem_singleton.mp hg
        exact hisFrame
    · intro g hg
      rw [hframes] at hg
      rcases List.mem_append.mp hg with hg | hg
      · exact hinv.scheduled g hg
      · obtain rfl := List.mem_singleton.mp hg
        exact ⟨s₁, hschedule, hscheduled⟩
    · intro g hg
      rw [hframes] at hg
      rcases List.mem_append.mp hg with hg | hg
      · exact hinv.fid g hg
      · obtain rfl := List.mem_singleton.mp hg
        intro seg hseg
        exact (FrameFields.of_mem_segments _ _ _ _ hseg).1.trans hfsender.frameId
    · rw [hframes, List.flatMap_append, List.map_append, hinv.packetIds, List.length_append]
      simp only [List.flatMap_cons, List.flatMap_nil, List.append_nil]
      rw [hisFrame.packetId, hpacket, ← packetIds_append]
      exact congrArg (_ ++ Razor.packetIds · _) (BitVec.zero_add _).symm
    · rw [hpacket', hpacket₂, hframes, List.flatMap_append, List.length_append]
      simp only [List.flatMap_cons, List.flatMap_nil, List.append_nil]
      rw [BitVec.ofNat_add, hpacket]
  · rw [hnone, Option.toList_none, List.append_nil] at hframes
    obtain ⟨_, hrest⟩ := Prod.mk.inj hcounters
    have hpacket' : t'.1.packetId = t.1.packetId := (Prod.mk.inj hrest).1
    exact ⟨hkept hsender, hbuffer', hframes ▸ hinv.isFrame, hframes ▸ hinv.scheduled,
      hframes ▸ hinv.fid, hframes ▸ hinv.packetIds, hframes ▸ hpacket'.trans hinv.packetId⟩

theorem FramesInv.framesHanded {t : MpSender × List FrameCall} (hinv : FramesInv frameId t) :
    FramesHanded t.1 t.2 where
  accepts := by
    intro ftype byte hbyte
    obtain ⟨s', hschedule, _⟩ := hinv.sender.schedule hinv.buffer ftype hbyte
    simp [hschedule]
  isFrame := hinv.isFrame
  scheduled := hinv.scheduled
  packetIds := hinv.packetIds

end Runs

/-- **The frames of a run** are cut into segments with the next packet ids and are
handed to the connected paths, whatever else happens between them. They are told apart
by their numbers exactly if there is at most one. -/
theorem wellSegmented_iff (isExistPath : Ipv4Address → Ipv4Address → Bool)
    (frameBytes cid uid frameId : BitVec 32)
    (sockets : ComparatorMap Ipv4Address Port compSocket) (es : List (Nat × Input))
    (s : MpSender) (frames : List FrameCall)
    (hrun : Run (fun t e t' => frameStep? isExistPath frameBytes t e = some t')
      (new cid uid frameId sockets, []) es (s, frames)) :
    FramesHanded s frames ∧ (WellSegmented s frames ↔ frames.length ≤ 1) := by
  have hinv : FramesInv frameId (s, frames) :=
    hrun.stateInvariant (.new cid uid frameId sockets) fun _ _ _ hinv hstep => hinv.step hstep
  refine ⟨hinv.framesHanded, ?_, ?_⟩
  · intro hwell
    by_contra hmany
    obtain ⟨f, hf⟩ : ∃ f, frames[0]? = some f := ⟨_, List.getElem?_eq_getElem (by omega)⟩
    obtain ⟨g, hg⟩ : ∃ g, frames[1]? = some g := ⟨_, List.getElem?_eq_getElem (by omega)⟩
    have hfmem := List.mem_of_getElem? hf
    have hgmem := List.mem_of_getElem? hg
    obtain ⟨seg, hseg⟩ := List.exists_mem_of_ne_nil _ (hinv.isFrame f hfmem).nonempty
    obtain ⟨seg', hseg'⟩ := List.exists_mem_of_ne_nil _ (hinv.isFrame g hgmem).nonempty
    apply hwell.distinct 0 1 f g hf hg (by decide) (by decide) seg hseg seg' hseg'
    rw [hinv.fid f hfmem seg hseg, hinv.fid g hgmem seg' hseg']
  · intro hfew
    refine ⟨hinv.framesHanded, ?_⟩
    intro i j f g _ hg hlt _
    have hj := (List.getElem?_eq_some_iff.mp hg).1
    omega

/-- A frame for one connected path is well segmented. -/
theorem wellSegmented_one : ∃ s frames,
    Run (fun t e t' => frameStep? (fun _ _ => true) 400 t e = some t')
      (new 1234 0 0 ⟨[(0x0a010101, 49153)]⟩, []) oneFrame (s, frames) ∧
    frames.length = 1 ∧ WellSegmented s frames := by
  have hlast : (oneFrame.foldlM (frameStep? (fun _ _ => true) 400)
      (new 1234 0 0 ⟨[(0x0a010101, 49153)]⟩, [])).map (fun t => t.2.length) = some 1 := by decide
  obtain ⟨⟨s, frames⟩, hs, hlength⟩ := Option.map_eq_some_iff.mp hlast
  have hrun := Run.of_foldlM hs
  refine ⟨s, frames, hrun, hlength, ?_⟩
  exact (wellSegmented_iff _ _ _ _ _ _ _ _ _ hrun).2.mpr (Nat.le_of_eq hlength)

/-- Two frames for one connected path. -/
def twoFrames : List (Nat × Input) :=
  oneFrame ++ [(0, .schedule 0 500)]

/-- Two frames have the same number. -/
theorem frames_share_fid : ∃ s frames,
    Run (fun t e t' => frameStep? (fun _ _ => true) 400 t e = some t')
      (new 1234 0 0 ⟨[(0x0a010101, 49153)]⟩, []) twoFrames (s, frames) ∧
    ¬ WellSegmented s frames := by
  have hlast : (twoFrames.foldlM (frameStep? (fun _ _ => true) 400)
      (new 1234 0 0 ⟨[(0x0a010101, 49153)]⟩, [])).map
        (fun t => t.2.map fun f => f.segments.map (·.fid)) = some [[0], [0]] := by decide
  obtain ⟨⟨s, frames⟩, hs, hfids⟩ := Option.map_eq_some_iff.mp hlast
  refine ⟨s, frames, .of_foldlM hs, ?_⟩
  intro hwell
  obtain ⟨f, rest, rfl, hf, hrest⟩ := List.map_eq_cons_iff.mp hfids
  obtain ⟨g, _, rfl, hg, _⟩ := List.map_eq_cons_iff.mp hrest
  obtain ⟨seg, _, hsegs, hseg, _⟩ := List.map_eq_cons_iff.mp hf
  obtain ⟨seg', _, hsegs', hseg', _⟩ := List.map_eq_cons_iff.mp hg
  refine hwell.distinct 0 1 f g rfl rfl (by decide) (by decide) seg ?_ seg' ?_ ?_
  · rw [hsegs]
    exact List.mem_cons_self ..
  · rw [hsegs']
    exact List.mem_cons_self ..
  · rw [hseg, hseg']

end MpSender

end Multipath
