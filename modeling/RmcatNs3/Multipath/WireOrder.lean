import RmcatNs3.Multipath.PathEvents
import RmcatNs3.Multipath.PathPacing
import RmcatNs3.Multipath.SendBuffer

/-!
# The order on the wire

What every path of a sender puts on the wire, in runs of the whole sender. The transport
numbers are counted in two classes, behind a packet in `Path::PaceCallback` and by
`GetTransSeq` in `MpSender::OnBwProbe`, and packets are queued on many paths at once. One
path sees none of this: its callbacks do on the sender what they do on the path alone, and
everything else only queues packets.
-/

namespace Multipath

open Razor Runs EventQueue

/-! ## One path -/

namespace PacedPath

/-- What was queued has gone on the wire in its order or is still in the queue, and
everything on the wire is numbered from zero. -/
structure InOrder (p : PacedPath) : Prop where
  queued_eq : p.queued = p.wire.filterMap Wire.media? ++ p.paceQueue
  transportSeqs_eq : p.wire.map Wire.transportSeq =
    (List.range p.wire.length).map (BitVec.ofNat 16)
  transSeq_eq : p.transSeq = BitVec.ofNat 16 p.wire.length

variable {p p' : PacedPath}

/-- Something is put on the wire with the next number. -/
theorem InOrder.send {w : Wire} (h : p.InOrder) (hw : w.transportSeq = p.transSeq) :
    (p.wire ++ [w]).map Wire.transportSeq =
        (List.range (p.wire ++ [w]).length).map (BitVec.ofNat 16) ∧
      p.transSeq + 1 = BitVec.ofNat 16 (p.wire ++ [w]).length := by
  rw [List.length_append, List.length_singleton]
  constructor
  · rw [List.map_append, List.range_succ, List.map_append, h.transportSeqs_eq]
    simp [hw, h.transSeq_eq]
  · rw [BitVec.ofNat_add, ← h.transSeq_eq]
    rfl

theorem InOrder.increaseBudget (h : p.InOrder) (deltaTs : BitVec 32) :
    (p.increaseBudget deltaTs).InOrder := by
  have hqueue : (p.increaseBudget deltaTs).paceQueue = p.paceQueue := by
    simp only [PacedPath.increaseBudget, Path.increaseBudget]
    split <;> rfl
  have hseq : (p.increaseBudget deltaTs).transSeq = p.transSeq := by
    simp only [PacedPath.increaseBudget, Path.increaseBudget]
    split <;> rfl
  exact ⟨hqueue ▸ h.queued_eq, h.transportSeqs_eq, hseq ▸ h.transSeq_eq⟩

theorem InOrder.sendMedia {ele : PacePacket} {rest : List PacePacket}
    (h : InOrder { p with paceQueue := ele :: rest }) :
    InOrder { p.sendMedia ele with paceQueue := rest } := by
  obtain ⟨hseqs, hseq⟩ := h.send (w := .media ele p.transSeq) rfl
  refine ⟨?_, hseqs, hseq⟩
  have hqueued : p.queued = p.wire.filterMap Wire.media? ++ ele :: rest := h.queued_eq
  simp [PacedPath.sendMedia, useBudget, hqueued, Wire.media?]

theorem InOrder.paceLoop {l : List PacePacket} (h : InOrder { p with paceQueue := l }) :
    (p.paceLoop l).InOrder := by
  induction l generalizing p with
  | nil => exact h
  | cons ele rest ih =>
      unfold PacedPath.paceLoop
      split
      · exact h
      · exact ih h.sendMedia

theorem InOrder.probeLoop (h : p.InOrder) (splits : List (BitVec 16)) :
    (p.probeLoop splits).InOrder := by
  induction splits generalizing p with
  | nil => exact h
  | cons split rest ih =>
      unfold PacedPath.probeLoop
      split
      · apply ih
        obtain ⟨hseqs, hseq⟩ :=
          h.send (w := .probe (split - headerLen.setWidth 16) p.transSeq) rfl
        refine ⟨?_, hseqs, hseq⟩
        simp [h.queued_eq, Wire.media?]
      · exact ih h

theorem InOrder.probe (h : p.InOrder) (hp : p.probe = some p') : p'.InOrder := by
  unfold PacedPath.probe at hp
  split at hp
  · split at hp
    · exact absurd hp.symm (Option.some_ne_none _)
    · rename_i splits _
      obtain rfl := Option.some.inj hp
      have hloop := h.probeLoop splits
      exact ⟨hloop.queued_eq, hloop.transportSeqs_eq, hloop.transSeq_eq⟩
  · exact Option.some.inj hp ▸ h

/-- A callback keeps the order, with the timer expired or not. -/
theorem InOrder.paceCallback (h : p.InOrder) {now : Nat} {expired : Bool}
    (hp : p.paceCallback now expired = some p') : p'.InOrder := by
  unfold PacedPath.paceCallback at hp
  have hbudget := h.increaseBudget (BitVec.ofNat 32 now - BitVec.ofNat 32 p.lastUpdate)
  simp only at hp
  split at hp
  · split at hp
    · exact absurd hp.symm (Option.some_ne_none _)
    · rename_i p₁ hprobe
      obtain rfl := Option.some.inj hp
      have hafter := (InOrder.paceLoop hbudget).probe hprobe
      exact ⟨hafter.queued_eq, hafter.transportSeqs_eq, hafter.transSeq_eq⟩
  · exact Option.some.inj hp ▸ hbudget

end PacedPath

/-! ## The path and its sender -/

namespace Path

/-- Packets may have been queued behind the others; nothing has been put on the wire. -/
structure Extends (p p' : Path) : Prop where
  info : p'.info = p.info
  transSeq : p'.transSeq = p.transSeq
  paceQueue : p.paceQueue <+: p'.paceQueue

theorem Extends.of_eq {p p' : Path} (hinfo : p'.info = p.info)
    (hseq : p'.transSeq = p.transSeq) (hqueue : p'.paceQueue = p.paceQueue) : Extends p p' :=
  ⟨hinfo, hseq, hqueue ▸ List.prefix_rfl⟩

theorem Extends.addPacePacket (p : Path) (packetId : BitVec 32) (retrans : BitVec 8)
    (size : BitVec 32) (now : Nat) :
    Extends p (p.addPacePacket packetId retrans size now) :=
  ⟨rfl, rfl, List.prefix_append _ _⟩

end Path

/-- The datagram that carries what a path puts on the wire. -/
inductive Carried (info : PathAddressInfo) : Wire → Datagram → Prop
  | media {ele : PacePacket} {transportSeq : BitVec 16} {seg : Segment} {uid : BitVec 32}
      (hid : seg.packetId = ele.seq) (hseq : seg.transportSeq = transportSeq) :
      Carried info (.media ele transportSeq)
        ⟨info.srcIp, info.destIp, info.destPort, uid, .seg seg, seg.dataSize.toNat⟩
  | probe {dataSize transportSeq : BitVec 16} {seg : Segment} {uid : BitVec 32}
      (hid : seg.packetId = 0) (hftype : seg.ftype = 0x80) (hsize : seg.dataSize = dataSize)
      (hseq : seg.transportSeq = transportSeq) :
      Carried info (.probe dataSize transportSeq)
        ⟨info.srcIp, info.destIp, info.destPort, uid, .seg seg, seg.dataSize.toNat⟩

namespace MpSender

variable {s s' s'' : MpSender} {p p' p'' : PacedPath}

/-- The sender sends what the path puts on the wire, in its order, and nothing is
queued. -/
structure Puts (s s' : MpSender) (p p' : PacedPath) : Prop where
  info : p'.info = p.info
  queued : p'.queued = p.queued
  sent : ∃ wire sent, p'.wire = p.wire ++ wire ∧ s'.sent = s.sent ++ sent ∧
    List.Forall₂ (Carried p.info) wire sent

theorem Puts.none (hinfo : p'.info = p.info) (hqueued : p'.queued = p.queued)
    (hwire : p'.wire = p.wire) (hsent : s'.sent = s.sent) : Puts s s' p p' :=
  ⟨hinfo, hqueued, [], [], by simp [hwire], by simp [hsent], .nil⟩

theorem Puts.one {w : Wire} {d : Datagram} (hinfo : p'.info = p.info)
    (hqueued : p'.queued = p.queued) (hwire : p'.wire = p.wire ++ [w])
    (hsent : s'.sent = s.sent ++ [d]) (hcarried : Carried p.info w d) : Puts s s' p p' :=
  ⟨hinfo, hqueued, [w], [d], hwire, hsent, .cons hcarried .nil⟩

/-- What a path in order puts on the wire leaves no more in its queue. -/
theorem Puts.paceQueue_le (h : Puts s s' p p') (hp : p.InOrder) (hp' : p'.InOrder) :
    p'.paceQueue.length ≤ p.paceQueue.length := by
  obtain ⟨wire, _, hwire, _⟩ := h.sent
  have hlengths := congrArg List.length (hp.queued_eq.symm.trans
    (h.queued.symm.trans hp'.queued_eq))
  rw [hwire, List.filterMap_append] at hlengths
  simp only [List.length_append] at hlengths
  omega

theorem Puts.trans (h : Puts s s' p p') (h' : Puts s' s'' p' p'') : Puts s s'' p p'' := by
  obtain ⟨wire, sent, hwire, hsent, hcarried⟩ := h.sent
  obtain ⟨wire', sent', hwire', hsent', hcarried'⟩ := h'.sent
  refine ⟨h'.info.trans h.info, h'.queued.trans h.queued, wire ++ wire', sent ++ sent',
    ?_, ?_, ?_⟩
  · rw [hwire', hwire, List.append_assoc]
  · rw [hsent', hsent, List.append_assoc]
  · rw [h.info] at hcarried'
    exact List.rel_append hcarried hcarried'

/-- The packet that is sent is the one the path hands over. -/
theorem onPacePacket_puts (hinv : BufferInv s) {ele : PacePacket}
    (h : s.onPacePacket p.info ele.seq p.transSeq = some s') : Puts s s' p (p.sendMedia ele) := by
  unfold onPacePacket at h
  split at h
  · exact absurd h.symm (Option.some_ne_none _)
  · rename_i ref hlookup
    obtain rfl := Option.some.inj h
    obtain ⟨b, hfind, rfl⟩ := Option.map_eq_some_iff.mp hlookup
    obtain ⟨hmem, hkey⟩ := SortedMap.find?_eq_some_iff.mp hfind
    have hid : b.2.seg.packetId = ele.seq :=
      BitVec.eq_of_toNat_eq ((hinv.key_eq b hmem).trans hkey)
    let seg : Segment := { b.2.seg with
      sendTs := BitVec.ofNat 16 s.nowMs - s.firstTs.setWidth 16 - b.2.seg.timestamp.setWidth 16
      transportSeq := p.transSeq }
    have hcarried : Carried p.info (.media ele p.transSeq)
        ⟨p.info.srcIp, p.info.destIp, p.info.destPort, s.uid, .seg seg, seg.dataSize.toNat⟩ :=
      .media hid rfl
    refine Puts.one rfl rfl rfl ?_ hcarried
    simp only [sendTo]
    split <;> rfl

theorem paceLoop_puts {l : List PacePacket} {q : Path} (hinv : BufferInv s)
    (h : s.paceLoop p.toPath l = some (s', q)) :
    q = (p.paceLoop l).toPath ∧ Puts s s' p (p.paceLoop l) := by
  induction l generalizing s p with
  | nil =>
      obtain ⟨rfl, rfl⟩ := Prod.mk.inj (Option.some.inj h)
      exact ⟨rfl, .none rfl rfl rfl rfl⟩
  | cons ele rest ih =>
      unfold paceLoop at h
      unfold PacedPath.paceLoop
      by_cases howed : p.byteRemaining.slt 0 = true
      · rw [if_pos howed] at h ⊢
        obtain ⟨rfl, rfl⟩ := Prod.mk.inj (Option.some.inj h)
        exact ⟨rfl, .none rfl rfl rfl rfl⟩
      · rw [if_neg howed] at h ⊢
        split at h
        · exact absurd h.symm (Option.some_ne_none _)
        · rename_i s₁ hpace
          obtain ⟨hbuffer, hheap, hnext⟩ := onPacePacket_eq hinv.ref_zero hpace
          obtain ⟨hq, hputs⟩ := ih (p := p.sendMedia ele)
            (hinv.of_noNewWork (.of_eq hbuffer hheap hnext)) h
          exact ⟨hq, (onPacePacket_puts hinv hpace).trans hputs⟩

theorem probeLoop_puts (stamp : BitVec 32) (npacket : Nat) (splits : List (BitVec 16)) (i : Nat)
    (s : MpSender) (p : PacedPath) :
    let r := probeLoop stamp npacket i s p.toPath splits
    r.2 = (p.probeLoop splits).toPath ∧ Puts s r.1 p (p.probeLoop splits) := by
  induction splits generalizing i s p with
  | nil => exact ⟨rfl, .none rfl rfl rfl rfl⟩
  | cons split rest ih =>
      unfold probeLoop PacedPath.probeLoop
      split
      · obtain ⟨hq, hputs⟩ := ih (i + 1) _ { p with
          wire := p.wire ++ [.probe (split - headerLen.setWidth 16) p.transSeq]
          transSeq := p.transSeq + 1 }
        refine ⟨hq, Puts.trans ?_ hputs⟩
        exact .one rfl rfl rfl rfl (.probe rfl rfl rfl rfl)
      · exact ih (i + 1) s p

theorem timeStamp_sent (s : MpSender) : s.timeStamp.2.sent = s.sent := by
  unfold timeStamp
  split <;> rfl

theorem probe_puts {q : Path} (h : s.probe p.toPath = some (s', q)) :
    ∃ p', p.probe = some p' ∧ q = p'.toPath ∧ Puts s s' p p' := by
  unfold probe at h
  unfold PacedPath.probe
  split at h
  · rename_i hprobe
    rw [if_pos hprobe]
    unfold onBwProbe at h
    cases hsplit : frameSplit p.byteRemaining.toNat with
    | none => simp [hsplit] at h
    | some splits =>
        simp only [hsplit, Option.some_inj] at h ⊢
        obtain ⟨rfl, rfl⟩ := Prod.mk.inj h
        obtain ⟨hq, hputs⟩ := probeLoop_puts s.timeStamp.1 splits.length splits 0
          s.timeStamp.2 p
        refine ⟨_, rfl, ?_, ?_⟩
        · rw [hq]
          rfl
        · refine (Puts.none rfl rfl rfl (timeStamp_sent s)).trans (hputs.trans ?_)
          exact .none rfl rfl rfl rfl
  · rename_i hprobe
    rw [if_neg hprobe]
    obtain ⟨rfl, rfl⟩ := Prod.mk.inj (Option.some.inj h)
    exact ⟨p, rfl, rfl, .none rfl rfl rfl rfl⟩

/-- **A callback on a sender is the callback on the path**: it changes this path only,
but for the timer as the path alone does, and sends what the path puts on the wire. -/
theorem paceCallback_puts {path : Nat} (hinv : BufferInv s) (hp : s.heap path = some p.toPath)
    (h : s.paceCallback path = some s') :
    ∃ p' paceTimer, p.paceCallback s.nowMs (s.queue.isExpired p.paceTimer) = some p' ∧
      Puts s s' p p' ∧ s'.heap = (s.setPath path (some { p'.toPath with paceTimer })).heap := by
  unfold paceCallback at h
  have htimer (deltaTs : BitVec 32) :
      (p.toPath.increaseBudget deltaTs).paceTimer = p.paceTimer := by
    unfold Path.increaseBudget
    split <;> rfl
  rw [hp, Option.bind_eq_bind, Option.bind_some] at h
  simp only [htimer] at h
  simp only [PacedPath.paceCallback]
  generalize BitVec.ofNat 32 s.nowMs - BitVec.ofNat 32 p.lastUpdate = deltaTs at h ⊢
  have hgranted : Puts s s p (p.increaseBudget deltaTs) := by
    refine .none ?_ rfl rfl rfl
    simp only [PacedPath.increaseBudget, Path.increaseBudget]
    split <;> rfl
  split at h
  · rename_i hexpired
    simp only [hexpired, if_true]
    obtain ⟨⟨s₁, q₁⟩, hloop, h⟩ := Option.bind_eq_some_iff.mp h
    obtain ⟨⟨s₂, q₂⟩, hprobe, h⟩ := Option.bind_eq_some_iff.mp h
    obtain rfl := Option.some.inj h
    obtain ⟨rfl, hputs₁⟩ := paceLoop_puts (p := p.increaseBudget deltaTs)
      (l := (p.increaseBudget deltaTs).paceQueue) hinv hloop
    obtain ⟨p₂, hp₂, rfl, hputs₂⟩ := probe_puts hprobe
    obtain ⟨_, hheap₁, _⟩ := paceLoop_eq hinv.ref_zero hloop
    obtain ⟨_, hheap₂, _⟩ := probe_eq hprobe
    refine ⟨{ p₂ with lastUpdate := s.nowMs }, s₂.queue.nextId, ?_, ?_, ?_⟩
    · rw [hp₂]
    · exact (hgranted.trans (hputs₁.trans hputs₂)).trans (.none rfl rfl rfl rfl)
    · simp only [setPath, hheap₂, hheap₁]
  · -- the timer is not due: the budget is all that changes
    rename_i hbusy
    obtain rfl := Option.some.inj h
    refine ⟨p.increaseBudget deltaTs, p.paceTimer, ?_, ?_, ?_⟩
    · simp [hbusy]
    · exact hgranted.trans (.none rfl rfl rfl rfl)
    · rw [← htimer deltaTs]
      rfl

/-! ## Everything else -/

/-- Every path that there was has at most been extended, and a new one is numbered from
zero. -/
structure OnlyQueues (s s' : MpSender) : Prop where
  paths : ∀ path p', s'.heap path = some p' →
    (∃ p, s.heap path = some p ∧ Path.Extends p p') ∨ s.nextPath ≤ path ∧ p'.transSeq = 0
  nextPath_le : s.nextPath ≤ s'.nextPath

namespace OnlyQueues

theorem of_eq (hheap : s'.heap = s.heap) (hnext : s'.nextPath = s.nextPath) :
    OnlyQueues s s' where
  paths := fun _ p' hp' => .inl ⟨p', hheap ▸ hp', .of_eq rfl rfl rfl⟩
  nextPath_le := Nat.le_of_eq hnext.symm

theorem trans (h : OnlyQueues s s') (h' : OnlyQueues s' s'') : OnlyQueues s s'' where
  paths := by
    intro path p'' hp''
    rcases h'.paths path p'' hp'' with ⟨p', hp', hext'⟩ | ⟨hle, hseq⟩
    · rcases h.paths path p' hp' with ⟨p, hp, hext⟩ | ⟨hle, hseq⟩
      · exact .inl ⟨p, hp, hext'.info.trans hext.info, hext'.transSeq.trans hext.transSeq,
          hext.paceQueue.trans hext'.paceQueue⟩
      · exact .inr ⟨hle, hext'.transSeq.trans hseq⟩
    · exact .inr ⟨Nat.le_trans h.nextPath_le hle, hseq⟩
  nextPath_le := Nat.le_trans h.nextPath_le h'.nextPath_le

theorem setPath {path : Nat} {p p' : Path} (hp : s.heap path = some p)
    (hext : Path.Extends p p') : OnlyQueues s (s.setPath path (some p')) where
  paths := by
    intro q p₁ hp₁
    by_cases hq : q = path
    · subst hq
      simp only [MpSender.setPath, if_true, Option.some_inj] at hp₁
      subst hp₁
      exact .inl ⟨p, hp, hext⟩
    · simp only [MpSender.setPath, if_neg hq] at hp₁
      exact .inl ⟨p₁, hp₁, .of_eq rfl rfl rfl⟩
  nextPath_le := Nat.le_refl _

theorem of_signals (h : Signals s s') : OnlyQueues s s' := by
  induction h with
  | same _ hheap _ hnext _ => exact of_eq hheap hnext
  | path hp hinfo hseq hqueue => exact setPath hp (.of_eq hinfo hseq hqueue)
  | trans _ _ ih ih' => exact ih.trans ih'

theorem of_rewires (h : Rewires s s') : OnlyQueues s s' := by
  induction h with
  | signals h => exact of_signals h
  | delete s path =>
      refine ⟨?_, Nat.le_refl _⟩
      intro q p₁ hp₁
      by_cases hq : q = path
      · simp [MpSender.setPath, hq] at hp₁
      · simp only [MpSender.setPath, if_neg hq] at hp₁
        exact .inl ⟨p₁, hp₁, .of_eq rfl rfl rfl⟩
  | add lastUpdate byteRemaining s info =>
      refine ⟨?_, Nat.le_succ _⟩
      intro q p₁ hp₁
      by_cases hq : q = s.nextPath
      · simp only [MpSender.addPathTurn, MpSender.setPath, hq, if_true,
          Option.some_inj] at hp₁
        subst hp₁
        exact .inr ⟨Nat.le_of_eq hq.symm, rfl⟩
      · simp only [MpSender.addPathTurn, MpSender.setPath, if_neg hq] at hp₁
        exact .inl ⟨p₁, hp₁, .of_eq rfl rfl rfl⟩
  | clear s => exact of_eq rfl rfl
  | trans _ _ ih ih' => exact ih.trans ih'

theorem queueOnPaths {val val' : SegmentRef} {paths : List Nat}
    (h : s.queueOnPaths val paths = some (s', val')) : OnlyQueues s s' := by
  induction paths generalizing s val with
  | nil =>
      obtain ⟨rfl, rfl⟩ := Prod.mk.inj (Option.some.inj h)
      exact of_eq rfl rfl
  | cons path rest ih =>
      unfold MpSender.queueOnPaths at h
      split at h
      · exact absurd h.symm (Option.some_ne_none _)
      · rename_i p hp
        split at h
        · exact (setPath hp (.addPacePacket p _ _ _ _)).trans
            (@ih _ { val with ref := val.ref + 1 } h)
        · exact ih h

theorem queueSegments {n : Nat} (h : queueSegments n s = some s') : OnlyQueues s s' := by
  induction n generalizing s with
  | zero =>
      obtain rfl := Option.some.inj h
      exact of_eq rfl rfl
  | succ n ih =>
      unfold MpSender.queueSegments at h
      split at h
      · exact absurd h.symm (Option.some_ne_none _)
      · rename_i s₁ hturn
        unfold queueTurn at hturn
        simp only at hturn
        split at hturn
        · exact absurd hturn.symm (Option.some_ne_none _)
        · split at hturn
          · exact absurd hturn.symm (Option.some_ne_none _)
          · rename_i s₂ _ hqueue
            have hstart : OnlyQueues s { s with currentPacketId := s.currentPacketId + 1 } :=
              of_eq rfl rfl
            refine (hstart.trans (queueOnPaths hqueue)).trans (OnlyQueues.trans ?_ (ih h))
            split at hturn
            · obtain rfl := Option.some.inj hturn
              exact of_eq rfl rfl
            · obtain rfl := Option.some.inj hturn
              exact of_eq rfl rfl

theorem schedule {ftype : BitVec 8} {byte : BitVec 32} (h : s.schedule ftype byte = some s') :
    OnlyQueues s s' := by
  unfold MpSender.schedule at h
  split at h
  · exact absurd h.symm (Option.some_ne_none _)
  · rename_i splits _
    obtain ⟨_, hheap, hnext, _⟩ := timeStamp_eq s
    obtain ⟨hheap', hnext', _, _⟩ :=
      fileSegments_eq ftype s.timeStamp.1 splits.length splits 0 s.timeStamp.2
    exact (of_eq (hheap'.trans hheap) (hnext'.trans hnext)).trans (queueSegments h)

theorem fakePacket {frameBytes : BitVec 32} (h : s.fakePacket frameBytes = some s') :
    OnlyQueues s s' := by
  unfold MpSender.fakePacket at h
  split at h
  · split at h
    · exact absurd h.symm (Option.some_ne_none _)
    · rename_i s₁ hschedule
      obtain rfl := Option.some.inj h
      exact (schedule hschedule).trans (of_eq rfl rfl)
  · obtain rfl := Option.some.inj h
    exact of_eq rfl rfl

end OnlyQueues

/-! ## Runs -/

/-- What is seen of a path: the packets that were queued on it, and what was sent for
it. -/
structure PathLog where
  queued : List PacePacket
  sent : List Datagram

def queueOf (s : MpSender) (path : Nat) : List PacePacket :=
  match s.heap path with
  | none => []
  | some p => p.paceQueue

/-- The path whose `PaceCallback` an input runs. -/
def paced? (s : MpSender) : Input → Option Nat
  | .timer =>
      match s.queue.pop with
      | none => none
      | some (e, _) =>
          match e.action with
          | .paceCallback path => some path
          | _ => none
  | _ => none

/-- What a call adds to the logs: what stands behind the packets of a queue, and what a
callback of the path has sent. -/
def observe (s : MpSender) (e : Input) (s' : MpSender) (log : Nat → PathLog) : Nat → PathLog :=
  fun path =>
    { queued := (log path).queued ++ (s'.queueOf path).drop (s.queueOf path).length
      sent := if s.paced? e = some path then (log path).sent ++ s'.sent.drop s.sent.length
        else (log path).sent }

/-- A step of the sender, and what has been seen of its paths. -/
def observedStep? (isExistPath : Ipv4Address → Ipv4Address → Bool) (frameBytes : BitVec 32)
    (t : MpSender × (Nat → PathLog)) (e : Nat × Input) :
    Option (MpSender × (Nat → PathLog)) :=
  match t.1.queue.advance? e.1 with
  | none => none
  | some queue =>
      let s := { t.1 with queue }
      match call isExistPath frameBytes s e.2 with
      | none => none
      | some s' => some (s', s.observe e.2 s' t.2)

section Runs

variable {isExistPath : Ipv4Address → Ipv4Address → Bool} {frameBytes : BitVec 32}

/-- A call is a callback of one path, or it only queues packets. -/
theorem call_paces {e : Input} (h : call isExistPath frameBytes s e = some s') :
    (∃ path queue, s.paced? e = some path ∧
      ({ s with queue } : MpSender).paceCallback path = some s') ∨
    (s.paced? e = none ∧ OnlyQueues s s') := by
  cases e with
  | addPath destIp destPort lastUpdate byteRemaining =>
      obtain rfl := Option.some.inj h
      exact .inr ⟨rfl, .of_rewires
        (.addPath isExistPath destIp destPort lastUpdate byteRemaining s)⟩
  | start => exact .inr ⟨rfl, .of_signals (.startApplication h)⟩
  | stop =>
      obtain rfl := Option.some.inj h
      exact .inr ⟨rfl, .of_rewires (.stopApplication s)⟩
  | packet info message => exact .inr ⟨rfl, .of_signals (.recvPacket h)⟩
  | schedule ftype byte => exact .inr ⟨rfl, .schedule h⟩
  | timer =>
      simp only [MpSender.call] at h
      split at h
      · exact absurd h.symm (Option.some_ne_none _)
      · rename_i ev queue hpop
        have hpopped : OnlyQueues s { s with queue } := .of_eq rfl rfl
        cases haction : ev.action with
        | connect path =>
            rw [haction] at h
            exact .inr ⟨by simp [paced?, hpop, haction],
              hpopped.trans (.of_signals (.connect h))⟩
        | paceCallback path =>
            rw [haction] at h
            exact .inl ⟨path, queue, by simp [paced?, hpop, haction], h⟩
        | fakePacket =>
            rw [haction] at h
            exact .inr ⟨by simp [paced?, hpop, haction], hpopped.trans (.fakePacket h)⟩

theorem observedStep_iff {t t' : MpSender × (Nat → PathLog)} {e : Nat × Input} :
    observedStep? isExistPath frameBytes t e = some t' ↔
      ∃ queue, t.1.queue.advance? e.1 = some queue ∧
        call isExistPath frameBytes { t.1 with queue } e.2 = some t'.1 ∧
        t'.2 = observe { t.1 with queue } e.2 t'.1 t.2 := by
  unfold observedStep?
  cases t.1.queue.advance? e.1 with
  | none => simp
  | some queue =>
      simp only [Option.some.injEq, exists_eq_left']
      cases call isExistPath frameBytes { t.1 with queue } e.2 with
      | none => simp
      | some s' =>
          simp only [Option.some.injEq]
          constructor
          · rintro rfl
            exact ⟨rfl, rfl⟩
          · rintro ⟨rfl, hlog⟩
            rw [← hlog]

/-- What is seen of a path is what a path in order has done, and the object, while it
exists, is that path. -/
def Shows (log : PathLog) (heap : Option Path) : Prop :=
  ∃ p : PacedPath, p.InOrder ∧ p.queued = log.queued ∧
    List.Forall₂ (Carried p.info) p.wire log.sent ∧ ∀ q, heap = some q → p.toPath = q

/-- The paths of a sender show what has been seen of them, and nothing has been seen of
the paths to come. -/
structure Observed (s : MpSender) (log : Nat → PathLog) : Prop where
  buffer : BufferInv s
  shows : ∀ path, Shows (log path) (s.heap path)
  fresh : ∀ path, s.nextPath ≤ path → log path = ⟨[], []⟩

theorem Shows.extend {log : PathLog} {q q' : Path} (h : Shows log (some q))
    (hext : q.Extends q') :
    Shows { log with queued := log.queued ++ q'.paceQueue.drop q.paceQueue.length } (some q') := by
  obtain ⟨p, horder, hqueued, hsent, hpath⟩ := h
  obtain rfl := hpath q rfl
  obtain ⟨new, hnew⟩ := hext.paceQueue
  have hdrop : q'.paceQueue.drop p.paceQueue.length = new := by
    rw [← hnew, List.drop_left]
  refine ⟨{ p with toPath := q', queued := p.queued ++ new }, ⟨?_, ?_, ?_⟩, ?_, ?_, ?_⟩
  · rw [horder.queued_eq, ← hnew, List.append_assoc]
  · exact horder.transportSeqs_eq
  · exact hext.transSeq.trans horder.transSeq_eq
  · rw [hdrop, hqueued]
  · rw [hext.info]
    exact hsent
  · exact fun _ => Option.some.inj

/-- A path that is new has nothing on the wire. -/
theorem Shows.new {q : Path} (hseq : q.transSeq = 0) : Shows ⟨q.paceQueue, []⟩ (some q) :=
  ⟨{ q.unpaced with queued := q.paceQueue }, ⟨rfl, rfl, hseq⟩, rfl, .nil,
    fun _ => Option.some.inj⟩

theorem Shows.gone {log : PathLog} {heap : Option Path} (h : Shows log heap) :
    Shows log none := by
  obtain ⟨p, horder, hqueued, hsent, _⟩ := h
  exact ⟨p, horder, hqueued, hsent, fun _ hnone => absurd hnone.symm (Option.some_ne_none _)⟩

/-- What the path puts on the wire is seen as sent for it. -/
theorem Shows.puts {log : PathLog} {p p' : PacedPath} (hqueued : p.queued = log.queued)
    (hsent : List.Forall₂ (Carried p.info) p.wire log.sent) (hputs : Puts s s' p p')
    (horder : p'.InOrder) (paceTimer : Option Nat) :
    Shows { log with sent := log.sent ++ s'.sent.drop s.sent.length }
      (some { p'.toPath with paceTimer }) := by
  obtain ⟨wire, sent, hwire, hsent', hcarried⟩ := hputs.sent
  refine ⟨{ p' with paceTimer }, ⟨horder.queued_eq, horder.transportSeqs_eq,
    horder.transSeq_eq⟩, hputs.queued.trans hqueued, ?_, fun _ => Option.some.inj⟩
  rw [show ({ p' with paceTimer } : PacedPath).wire = p.wire ++ wire from hwire,
    show ({ p' with paceTimer } : PacedPath).info = p.info from hputs.info,
    show s'.sent.drop s.sent.length = sent by rw [hsent', List.drop_left]]
  exact List.rel_append hsent hcarried

theorem queueOf_of_fresh (h : BufferInv s) {path : Nat} (hle : s.nextPath ≤ path) :
    s.queueOf path = [] := by
  unfold queueOf
  split
  · rfl
  · rename_i p hp
    exact absurd (h.allocated path p hp) (Nat.not_lt.mpr hle)

/-- A call that only queues packets. -/
theorem Observed.of_onlyQueues {log : Nat → PathLog} (h : Observed s log) {e : Input}
    (honly : OnlyQueues s s') (hbuffer : BufferInv s') (hpaced : s.paced? e = none) :
    Observed s' (s.observe e s' log) where
  buffer := hbuffer
  shows := by
    intro path
    have hshows := h.shows path
    have hseen : s.observe e s' log path = { log path with
        queued := (log path).queued ++ (s'.queueOf path).drop (s.queueOf path).length } := by
      simp [observe, hpaced]
    rw [hseen]
    cases hp' : s'.heap path with
    | none =>
        rw [show s'.queueOf path = [] by simp [queueOf, hp'], List.drop_nil, List.append_nil]
        exact hshows.gone
    | some q' =>
        rw [show s'.queueOf path = q'.paceQueue by simp [queueOf, hp']]
        rcases honly.paths path q' hp' with ⟨q, hq, hext⟩ | ⟨hle, hseq⟩
        · rw [show s.queueOf path = q.paceQueue by simp [queueOf, hq]]
          rw [hq] at hshows
          exact hshows.extend hext
        · rw [h.fresh path hle, queueOf_of_fresh h.buffer hle]
          exact .new hseq
  fresh := by
    intro path hle
    have hempty := queueOf_of_fresh hbuffer hle
    simp [observe, hpaced, hempty, h.fresh path (Nat.le_trans honly.nextPath_le hle)]

/-- A callback of a path shows on this path only, and queues nothing. -/
theorem Observed.of_paceCallback {log : Nat → PathLog} (h : Observed s log) {e : Input}
    {path : Nat} {queue : EventQueue PathEvent} (hpaced : s.paced? e = some path)
    (hcall : ({ s with queue } : MpSender).paceCallback path = some s') :
    Observed s' (s.observe e s' log) := by
  have hbuffer : BufferInv { s with queue } := h.buffer.of_noNewWork (.of_eq rfl rfl rfl)
  have hwork : NoNewWork { s with queue } s' := .paceCallback hbuffer.ref_zero hcall
  obtain ⟨q, hq, _⟩ := Option.bind_eq_some_iff.mp hcall
  have hlt : path < s.nextPath := h.buffer.allocated path q hq
  obtain ⟨p, horder, hqueued, hsent, hpath⟩ := h.shows path
  obtain rfl := hpath q hq
  obtain ⟨p', paceTimer, hp', hputs, hheap⟩ := paceCallback_puts hbuffer hq hcall
  refine ⟨hbuffer.of_noNewWork hwork, ?_, ?_⟩
  · intro path'
    by_cases hne : path' = path
    · subst hne
      have horder' := horder.paceCallback hp'
      have hself : s'.heap path' = some { p'.toPath with paceTimer } := by
        simp [hheap, setPath]
      have hseen : s.observe e s' log path' =
          { log path' with sent := (log path').sent ++ s'.sent.drop s.sent.length } := by
        have hold : s.queueOf path' = p.paceQueue := by
          rw [queueOf, show s.heap path' = some p.toPath from hq]
        have hnew : s'.queueOf path' = p'.paceQueue := by rw [queueOf, hself]
        simp [observe, hpaced, hold, hnew, hputs.paceQueue_le horder horder']
      rw [hseen, hself]
      exact .puts hqueued hsent hputs horder' paceTimer
    · have hsame : s'.heap path' = s.heap path' := by simp [hheap, setPath, hne]
      have hother : ¬ path = path' := fun heq => hne heq.symm
      have hseen : s.observe e s' log path' = log path' := by
        simp [observe, queueOf, hsame, hpaced, hother]
      rw [hseen, hsame]
      exact h.shows path'
  · intro path' hle
    have hnext : s.nextPath ≤ s'.nextPath := hwork.nextPath_le
    have hother : ¬ path = path' := by omega
    have hempty := queueOf_of_fresh (hbuffer.of_noNewWork hwork) hle
    simp [observe, hpaced, hother, hempty, h.fresh path' (Nat.le_trans hnext hle)]

theorem Observed.new (cid uid frameId : BitVec 32)
    (sockets : ComparatorMap Ipv4Address Port compSocket) (info : PathAddressInfo) :
    Observed (new cid uid frameId sockets) fun _ => ⟨[], []⟩ where
  buffer := .new cid uid frameId sockets
  shows := fun _ => ⟨(Path.new info 0 0 0).unpaced, ⟨rfl, rfl, rfl⟩, rfl, .nil,
    fun _ hnone => absurd hnone.symm (Option.some_ne_none _)⟩
  fresh := fun _ _ => rfl

theorem Observed.step {t t' : MpSender × (Nat → PathLog)} {e : Nat × Input}
    (h : Observed t.1 t.2) (hstep : observedStep? isExistPath frameBytes t e = some t') :
    Observed t'.1 t'.2 := by
  obtain ⟨queue, _, hcall, hlog⟩ := observedStep_iff.mp hstep
  have hs : Observed { t.1 with queue } t.2 :=
    ⟨h.buffer.of_noNewWork (.of_eq rfl rfl rfl), h.shows, h.fresh⟩
  rw [hlog]
  rcases call_paces hcall with ⟨path, popped, hpaced, hpace⟩ | ⟨hpaced, honly⟩
  · exact hs.of_paceCallback hpaced hpace
  · exact hs.of_onlyQueues honly (hs.buffer.call hcall) hpaced

/-- **The order on the wire** of every path, in any run of the sender: what was sent for
the path carries the packets that were queued on it in the order in which they were
queued, each once, up to those that still are, and packets and probes together are
numbered one after the other. -/
theorem wire_inOrder_of_run {cid uid frameId : BitVec 32}
    {sockets : ComparatorMap Ipv4Address Port compSocket} {es : List (Nat × Input)}
    {log : Nat → PathLog}
    (hrun : Run (fun t e t' => observedStep? isExistPath frameBytes t e = some t')
      (new cid uid frameId sockets, fun _ => ⟨[], []⟩) es (s, log)) (path : Nat) :
    ∃ info wire rest, List.Forall₂ (Carried info) wire (log path).sent ∧
      (log path).queued = wire.filterMap Wire.media? ++ rest ∧
      wire.map Wire.transportSeq = (List.range wire.length).map (BitVec.ofNat 16) ∧
      ∀ p, s.heap path = some p → p.info = info ∧ p.paceQueue = rest := by
  have hinv : Observed s log :=
    hrun.stateInvariant (I := fun t => Observed t.1 t.2)
      (.new cid uid frameId sockets ⟨0, 0, 0, 0⟩) fun _ _ _ h hstep => h.step hstep
  obtain ⟨p, horder, hqueued, hsent, hpath⟩ := hinv.shows path
  refine ⟨p.info, p.wire, p.paceQueue, hsent, hqueued ▸ horder.queued_eq,
    horder.transportSeqs_eq, ?_⟩
  intro q hq
  obtain rfl := hpath q hq
  exact ⟨rfl, rfl⟩

end Runs

/-- One frame is paced out, and one more is queued. -/
def twoPaced : List (Nat × Input) := oneFrame ++ [(0, .timer), (0, .timer)]

/-- Two packets have been queued on the first path, and one has been sent. -/
theorem wire_inOrder_twoPaced : ∃ s log,
    Run (fun t e t' => observedStep? (fun _ _ => true) 400 t e = some t')
      (new 1234 0 0 ⟨[(0x0a010101, 49153)]⟩, fun _ => ⟨[], []⟩) twoPaced (s, log) ∧
    ((log 0).queued.map (·.seq), (log 0).sent.length) = ([0, 1], 1) ∧
    ∃ info wire rest, List.Forall₂ (Carried info) wire (log 0).sent ∧
      (log 0).queued = wire.filterMap Wire.media? ++ rest ∧
      wire.map Wire.transportSeq = (List.range wire.length).map (BitVec.ofNat 16) ∧
      ∀ p, s.heap 0 = some p → p.info = info ∧ p.paceQueue = rest := by
  have hlast : (twoPaced.foldlM (observedStep? (fun _ _ => true) 400)
      (new 1234 0 0 ⟨[(0x0a010101, 49153)]⟩, fun _ => ⟨[], []⟩)).map (fun t =>
        ((t.2 0).queued.map (·.seq), (t.2 0).sent.length)) = some ([0, 1], 1) := by
    decide
  obtain ⟨⟨s, log⟩, hs, hlast⟩ := Option.map_eq_some_iff.mp hlast
  have hrun := Run.of_foldlM hs
  exact ⟨s, log, hrun, hlast, wire_inOrder_of_run hrun 0⟩

end MpSender

end Multipath
