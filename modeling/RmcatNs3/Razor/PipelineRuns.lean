import RmcatNs3.Razor.PacerRuns
import RmcatNs3.Razor.SimPipeline

/-!
# The cache of the sender and the queue of the pacer

`m_cache` and the pacer know the same segments, whatever order frames are put in and
packets are paced out. The pacer keeps a sent packet until all that came before it are
sent, so this rests on packet ids that are not used again as long as one of their
turn waits.
-/

namespace Razor

open Runs PacerQueue

namespace SimPipeline

theorem asMade_eq {segment : Segment} (hts : segment.sendTs = 0)
    (hseq : segment.transportSeq = 0) : asMade segment = segment := by
  cases segment
  obtain rfl := hts
  obtain rfl := hseq
  rfl

/-! ## What the cache owes -/

/-- The sender owes these packets, and has handed over the other segments. -/
structure Owes (snd : SimSender) (sent : List (Segment × Nat)) (made : List Segment)
    (keys : List Nat) : Prop where
  keys : (snd.cache.toList.map (·.1)).Perm keys
  asMade : ∀ b ∈ snd.cache, asMade b.2 = b.2
  once : made.Perm (sent.map (fun b => SimPipeline.asMade b.1) ++ snd.cache.toList.map (·.2))
  payload : ∀ b ∈ sent, b.2 = b.1.dataSize.toNat
  transportSeq : sent.map (·.1.transportSeq) =
    (List.range sent.length).map fun n => BitVec.ofNat 16 (n + 1)
  next : snd.transportSeq = BitVec.ofNat 16 sent.length

variable {snd : SimSender} {sent : List (Segment × Nat)} {made : List Segment}
  {rest : List Nat} (nowMs : Nat)

/-- The counters of a sender that `PacePacketSend` does not touch. -/
def counters (snd : SimSender) : BitVec 32 × BitVec 32 × BitVec 32 :=
  (snd.frameId, snd.packetId, snd.segmentSize)

/-- **One call** of `send_cb` hands over the segment that is asked for. -/
theorem Owes.answer {call : SendCall} (h : Owes snd sent made (call.packetId.val :: rest)) :
    let t := SimPipeline.answer nowMs (snd, sent) call
    Owes t.1 t.2 made rest ∧ counters t.1 = counters snd := by
  have hmem : call.packetId.val ∈ snd.cache.toList.map (·.1) := by
    rw [h.keys.mem_iff]
    exact List.mem_cons_self ..
  obtain ⟨b, hb, hkey⟩ := List.mem_map.mp hmem
  have hid : (BitVec.ofFin call.packetId).toNat = b.1 := hkey.symm
  have hlookup : snd.cache.lookup b.1 = some b.2 := SortedMap.lookup_eq_some_iff.mpr hb
  have hperm := SortedMap.erase_perm hb
  unfold SimPipeline.answer SimSender.pacePacketSend
  simp only [hid, hlookup, Option.toList_some]
  refine ⟨⟨?_, ?_, ?_, ?_, ?_, ?_⟩, rfl⟩
  · have hkeys := h.keys
    rw [← hkey] at hkeys
    exact ((hperm.map (·.1)).symm.trans hkeys).cons_inv
  · exact fun c hc => h.asMade c (SortedMap.mem_erase.mp hc).1
  · refine h.once.trans ?_
    rw [List.map_append, List.append_assoc]
    refine List.Perm.append_left _ ?_
    have hmade : SimPipeline.asMade b.2 = b.2 := h.asMade b hb
    have hvalues := hperm.map (·.2)
    rw [List.map_cons, ← hmade] at hvalues
    exact hvalues
  · intro c hc
    rcases List.mem_append.mp hc with hc | hc
    · exact h.payload c hc
    · obtain rfl := List.mem_singleton.mp hc
      rfl
  · rw [List.map_append, h.transportSeq, List.length_append, List.length_singleton,
      List.range_succ, List.map_append]
    simp only [List.map_cons, List.map_nil, h.next, BitVec.ofNat_add]
    rfl
  · simp only [List.length_append, List.length_singleton, h.next, BitVec.ofNat_add]
    rfl

/-- The calls of a `pace_try_transmit` hand over the segments that are asked for. -/
theorem Owes.answers {calls : List SendCall} (h : Owes snd sent made
      (calls.map (·.packetId.val) ++ rest)) :
    let t := calls.foldl (SimPipeline.answer nowMs) (snd, sent)
    Owes t.1 t.2 made rest ∧ counters t.1 = counters snd := by
  induction calls generalizing snd sent with
  | nil => exact ⟨h, rfl⟩
  | cons call calls ih =>
      obtain ⟨hnext, hcounters⟩ := h.answer nowMs
      obtain ⟨hlast, hcounters'⟩ := ih hnext
      exact ⟨hlast, hcounters'.trans hcounters⟩

/-! ## Putting a frame in -/

variable {nowMs}

theorem fileSegments_spec (ftype : BitVec 8) (timestamp : BitVec 32) (total : Nat)
    (splits : List (BitVec 16)) (i : Nat) (snd : SimSender) :
    let fields : FrameFields :=
      { fid := snd.frameId, timestamp, total, ftype, remb := snd.remb }
    SimSender.fileSegments ftype timestamp total i snd splits =
      { snd with
        cache := snd.cache.insertAll
          ((fields.segments snd.packetId i splits).map fun seg => (seg.packetId.toNat, seg))
        packetId := snd.packetId + BitVec.ofNat 32 splits.length } := by
  induction splits generalizing i snd with
  | nil => simp [SimSender.fileSegments, FrameFields.segments, SortedMap.insertAll]
  | cons dataSize rest ih =>
      have hcount : snd.packetId + 1 + BitVec.ofNat 32 rest.length =
          snd.packetId + BitVec.ofNat 32 (rest.length + 1) := by
        rw [BitVec.add_assoc, Nat.add_comm rest.length 1, BitVec.ofNat_add]
        rfl
      simp only at ih
      simp only [SimSender.fileSegments, ih, List.length_cons]
      rw [hcount]
      rfl

/-- **`PutFakeData`** files the segments that it makes, and counts on. -/
theorem putFakeData_spec {snd' : SimSender} {ftype : BitVec 8} {size : BitVec 32}
    (h : snd.putFakeData ftype size nowMs = some snd') :
    let segs := snd.madeSegments ftype size nowMs
    size.toNat / snd.segmentSize.toNat < maxSplitPackets ∧
    snd' = { snd with
      firstTs := snd'.firstTs
      cache := snd.cache.insertAll (segs.map fun seg => (seg.packetId.toNat, seg))
      packetId := snd.packetId + BitVec.ofNat 32 segs.length
      frameId := snd.frameId + 1 } := by
  unfold SimSender.putFakeData at h
  split at h
  · rename_i hsize
    simp only at h
    rw [fileSegments_spec] at h
    obtain rfl := Option.some.inj h
    refine ⟨hsize, ?_⟩
    simp only [SimSender.madeSegments, FrameFields.length_segments]
  · exact absurd h nofun

/-- New segments are owed as well. -/
theorem Owes.put {segs : List Segment} {keys : List Nat} (h : Owes snd sent made keys)
    (snd' : SimSender)
    (hcache : snd'.cache =
      snd.cache.insertAll (segs.map fun seg => (seg.packetId.toNat, seg)))
    (hnext : snd'.transportSeq = snd.transportSeq)
    (hnodup : (segs.map (·.packetId.toNat)).Nodup)
    (hfresh : ∀ seg ∈ segs, seg.packetId.toNat ∉ keys)
    (hmade : ∀ seg ∈ segs, SimPipeline.asMade seg = seg) :
    Owes snd' sent (made ++ segs) (keys ++ segs.map (·.packetId.toNat)) := by
  have hperm : snd'.cache.toList.Perm
      (segs.map (fun seg => (seg.packetId.toNat, seg)) ++ snd.cache.toList) := by
    rw [hcache]
    apply SortedMap.insertAll_perm
    · rw [List.map_map]
      exact hnodup
    · intro b hb
      obtain ⟨seg, hseg, rfl⟩ := List.mem_map.mp hb
      refine SortedMap.find?_eq_none_iff.mpr ?_
      intro c hc heq
      apply hfresh seg hseg
      rw [← h.keys.mem_iff]
      exact List.mem_map.mpr ⟨c, hc, heq⟩
  constructor
  · have hkeys := hperm.map (·.1)
    rw [List.map_append, List.map_map] at hkeys
    exact (hkeys.trans (h.keys.append_left _)).trans List.perm_append_comm
  · intro b hb
    rcases List.mem_append.mp (hperm.mem_iff.mp hb) with hb | hb
    · obtain ⟨seg, hseg, rfl⟩ := List.mem_map.mp hb
      exact hmade seg hseg
    · exact h.asMade b hb
  · have hvalues := hperm.map (·.2)
    have hid : segs.map ((fun b : Nat × Segment => b.2) ∘
        fun seg => (seg.packetId.toNat, seg)) = segs := List.map_id' segs
    rw [List.map_append, List.map_map, hid] at hvalues
    refine (h.once.append_right segs).trans ?_
    rw [List.append_assoc]
    exact (List.perm_append_comm.trans hvalues.symm).append_left _
  · exact h.payload
  · exact h.transportSeq
  · exact hnext.trans h.next

/-! ## Adding the packets -/

/-- **The pacer** takes packets with new ids, one after the other. -/
theorem addPackets_spec {pace pace' : PaceSender} {L : List Queued} {now : Int} {nowTs : Nat}
    {segs : List Segment} (h : PacerQueue.Inv pace.que L now) (hnow : now ≤ nowTs)
    (hnodup : (L.map (·.event.seq) ++ segs.map (·.packetId.toFin)).Nodup)
    (hadd : pace.AddPackets nowTs segs pace') :
    ∃ M, PacerQueue.Inv pace'.que (L ++ M) nowTs ∧ unsent M = M ∧
      M.map (·.event.seq) = segs.map (·.packetId.toFin) ∧
      M.map (·.event.size) = segs.map (·.dataSize.toNat + headerLen.toNat) ∧
      (∀ p ∈ M, p.event.queTs = nowTs) ∧ pace' = { pace with que := pace'.que } := by
  induction segs generalizing pace L now with
  | nil =>
      obtain rfl := hadd
      exact ⟨[], by simpa using h.later hnow, rfl, rfl, rfl, nofun, rfl⟩
  | cons seg rest ih =>
      obtain ⟨a, ha, hadd⟩ := hadd
      let ev : PacketEvent :=
        { seq := seg.packetId.toFin, retrans := 0
          size := seg.dataSize.toNat + headerLen.toNat, queTs := nowTs, sent := false }
      have hne : ∀ p ∈ L, p.event.seq ≠ ev.seq := by
        intro p hp heq
        refine (List.nodup_append.mp hnodup).2.2 _ (List.mem_map_of_mem hp) _ ?_ heq
        exact List.mem_cons_self ..
      have hsize : ev.size < 2 ^ 32 := by
        have hdata := seg.dataSize.isLt
        have hheader := headerLen.isLt
        show seg.dataSize.toNat + headerLen.toNat < 2 ^ 32
        omega
      have hpushed := (h.push_new ha hne rfl (by show (0 : Int) ≤ nowTs; omega) hnow hsize).2
      obtain ⟨M, hinv, hunsent, hseqs, hsizes, htimes, hpace⟩ := ih hpushed (le_refl _) (by
        rw [List.map_append, List.append_assoc]
        exact hnodup) hadd
      refine ⟨⟨a, ev⟩ :: M, ?_, ?_, ?_, ?_, ?_, hpace⟩
      · rw [List.append_assoc] at hinv
        exact hinv
      · rw [unsent_cons_of_unsent rfl, hunsent]
      · rw [List.map_cons, List.map_cons, hseqs]
      · rw [List.map_cons, List.map_cons, hsizes]
      · intro p hp
        rcases List.mem_cons.mp hp with rfl | hp
        · rfl
        · exact htimes p hp

/-! ## Runs -/

/-- The pacer holds the packets from the oldest unsent one on, in the order of their
ids, and the sender owes those that are unsent. -/
structure Inv (c : SimPipeline) (L : List Queued) : Prop where
  que : PacerQueue.Inv c.pace.que L c.now
  sendCb : c.pace.sendCb = true
  seqs : ∃ start, L.map (·.event.seq) = (packetIds start L.length).map (·.toFin) ∧
    start + BitVec.ofNat 32 L.length = c.snd.packetId
  owes : Owes c.snd c.sent c.made ((unsent L).map (·.event.seq.val))
  segmentSize : 0 < c.snd.segmentSize.toNat ∧ c.snd.segmentSize.toNat < 2 ^ 16
  isFrame : ∀ frame ∈ c.frames, ∃ packetId, IsFrame packetId frame.1 frame.2
  fid : ∀ (i : Nat) f, c.frames[i]? = some f → ∀ seg ∈ f.2, seg.fid = BitVec.ofNat 32 (i + 1)
  frameId : c.snd.frameId = BitVec.ofNat 32 (c.frames.length + 1)

variable {c c' : SimPipeline} {L : List Queued}

theorem create_inv {segmentSize : BitVec 32} (hpos : 0 < segmentSize.toNat)
    (hfits : segmentSize.toNat < 2 ^ 16) (queMs sysMs : Nat) :
    Inv (create segmentSize queMs sysMs) [] where
  que := init_inv queMs sysMs
  sendCb := rfl
  seqs := ⟨1, rfl, rfl⟩
  owes := ⟨.refl _, nofun, .refl _, nofun, rfl, rfl⟩
  segmentSize := ⟨hpos, hfits⟩
  isFrame := nofun
  fid := nofun
  frameId := rfl

theorem toFin_injective : Function.Injective (BitVec.toFin : BitVec 32 → PacketSeq) :=
  fun _ _ h => BitVec.eq_of_toFin_eq h

/-- The ids of the packets in the pacer, and those of as many new segments as fit. -/
theorem Inv.nodup_seqs (h : Inv c L) {n : Nat} (hfits : L.length + n ≤ 2 ^ 32) :
    (L.map (·.event.seq) ++ (packetIds c.snd.packetId n).map (·.toFin)).Nodup := by
  obtain ⟨start, hseqs, hnext⟩ := h.seqs
  rw [hseqs, ← hnext, ← List.map_append, packetIds_append]
  exact (nodup_packetIds start hfits).map toFin_injective

/-- The segments of a frame are numbered on from the last id. -/
theorem Inv.seqs_append (h : Inv c L) {M : List Queued}
    (hseqs : M.map (·.event.seq) = (packetIds c.snd.packetId M.length).map (·.toFin)) :
    ∃ start, (L ++ M).map (·.event.seq) = (packetIds start (L ++ M).length).map (·.toFin) ∧
      start + BitVec.ofNat 32 (L ++ M).length =
        c.snd.packetId + BitVec.ofNat 32 M.length := by
  obtain ⟨start, hstart, hnext⟩ := h.seqs
  refine ⟨start, ?_, ?_⟩
  · rw [List.map_append, hstart, hseqs, ← hnext, ← List.map_append, packetIds_append,
      List.length_append]
  · rw [List.length_append, BitVec.ofNat_add, ← BitVec.add_assoc, hnext]

/-- Segments with new ids are owed with those that wait. -/
theorem Inv.owes_append (h : Inv c L) {M : List Queued} {segs : List Segment} (snd' : SimSender)
    (hnodup : (L.map (·.event.seq) ++ segs.map (·.packetId.toFin)).Nodup)
    (hcache : snd'.cache =
      c.snd.cache.insertAll (segs.map fun seg => (seg.packetId.toNat, seg)))
    (hnext : snd'.transportSeq = c.snd.transportSeq) (hunsent : unsent M = M)
    (hvals : M.map (·.event.seq.val) = segs.map (·.packetId.toNat))
    (hmade : ∀ seg ∈ segs, SimPipeline.asMade seg = seg) :
    Owes snd' c.sent (c.made ++ segs) ((unsent (L ++ M)).map (·.event.seq.val)) := by
  obtain ⟨_, hright, hdisjoint⟩ := List.nodup_append.mp hnodup
  rw [unsent_append, hunsent, List.map_append, hvals]
  refine h.owes.put snd' hcache hnext ?_ ?_ hmade
  · have hids := hright.map Fin.val_injective
    rw [List.map_map] at hids
    exact hids
  · intro seg hseg hin
    obtain ⟨p, hp, heq⟩ := List.mem_map.mp hin
    refine hdisjoint p.event.seq ?_ seg.packetId.toFin ?_ ?_
    · exact List.mem_map_of_mem (mem_unsent.mp hp).1
    · exact List.mem_map_of_mem hseg
    · exact Fin.ext heq

/-- The frames are numbered from one in their order. -/
theorem Inv.fid_append (h : Inv c L) {size : Nat} {segs : List Segment}
    (hfid : ∀ seg ∈ segs, seg.fid = c.snd.frameId) (i : Nat) (f : Nat × List Segment)
    (hf : (c.frames ++ [(size, segs)])[i]? = some f) :
    ∀ seg ∈ f.2, seg.fid = BitVec.ofNat 32 (i + 1) := by
  rcases Nat.lt_trichotomy i c.frames.length with hlt | rfl | hgt
  · rw [List.getElem?_append_left hlt] at hf
    exact h.fid i f hf
  · rw [List.getElem?_concat_length] at hf
    obtain rfl := Option.some.inj hf
    exact fun seg hseg => (hfid seg hseg).trans h.frameId
  · rw [List.getElem?_eq_none (by simp; omega)] at hf
    exact absurd hf.symm (Option.some_ne_none _)

/-- **A frame** joins at the end. -/
theorem Inv.putFakeData (h : Inv c L) {ftype : BitVec 8} {size : BitVec 32} {nowMs : Nat}
    (hstep : Step c (.putFakeData ftype size nowMs) c')
    (hfits : Fits c (.putFakeData ftype size nowMs)) :
    let segs := c.snd.madeSegments ftype size nowMs
    ∃ M, Inv c' (L ++ M) ∧ unsent M = M ∧
      M.map (·.event.seq) = (packetIds c.snd.packetId segs.length).map (·.toFin) ∧
      M.map (·.event.size) = segs.map (·.dataSize.toNat + headerLen.toNat) ∧
      (∀ p ∈ M, p.event.queTs = nowMs) ∧
      c'.snd.packetId = c.snd.packetId + BitVec.ofNat 32 segs.length ∧
      c'.pace = { c.pace with que := c'.pace.que } := by
  intro segs₀
  obtain ⟨hnow, snd, pace, hput, hadd, rfl⟩ := hstep
  obtain ⟨segs, hsegs⟩ : ∃ segs, segs = c.snd.madeSegments ftype size nowMs := ⟨_, rfl⟩
  rw [show segs₀ = segs from hsegs.symm]
  obtain ⟨hsize, hsnd⟩ := putFakeData_spec hput
  simp only [Fits, h.que.holds.l, List.length_map] at hfits
  have hframe : IsFrame c.snd.packetId size.toNat (c.snd.madeSegments ftype size nowMs) :=
    SimSender.isFrame_segments _ _ h.segmentSize.1 h.segmentSize.2 hsize rfl
  have hmem : ∀ seg ∈ c.snd.madeSegments ftype size nowMs,
      seg.fid = c.snd.frameId ∧ asMade seg = seg := by
    intro seg hseg
    obtain ⟨hfid, _, hts, hseq⟩ := FrameFields.of_mem_segments _ _ _ _ hseg
    exact ⟨hfid, asMade_eq hts hseq⟩
  rw [← hsegs] at hsnd hfits hadd hframe hmem ⊢
  have hids : segs.map (·.packetId.toFin) = (packetIds c.snd.packetId segs.length).map
      (·.toFin) := by
    rw [← hframe.packetId, List.map_map]
    rfl
  have hnodup := h.nodup_seqs hfits
  rw [← hids] at hnodup
  obtain ⟨M, hque, hunsent, hseqs, hsizes, htimes, hpace⟩ :=
    addPackets_spec h.que (by omega) hnodup hadd
  have hlen : M.length = segs.length := by
    have := congrArg List.length hseqs
    simpa using this
  have hvals : M.map (·.event.seq.val) = segs.map (·.packetId.toNat) := by
    have := congrArg (List.map Fin.val) hseqs
    simpa [Function.comp_def] using this
  refine ⟨M, ?_, hunsent, hseqs.trans hids, hsizes, htimes, by rw [hsnd], hpace⟩
  constructor
  · exact hque
  · show pace.sendCb = true
    rw [hpace]
    exact h.sendCb
  · show ∃ start, _ ∧ _ = snd.packetId
    rw [hsnd, ← hlen]
    exact h.seqs_append (hlen ▸ hseqs.trans hids)
  · have howes := h.owes_append snd hnodup (by rw [hsnd]) (by rw [hsnd]) hunsent hvals
      fun seg hseg => (hmem seg hseg).2
    have hmade : (SimPipeline.mk snd pace nowMs (c.frames ++ [(size.toNat, segs)])
        c.sent).made = c.made ++ segs := by
      simp [made]
    rw [hmade]
    exact howes
  · show 0 < snd.segmentSize.toNat ∧ snd.segmentSize.toNat < 2 ^ 16
    rw [hsnd]
    exact h.segmentSize
  · intro frame hframe'
    rcases List.mem_append.mp hframe' with hframe' | hframe'
    · exact h.isFrame frame hframe'
    · obtain rfl := List.mem_singleton.mp hframe'
      exact ⟨_, hframe⟩
  · exact h.fid_append fun seg hseg => (hmem seg hseg).1
  · show snd.frameId = _
    rw [hsnd, List.length_append, List.length_singleton, BitVec.ofNat_add]
    simp only [h.frameId]
    rfl

/-- **A transmission** hands over what has moved to the log. Only the packets that the
pacer still holds matter for the ids. -/
theorem Inv.transmitted (h : Inv c L) {pace' : PaceSender} {L' : List Queued} {nowMs : Nat}
    (hque : PacerQueue.Inv pace'.que L' nowMs) (hmoves : PaceSender.Moves c.pace L pace' L')
    (hcb : pace'.sendCb = true) :
    let t := (pace'.sendLog.drop c.pace.sendLog.length).foldl (answer nowMs) (c.snd, c.sent)
    Inv { c with snd := t.1, pace := pace', now := nowMs, sent := t.2 } L' ∧
      counters t.1 = counters c.snd := by
  obtain ⟨news, hnews⟩ := hmoves.log
  have hdrop : pace'.sendLog.drop c.pace.sendLog.length = news := by
    rw [← hnews, List.drop_left]
  have hcalls : (PaceSender.calls (unsent L)).Perm
      (news ++ PaceSender.calls (unsent L')) := by
    have hperm := hmoves.calls
    unfold PaceSender.allCalls at hperm
    rw [← hnews, List.append_assoc] at hperm
    exact (List.perm_append_left_iff _).mp hperm
  have hkeys : ((unsent L).map (·.event.seq.val)).Perm
      (news.map (·.packetId.val) ++ (unsent L').map (·.event.seq.val)) := by
    have hperm := hcalls.map (·.packetId.val)
    rw [List.map_append] at hperm
    simpa [PaceSender.calls, Function.comp_def, PacketEvent.call] using hperm
  have howes : Owes c.snd c.sent c.made
      (news.map (·.packetId.val) ++ (unsent L').map (·.event.seq.val)) :=
    { h.owes with keys := h.owes.keys.trans hkeys }
  obtain ⟨howes', hcounters⟩ := howes.answers nowMs
  intro t
  have ht : t = news.foldl (answer nowMs) (c.snd, c.sent) := by rw [← hdrop]
  rw [← ht] at howes' hcounters
  obtain ⟨hframeId, hrest⟩ := Prod.mk.inj hcounters
  obtain ⟨hpacketId, hsegmentSize⟩ := Prod.mk.inj hrest
  refine ⟨⟨hque, hcb, ?_, howes', ?_, h.isFrame, h.fid, hframeId.trans h.frameId⟩, hcounters⟩
  · obtain ⟨start, hstart, hnext⟩ := h.seqs
    have hsuffix := hmoves.seqs
    rw [hstart] at hsuffix
    obtain ⟨l, hl, hmap⟩ := List.suffix_map_iff.mp hsuffix
    obtain ⟨start', hids, hsum⟩ := eq_packetIds_of_suffix hl
    have hlen : l.length = L'.length := by
      have := congrArg List.length hmap
      simpa using this.symm
    rw [hlen] at hids hsum
    exact ⟨start', by rw [hmap, hids], (hsum.trans hnext).trans hpacketId.symm⟩
  · exact hsegmentSize.symm ▸ h.segmentSize

theorem Inv.heartbeat (h : Inv c L) {nowMs : Nat} (hstep : Step c (.heartbeat nowMs) c') :
    ∃ L', Inv c' L' := by
  obtain ⟨hnow, bound, pace, hret, rfl⟩ := hstep
  -- as many turns as both sides ask for
  let fuel := max bound ((unsent L).length + 1)
  have hfuel : (unsent L).length < fuel := Nat.le_max_right ..
  have hpace := hret fuel (Nat.le_max_left ..)
  have hque : PacerQueue.Inv c.pace.que L (nowMs : Int) := h.que.later (by omega)
  rcases PaceSender.tryTransmit_eq nowMs nowMs hque h.sendCb with
    ⟨_, hnone⟩ | ⟨pace', L', hsome, hinv, hmoves, hcb⟩
  · exact absurd ((hnone fuel hfuel).symm.trans hpace) nofun
  · obtain rfl := Option.some.inj ((hsome fuel hfuel).symm.trans hpace)
    exact ⟨L', (h.transmitted hinv hmoves hcb).1⟩

/-- **One call** keeps the invariant. -/
theorem Inv.step (h : Inv c L) {op : Op} (hstep : Step c op c') (hfits : Fits c op) :
    ∃ L', Inv c' L' := by
  cases op with
  | putFakeData ftype size nowMs =>
      obtain ⟨M, hinv, _⟩ := h.putFakeData hstep hfits
      exact ⟨L ++ M, hinv⟩
  | heartbeat nowMs => exact h.heartbeat hstep
  | setEstimateBitrate bitrateBps =>
      obtain rfl := hstep
      exact ⟨L, { h with }⟩
  | setBitrateLimits minSentBitrate =>
      obtain rfl := hstep
      exact ⟨L, { h with }⟩

/-- The packets that wait in the pacer are the unsent ones of the list. -/
theorem unsentSeqs_eq (h : PacerQueue.Holds c.pace.que L) :
    c.unsentSeqs = (unsent L).map (·.event.seq) := by
  unfold unsentSeqs
  rw [h.l, List.filterMap_map]
  have hpackets : ∀ p ∈ L, c.pace.que.packets p.addr = some p.event := fun p hp => h.packet hp
  clear h
  induction L with
  | nil => rfl
  | cons p rest ih =>
      have ih := ih fun q hq => hpackets q (List.mem_cons_of_mem _ hq)
      have hp := hpackets p (List.mem_cons_self ..)
      cases hsent : p.event.sent with
      | true =>
          rw [unsent_cons_of_sent hsent, List.filterMap_cons_none, ih]
          simp [hp, hsent]
      | false =>
          rw [unsent_cons_of_unsent hsent, List.filterMap_cons_some, ih, List.map_cons]
          simp [hp, hsent]

theorem Inv.coupled (h : Inv c L) : Coupled c where
  keys := by
    rw [unsentSeqs_eq h.que.holds, List.map_map]
    exact h.owes.keys
  once := h.owes.once
  payload := h.owes.payload
  transportSeq := h.owes.transportSeq
  isFrame := h.isFrame
  distinct := by
    intro i f g hf hg seg hseg seg' hseg' heq
    rw [h.fid i f hf seg hseg, h.fid (i + 1) g hg seg' hseg'] at heq
    have hval := congrArg BitVec.toNat heq
    simp only [BitVec.toNat_ofNat] at hval
    omega

/-- **The sender and its pacer** agree after every call, as long as packet ids are not
used again from the oldest unsent one on: each segment is handed over once, as it was
made, and is numbered in the order in which it is handed over. -/
theorem coupled_of_run {segmentSize : BitVec 32} {queMs sysMs : Nat} {ops : List Op}
    (hpos : 0 < segmentSize.toNat) (hfits : segmentSize.toNat < 2 ^ 16)
    (hrun : Run (fun c op c' => Step c op c' ∧ Fits c op) (create segmentSize queMs sysMs) ops c) :
    Coupled c := by
  have hinv : ∃ L, Inv c L :=
    hrun.stateInvariant (I := fun c => ∃ L, Inv c L) ⟨[], create_inv hpos hfits queMs sysMs⟩
      fun _ _ _ ⟨_, h⟩ hstep => h.step hstep.1 hstep.2
  obtain ⟨L, h⟩ := hinv
  exact h.coupled

/-- A transmission returns if the detector of the pacer is configured. -/
theorem Inv.transmits (h : Inv c L) {nowMs : Nat} (hnow : c.now ≤ nowMs)
    (hmax : c.pace.alr.budget.maxBytesInBudget ≠ 0) : ∃ c', Step c (.heartbeat nowMs) c' := by
  have hque : PacerQueue.Inv c.pace.que L (nowMs : Int) := h.que.later (by omega)
  rcases PaceSender.tryTransmit_eq nowMs nowMs hque h.sendCb with
    ⟨h0, _⟩ | ⟨pace, _, hsome, _⟩
  · exact absurd h0 hmax
  · exact ⟨_, hnow, (unsent L).length + 1, pace, hsome, rfl⟩

/-- A frame of two segments, and a transmission. -/
theorem coupled_of_run_frame : ∃ ops c,
    Run (fun c op c' => Step c op c' ∧ Fits c op) (create 1000 3000 0) ops c ∧
    c.frames.map (·.1) = [1500] ∧ c.now = 10 ∧ Coupled c := by
  let c₁ : SimPipeline := { create 1000 3000 0 with
    pace := (create 1000 3000 0).pace.setEstimateBitrate 1000000 }
  have hstep₁ : Step (create 1000 3000 0) (.setEstimateBitrate 1000000) c₁ := rfl
  have hfits : Fits c₁ (.putFakeData 0 1500 0) := by
    show 0 + (c₁.snd.madeSegments 0 1500 0).length ≤ 2 ^ 32
    decide
  obtain ⟨snd, hput⟩ : ∃ snd, c₁.snd.putFakeData 0 1500 0 = some snd := by
    unfold SimSender.putFakeData
    rw [if_pos (by decide)]
    exact ⟨_, rfl⟩
  obtain ⟨pace, hadd, halr⟩ : ∃ pace, c₁.pace.AddPackets (0 : Nat)
      (c₁.snd.madeSegments 0 1500 0) pace ∧ pace.alr = c₁.pace.alr := by
    have hsplits : SimSender.frameSplit c₁.snd.segmentSize.toNat (1500 : BitVec 32).toNat =
        [1000, 500] := by decide
    simp only [SimSender.madeSegments, hsplits, FrameFields.segments]
    exact ⟨_, ⟨0, rfl, 1, rfl, rfl⟩, rfl⟩
  obtain ⟨c₂, hstep₂, hframes₂, hnow₂, halr₂⟩ : ∃ c₂, Step c₁ (.putFakeData 0 1500 0) c₂ ∧
      c₂.frames.map (·.1) = [1500] ∧ c₂.now = 0 ∧
      c₂.pace.alr.budget.maxBytesInBudget ≠ 0 := by
    refine ⟨_, ⟨le_refl _, snd, pace, hput, hadd, rfl⟩, rfl, rfl, ?_⟩
    show pace.alr.budget.maxBytesInBudget ≠ 0
    rw [halr]
    decide
  have hrun₂ : Run (fun c op c' => Step c op c' ∧ Fits c op) (create 1000 3000 0)
      [.setEstimateBitrate 1000000, .putFakeData 0 1500 0] c₂ :=
    .snoc (.snoc .nil ⟨hstep₁, trivial⟩) ⟨hstep₂, hfits⟩
  obtain ⟨L₁, hinv₁⟩ := (create_inv (by decide) (by decide) 3000 0).step hstep₁ trivial
  obtain ⟨L₂, hinv₂⟩ := hinv₁.step hstep₂ hfits
  obtain ⟨c₃, hstep₃⟩ := hinv₂.transmits (show c₂.now ≤ 10 by omega) halr₂
  have hrun₃ := hrun₂.snoc ⟨hstep₃, trivial⟩
  refine ⟨_, c₃, hrun₃, ?_, ?_, coupled_of_run (by decide) (by decide) hrun₃⟩
  · obtain ⟨_, _, _, _, rfl⟩ := hstep₃
    exact hframes₂
  · obtain ⟨_, _, _, _, rfl⟩ := hstep₃
    rfl

end SimPipeline

end Razor
