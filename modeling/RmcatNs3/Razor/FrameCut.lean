import RmcatNs3.Razor.FrameSplit
import RmcatNs3.Razor.PlaybackOrder
import RmcatNs3.Razor.SendWindow

/-!
# Frames and the segments that they are cut into

What `sim_sender_put` puts into its cache, seen from the frames that the application gave it:
each segment is a piece of one of them and says which one, and the pieces of a frame are the
frame again.
-/

namespace Razor

namespace SimTransport

open CountedLoop Runs SimProto

/-- Bytes that are cut into pieces of some sizes. -/
def pieces : List UInt8 → List (BitVec 16) → List (List UInt8)
  | _, [] => []
  | pos, split :: rest => pos.take split.toNat :: pieces (pos.drop split.toNat) rest

/-- The pieces of a frame. -/
def framePieces (data : List UInt8) : List (List UInt8) := pieces data (simSplitFrame data.length)

/-- The number of packets that some frames take. -/
def packetCount (frames : List (List UInt8)) : Nat :=
  (frames.map fun data => (framePieces data).length).sum

/-- A segment of a frame that comes after some others. -/
structure CutFrom (before : List (List UInt8)) (data : List UInt8) (seg : SimSegment) : Prop where
  fid : seg.fid.toNat = before.length + 1
  total : seg.total.toNat = (framePieces data).length
  packetId : seg.packetId.toNat = packetCount before + seg.index.toNat + 1
  piece : (framePieces data)[seg.index.toNat]? = some (payload seg)
  dataSize : seg.dataSize.toNat ≤ simVideoSize

/-- A segment of one of some frames. -/
def Cut (frames : List (List UInt8)) (seg : SimSegment) : Prop :=
  ∃ before data after, frames = before ++ data :: after ∧ CutFrom before data seg

/-! ## Pieces -/

theorem length_pieces (pos : List UInt8) (splits : List (BitVec 16)) :
    (pieces pos splits).length = splits.length := by
  induction splits generalizing pos with
  | nil => rfl
  | cons split rest ih => simp [pieces, ih]

/-- Pieces whose sizes sum to all of the bytes are these bytes. -/
theorem flatten_pieces {pos : List UInt8} {splits : List (BitVec 16)}
    (hsum : (splits.map (·.toNat)).sum = pos.length) : (pieces pos splits).flatten = pos := by
  induction splits generalizing pos with
  | nil => exact (List.eq_nil_of_length_eq_zero hsum.symm).symm
  | cons split rest ih =>
      rw [List.map_cons, List.sum_cons] at hsum
      rw [pieces, List.flatten_cons, ih (by rw [List.length_drop]; omega)]
      exact List.take_append_drop _ _

/-- The sender cuts as its sibling does. -/
theorem simSplitFrame_eq (size : Nat) :
    simSplitFrame size = SimSender.frameSplit simVideoSize size := by
  rw [simSplitFrame, SimSender.frameSplit]
  rcases Nat.lt_trichotomy size simVideoSize with hlt | rfl | hgt
  · rw [if_pos (Nat.le_of_lt hlt), if_pos hlt]
  · rfl
  · rw [if_neg (Nat.not_le.mpr hgt), if_neg (Nat.not_lt.mpr (Nat.le_of_lt hgt))]

theorem isSplit_simSplitFrame (size : Nat) : IsSplit simVideoSize size (simSplitFrame size) := by
  rw [simSplitFrame_eq]
  exact SimSender.isSplit_frameSplit (by decide) (by decide)

theorem le_of_mem_simSplitFrame {size : Nat} {split : BitVec 16}
    (h : split ∈ simSplitFrame size) : split.toNat ≤ simVideoSize := by
  rcases Nat.eq_zero_or_pos size with hzero | hpos
  · rw [(isSplit_simSplitFrame size).empty hzero, List.mem_singleton] at h
    rw [h]
    exact Nat.zero_le _
  · exact ((isSplit_simSplitFrame size).bounds hpos split h).2

theorem length_framePieces (data : List UInt8) :
    (framePieces data).length = (simSplitFrame data.length).length := length_pieces ..

/-- **A frame is its pieces.** -/
theorem flatten_framePieces (data : List UInt8) : (framePieces data).flatten = data :=
  flatten_pieces (isSplit_simSplitFrame data.length).sum

theorem framePieces_pos (data : List UInt8) : 0 < (framePieces data).length := by
  rw [length_framePieces, (isSplit_simSplitFrame data.length).count]
  exact Nat.le_max_left 1 _

/-- The assertion of `sim_sender_put` keeps the number of segments in its field. -/
theorem length_framePieces_lt {data : List UInt8} (h : data.length / simVideoSize < splitNumber) :
    (framePieces data).length < 2 ^ 16 := by
  have hle := SimSender.length_frameSplit_le simVideoSize data.length
  rw [length_framePieces, simSplitFrame_eq]
  simp only [splitNumber] at h
  omega

theorem packetCount_append (frames frames' : List (List UInt8)) :
    packetCount (frames ++ frames') = packetCount frames + packetCount frames' := by
  simp [packetCount]

theorem packetCount_cons (data : List UInt8) (frames : List (List UInt8)) :
    packetCount (data :: frames) = (framePieces data).length + packetCount frames := rfl

/-! ## Segments -/

section

variable {before frames frames' : List (List UInt8)} {data : List UInt8} {seg : SimSegment}

theorem CutFrom.index_lt (h : CutFrom before data seg) :
    seg.index.toNat < (framePieces data).length :=
  (List.getElem?_eq_some_iff.mp h.piece).1

theorem Cut.mono (h : Cut frames seg) (hle : frames <+: frames') : Cut frames' seg := by
  obtain ⟨before, data, after, rfl, hcut⟩ := h
  obtain ⟨more, rfl⟩ := hle
  exact ⟨before, data, after ++ more, by simp, hcut⟩

theorem Cut.index_lt (h : Cut frames seg) : seg.index < seg.total := by
  obtain ⟨before, data, after, -, hcut⟩ := h
  rw [BitVec.lt_def, hcut.total]
  exact hcut.index_lt

theorem Cut.fid_pos (h : Cut frames seg) : 0 < seg.fid.toNat := by
  obtain ⟨before, data, after, -, hcut⟩ := h
  rw [hcut.fid]
  exact Nat.succ_pos _

theorem Cut.fid_le (h : Cut frames seg) : seg.fid.toNat ≤ frames.length := by
  obtain ⟨before, data, after, rfl, hcut⟩ := h
  rw [hcut.fid, List.length_append, List.length_cons]
  omega

/-- The packets of a frame are behind those of the frames before it, and come before those of
the frames behind it. -/
theorem Cut.packetId_bounds (h : Cut frames seg) :
    seg.index.toNat < seg.packetId.toNat ∧
      seg.packetId.toNat - seg.index.toNat - 1 + seg.total.toNat ≤ packetCount frames := by
  obtain ⟨before, data, after, rfl, hcut⟩ := h
  rw [packetCount_append, packetCount_cons, hcut.packetId, hcut.total]
  omega

theorem Cut.packetId_le (h : Cut frames seg) : seg.packetId.toNat ≤ packetCount frames := by
  have hlt := BitVec.lt_def.mp h.index_lt
  have hbounds := h.packetId_bounds
  omega

/-- The last packet of the frame of a segment has been numbered. -/
theorem Cut.frameEnd_le (h : Cut frames seg) : (frameEnd seg).toNat ≤ packetCount frames := by
  obtain ⟨hlow, hhigh⟩ := h.packetId_bounds
  have hlt := BitVec.lt_def.mp h.index_lt
  have hsum : seg.packetId - seg.index.setWidth 32 + seg.total.setWidth 32 - 1 =
      BitVec.ofNat 32 (seg.packetId.toNat - seg.index.toNat - 1 + seg.total.toNat) := by
    apply BitVec.eq_of_toNat_eq
    have hpacket := seg.packetId.isLt
    have hone : (1 : BitVec 32).toNat = 1 := rfl
    simp only [BitVec.toNat_sub, BitVec.toNat_add, BitVec.toNat_setWidth, BitVec.toNat_ofNat,
      hone]
    omega
  rw [frameEnd, hsum, BitVec.toNat_ofNat]
  exact Nat.le_trans (Nat.mod_le _ _) hhigh

/-- The number of segments of each frame. -/
def frameTotal (frames : List (List UInt8)) (fid : BitVec 32) : BitVec 16 :=
  BitVec.ofNat 16 (framePieces (frames.getD (fid.toNat - 1) [])).length

theorem Cut.total_eq (h : Cut frames seg) : seg.total = frameTotal frames seg.fid := by
  obtain ⟨before, data, after, rfl, hcut⟩ := h
  have hdata : (before ++ data :: after).getD (seg.fid.toNat - 1) [] = data := by
    rw [hcut.fid, Nat.add_sub_cancel, List.getD_eq_getElem?_getD, List.getElem?_append_right
      (Nat.le_refl _), Nat.sub_self]
    rfl
  rw [frameTotal, hdata, ← hcut.total, BitVec.ofNat_toNat, BitVec.setWidth_eq]

/-- A segment with this id is a piece of this frame. -/
theorem Cut.piece_eq (h : Cut frames seg) {k : Nat} (hfid : seg.fid.toNat = k + 1)
    (hdata : frames[k]? = some data) :
    (framePieces data)[seg.index.toNat]? = some (payload seg) := by
  obtain ⟨before, data', after, rfl, hcut⟩ := h
  have hk : k = before.length := by
    have hnat := hcut.fid
    omega
  rw [hk, List.getElem?_append_right (Nat.le_refl _), Nat.sub_self] at hdata
  obtain rfl := Option.some.inj hdata
  exact hcut.piece

theorem Cut.exists_frame (h : Cut frames seg) :
    ∃ data, frames[seg.fid.toNat - 1]? = some data := by
  have hpos := h.fid_pos
  have hle := h.fid_le
  exact ⟨_, List.getElem?_eq_getElem (by omega)⟩

end

/-- **A frame from its segments**: a frame that is played has the bytes that were given to the
sender. -/
theorem VideoCache.Delivery.Assembled.data_eq {frames : List (List UInt8)}
    {es : List Playback.Input} {d : VideoCache.Delivery}
    (h : d.Assembled (frameTotal frames) es) (hcut : ∀ seg, .put seg ∈ es → Cut frames seg)
    (hsizes : ∀ data ∈ frames, data.length / simVideoSize < splitNumber) :
    0 < d.fid.toNat ∧ frames[d.fid.toNat - 1]? = some d.data := by
  obtain ⟨segs, hlen, hown, hdata⟩ := h
  have hpos : 0 < segs.length := by
    rw [hlen, frameTotal, BitVec.toNat_ofNat]
    by_cases hin : d.fid.toNat - 1 < frames.length
    · have hmem := List.getElem_mem hin
      rw [List.getD_eq_getElem?_getD, List.getElem?_eq_getElem hin, Option.getD_some,
        Nat.mod_eq_of_lt (length_framePieces_lt (hsizes _ hmem))]
      exact framePieces_pos _
    · rw [List.getD_eq_getElem?_getD, List.getElem?_eq_none (Nat.not_lt.mp hin)]
      exact Nat.one_pos
  -- the first segment tells which frame it is
  obtain ⟨hput, hfid, -⟩ := hown 0 segs[0] (List.getElem?_eq_getElem hpos)
  have hfirst := hcut _ hput
  rw [← hfid]
  obtain ⟨frame, hframe⟩ := hfirst.exists_frame
  refine ⟨hfirst.fid_pos, hframe.trans (congrArg some ?_)⟩
  have hcount : segs.length = (framePieces frame).length := by
    rw [hlen, ← hfid, frameTotal, List.getD_eq_getElem?_getD, hframe, Option.getD_some,
      BitVec.toNat_ofNat]
    exact Nat.mod_eq_of_lt (length_framePieces_lt (hsizes _ (List.mem_of_getElem? hframe)))
  have hpieces : segs.map payload = framePieces frame := by
    apply List.ext_getElem?
    intro k
    rw [List.getElem?_map]
    cases hk : segs[k]? with
    | none =>
        rw [List.getElem?_eq_none_iff] at hk
        rw [Option.map_none, eq_comm, List.getElem?_eq_none_iff, ← hcount]
        exact hk
    | some seg =>
        obtain ⟨hmem, hsame, hindex⟩ := hown k seg hk
        have hfidNat : seg.fid.toNat = segs[0].fid.toNat - 1 + 1 := by
          rw [hsame, ← hfid]
          have hone := hfirst.fid_pos
          omega
        rw [Option.map_some, ← hindex]
        exact ((hcut seg hmem).piece_eq hfidNat hframe).symm
  rw [hdata, hpieces, flatten_framePieces]

/-! ## The sender -/

namespace Sender

variable {frames : List (List UInt8)} {s s' : Sender}

/-- The counters of the sender stand behind some frames, and its cache has segments of them. -/
structure Cuts (frames : List (List UInt8)) (s : Sender) : Prop where
  frameIdSeed : s.frameIdSeed.toNat = frames.length
  packetIdSeed : s.packetIdSeed.toNat = packetCount frames
  cached : ∀ b ∈ s.cache, Cut frames b.2

theorem cuts_new : Cuts [] new where
  frameIdSeed := rfl
  packetIdSeed := rfl
  cached _ hb := absurd hb List.not_mem_nil

theorem toList_segmentData {bytes : List UInt8} (h : bytes.length ≤ simVideoSize) :
    (segmentData bytes).toList.take bytes.length = bytes := by
  apply List.ext_getElem?
  intro k
  rw [List.getElem?_take]
  split
  · rename_i hk
    have hlt : k < simVideoSize := by omega
    have hget : (segmentData bytes).toList[k]? = some (bytes.getD k 0) := by
      rw [List.getElem?_eq_getElem (by simpa using hlt)]
      simp [segmentData]
    rw [hget, List.getD_eq_getElem?_getD, List.getElem?_eq_getElem hk]
    rfl
  · rename_i hk
    exact (List.getElem?_eq_none (Nat.not_lt.mp hk)).symm

/-- The loop of `sim_sender_put`: with `pos` still to go, the segments from index `i` on
follow the packets of the frames before. -/
theorem putSegments_cuts {timestamp : BitVec 32} {payloadType ftype : BitVec 8}
    {total : BitVec 16} {i : Nat} {data pos : List UInt8} {splits : List (BitVec 16)}
    (htotal : total.toNat = (framePieces data).length)
    (hrest : (framePieces data).drop i = pieces pos splits)
    (hsum : (splits.map (·.toNat)).sum = pos.length)
    (hsplits : ∀ split ∈ splits, split.toNat ≤ simVideoSize)
    (hfid : s.frameIdSeed.toNat = frames.length + 1)
    (hseed : s.packetIdSeed.toNat = packetCount frames + i)
    (hend : i + splits.length = (framePieces data).length)
    (hfits : packetCount frames + i + splits.length < 2 ^ 32)
    (hcached : ∀ b ∈ s.cache, Cut (frames ++ [data]) b.2) :
    Cuts (frames ++ [data])
      (putSegments timestamp payloadType ftype total i s pos splits) := by
  induction splits generalizing i s pos with
  | nil =>
      refine ⟨?_, ?_, hcached⟩
      · rw [putSegments, hfid, List.length_append]
        rfl
      · rw [putSegments, hseed, packetCount_append, packetCount_cons, ← hend]
        rfl
  | cons split rest ih =>
      rw [List.map_cons, List.sum_cons] at hsum
      rw [List.length_cons] at hend hfits
      have hsplit := hsplits split List.mem_cons_self
      have hseed' : (s.packetIdSeed + 1).toNat = packetCount frames + (i + 1) := by
        rw [toNat_add_one (by omega), hseed]
        rfl
      have htake : (pos.take split.toNat).length = split.toNat := by
        rw [List.length_take]
        omega
      have hindex : (BitVec.ofNat 16 i).toNat = i := by
        rw [BitVec.toNat_ofNat]
        have hlt := total.isLt
        exact Nat.mod_eq_of_lt (by omega)
      have hpiece : (framePieces data)[i]? = some (pos.take split.toNat) := by
        have hhead := congrArg List.head? hrest
        rwa [List.head?_drop] at hhead
      rw [putSegments]
      refine ih ?_ ?_ (fun split hmem => hsplits split (List.mem_cons_of_mem _ hmem)) hfid hseed'
        (by omega) (by omega) ?_
      · have htail := congrArg List.tail hrest
        rwa [List.tail_drop] at htail
      · rw [List.length_drop]
        omega
      · intro b hb
        rcases SortedMap.mem_insert.mp hb with hb | ⟨_, rfl⟩
        · exact hcached b hb
        · refine ⟨frames, data, [], rfl, hfid, htotal, ?_, ?_, hsplit⟩
          · dsimp only
            rw [hseed', hindex]
            rfl
          · dsimp only [payload]
            rw [hindex, hpiece]
            have hback := @toList_segmentData (pos.take split.toNat) (by omega)
            rw [htake] at hback
            rw [hback]

/-- **A frame is put** behind the others. -/
theorem Cuts.put (hs : s.Cuts frames) {payloadType ftype : BitVec 8} {data : List UInt8}
    {nowTs : Int} (hfid : frames.length + 1 < 2 ^ 32)
    (hpackets : packetCount (frames ++ [data]) < 2 ^ 32)
    (h : s.put payloadType ftype data nowTs = some s') :
    data.length / simVideoSize < splitNumber ∧ s'.Cuts (frames ++ [data]) := by
  rw [Sender.put] at h
  split at h
  · rename_i hsize
    obtain rfl := Option.some.inj h
    refine ⟨hsize, ?_⟩
    have hlt := length_framePieces_lt hsize
    have hcount : packetCount frames + (framePieces data).length < 2 ^ 32 := by
      rwa [packetCount_append, packetCount_cons] at hpackets
    have hlen := length_framePieces data
    refine putSegments_cuts ?_ rfl (isSplit_simSplitFrame data.length).sum
      (fun split hmem => le_of_mem_simSplitFrame hmem) ?_ hs.packetIdSeed (by omega) (by omega) ?_
    · rw [BitVec.toNat_ofNat, ← hlen]
      exact Nat.mod_eq_of_lt hlt
    · dsimp only
      rw [toNat_add_one (by rw [hs.frameIdSeed]; exact hfid), hs.frameIdSeed]
    · exact fun b hb => (hs.cached b hb).mono (List.prefix_append _ _)
  · cases h

/-- A base leaves the counters as they are, and only takes segments from the cache. -/
theorem Cuts.updateBase (hs : s.Cuts frames) {basePacketId : BitVec 32}
    (h : s.updateBase basePacketId = some s') : s'.Cuts frames := by
  have heq := updateBase_eq h
  refine ⟨?_, ?_, fun b hb => hs.cached b ((mem_updateBase h).mp hb).1⟩
  · rw [heq]
    exact hs.frameIdSeed
  · rw [heq]
    exact hs.packetIdSeed

end Sender

end SimTransport

end Razor
