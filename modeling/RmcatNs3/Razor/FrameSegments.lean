import Mathlib.Algebra.GroupWithZero.Nat
import RmcatNs3.Razor.SimEndpoint

/-!
# The segments of a frame

A frame is split into segments that share its number, are counted by their index,
and take the next packet ids. Both senders of video cut their frames the same way.
-/

namespace Razor

/-- What the segments of a frame have in common. -/
structure FrameFields where
  fid : BitVec 32
  timestamp : BitVec 32
  total : Nat
  ftype : BitVec 8
  remb : BitVec 8

/-- The segments of a frame from this packet id and this index on, one for each
size. -/
def FrameFields.segments (f : FrameFields) : BitVec 32 → Nat → List (BitVec 16) → List Segment
  | _, _, [] => []
  | packetId, i, dataSize :: rest =>
      { packetId, fid := f.fid, timestamp := f.timestamp
        index := BitVec.ofNat 16 i, total := BitVec.ofNat 16 f.total, ftype := f.ftype
        remb := f.remb, sendTs := 0, transportSeq := 0, dataSize } ::
      f.segments (packetId + 1) (i + 1) rest

/-- `n` packet ids from this one on. -/
def packetIds (packetId : BitVec 32) (n : Nat) : List (BitVec 32) :=
  (List.range n).map fun i => packetId + BitVec.ofNat 32 i

/-- These are the segments of a frame of this size, from this packet id on. -/
structure IsFrame (packetId : BitVec 32) (size : Nat) (segs : List Segment) : Prop where
  nonempty : segs ≠ []
  same_fid : ∃ fid, ∀ seg ∈ segs, seg.fid = fid
  index : segs.map (·.index.toNat) = List.range segs.length
  total : ∀ seg ∈ segs, seg.total.toNat = segs.length
  packetId : segs.map (·.packetId) = packetIds packetId segs.length
  dataSize : (segs.map (·.dataSize.toNat)).sum = size

/-! ## Packet ids -/

theorem packetIds_succ (packetId : BitVec 32) (n : Nat) :
    packetIds packetId (n + 1) = packetId :: packetIds (packetId + 1) n := by
  unfold packetIds
  rw [List.range_succ_eq_map, List.map_cons, List.map_map]
  congr 1
  · exact BitVec.add_zero packetId
  apply List.map_congr_left
  intro i _
  simp only [Function.comp_apply]
  rw [BitVec.add_assoc, Nat.succ_eq_add_one, Nat.add_comm i 1, BitVec.ofNat_add]
  rfl

theorem packetIds_append (packetId : BitVec 32) (m n : Nat) :
    packetIds packetId m ++ packetIds (packetId + BitVec.ofNat 32 m) n =
      packetIds packetId (m + n) := by
  unfold packetIds
  rw [List.range_add, List.map_append, List.map_map]
  congr 1
  apply List.map_congr_left
  intro i _
  simp only [Function.comp_apply]
  rw [BitVec.add_assoc, BitVec.ofNat_add]

/-- What follows some packet ids is packet ids. -/
theorem eq_packetIds_of_suffix {packetId : BitVec 32} {n : Nat} {l : List (BitVec 32)}
    (h : l <:+ packetIds packetId n) :
    ∃ start, l = packetIds start l.length ∧
      start + BitVec.ofNat 32 l.length = packetId + BitVec.ofNat 32 n := by
  obtain ⟨k, hk⟩ : ∃ k, k + l.length = n := by
    have hle := h.length_le
    simp only [packetIds, List.length_map, List.length_range] at hle
    exact ⟨n - l.length, by omega⟩
  refine ⟨packetId + BitVec.ofNat 32 k, ?_, ?_⟩
  · obtain ⟨t, ht⟩ := h
    rw [← hk, ← packetIds_append] at ht
    exact (List.append_inj' ht (by simp [packetIds])).2
  · rw [BitVec.add_assoc, ← BitVec.ofNat_add, hk]

/-- `2 ^ 32` packet ids in a row are different. -/
theorem nodup_packetIds (packetId : BitVec 32) {n : Nat} (hn : n ≤ 2 ^ 32) :
    (packetIds packetId n).Nodup := by
  unfold packetIds
  refine List.Nodup.map_on ?_ List.nodup_range
  intro i hi j hj heq
  have hof := congrArg BitVec.toNat (BitVec.add_right_inj _ |>.mp heq)
  simp only [BitVec.toNat_ofNat] at hof
  rw [List.mem_range] at hi hj
  rwa [Nat.mod_eq_of_lt (by omega), Nat.mod_eq_of_lt (by omega)] at hof

theorem length_packetIds (packetId : BitVec 32) (n : Nat) :
    (packetIds packetId n).length = n := by
  simp [packetIds]

/-! ## The segments -/

namespace FrameFields

variable (f : FrameFields) (packetId : BitVec 32) (i : Nat) (splits : List (BitVec 16))

theorem length_segments : (f.segments packetId i splits).length = splits.length := by
  induction splits generalizing packetId i with
  | nil => rfl
  | cons dataSize rest ih => simp [segments, ih]

theorem segments_packetId :
    (f.segments packetId i splits).map (·.packetId) = packetIds packetId splits.length := by
  induction splits generalizing packetId i with
  | nil => rfl
  | cons dataSize rest ih => simp [segments, ih, packetIds_succ]

theorem segments_dataSize : (f.segments packetId i splits).map (·.dataSize.toNat) =
    splits.map (·.toNat) := by
  induction splits generalizing packetId i with
  | nil => rfl
  | cons dataSize rest ih => simp [segments, ih]

theorem segments_index (h : i + splits.length ≤ 2 ^ 16) :
    (f.segments packetId i splits).map (·.index.toNat) = List.range' i splits.length := by
  induction splits generalizing packetId i with
  | nil => rfl
  | cons dataSize rest ih =>
      rw [List.length_cons] at h ⊢
      rw [List.range'_succ, ← ih (packetId + 1) (i + 1) (by omega)]
      simp only [segments, List.map_cons, BitVec.toNat_ofNat]
      rw [Nat.mod_eq_of_lt (by omega)]

theorem of_mem_segments {seg : Segment} (h : seg ∈ f.segments packetId i splits) :
    seg.fid = f.fid ∧ seg.total = BitVec.ofNat 16 f.total ∧
      seg.sendTs = 0 ∧ seg.transportSeq = 0 := by
  induction splits generalizing packetId i with
  | nil => exact absurd h List.not_mem_nil
  | cons dataSize rest ih =>
      rcases List.mem_cons.mp h with rfl | h
      · exact ⟨rfl, rfl, rfl, rfl⟩
      · exact ih (packetId + 1) (i + 1) h

end FrameFields

/-! ## Splitting -/

namespace SimSender

variable {segmentSize size : Nat}

theorem frameSplit_ne_nil (hpos : 0 < segmentSize) : frameSplit segmentSize size ≠ [] := by
  unfold frameSplit
  split
  · exact List.cons_ne_nil _ _
  · rename_i hbig
    have hfull : 0 < size / segmentSize := Nat.div_pos (Nat.not_lt.mp hbig) hpos
    have hne : List.replicate (size / segmentSize) (BitVec.ofNat 16 segmentSize) ≠ [] := by
      intro hnil
      rw [List.replicate_eq_nil_iff] at hnil
      omega
    simp only
    split
    · exact List.append_ne_nil_of_left_ne_nil hne _
    · exact hne

theorem length_frameSplit_le (segmentSize size : Nat) :
    (frameSplit segmentSize size).length ≤ size / segmentSize + 1 := by
  unfold frameSplit
  split
  · simp
  · simp only
    split
    · simp
    · simp

/-- The sizes of the segments sum to the size of the frame, as a segment size fits
its field. -/
theorem sum_frameSplit (hpos : 0 < segmentSize) (hfits : segmentSize < 2 ^ 16) :
    ((frameSplit segmentSize size).map (·.toNat)).sum = size := by
  have hdiv := Nat.div_add_mod' size segmentSize
  unfold frameSplit
  split
  · rename_i hsmall
    simp only [List.map_cons, List.map_nil, List.sum_singleton, BitVec.toNat_ofNat]
    exact Nat.mod_eq_of_lt (by omega)
  · rename_i hbig
    have hsegment : segmentSize % 2 ^ 16 = segmentSize := Nat.mod_eq_of_lt hfits
    have hrest : size % segmentSize % 2 ^ 16 = size % segmentSize :=
      Nat.mod_eq_of_lt (Nat.lt_trans (Nat.mod_lt _ hpos) hfits)
    simp only
    split
    · simp only [List.map_append, List.map_replicate, List.sum_append, List.sum_replicate_nat,
        List.map_cons, List.map_nil, List.sum_singleton, BitVec.toNat_ofNat]
      rw [hsegment, hrest]
      exact hdiv
    · rename_i hexact
      simp only [List.map_replicate, List.sum_replicate_nat, BitVec.toNat_ofNat]
      rw [hsegment]
      omega

/-- **A frame** that is split into at most `1000` segments is cut into them. -/
theorem isFrame_segments (f : FrameFields) (packetId : BitVec 32) (hpos : 0 < segmentSize)
    (hfits : segmentSize < 2 ^ 16) (hsize : size / segmentSize < maxSplitPackets)
    (htotal : f.total = (frameSplit segmentSize size).length) :
    IsFrame packetId size (f.segments packetId 0 (frameSplit segmentSize size)) := by
  have hlen := f.length_segments packetId 0 (frameSplit segmentSize size)
  have hle := length_frameSplit_le segmentSize size
  have hbound : (frameSplit segmentSize size).length < 2 ^ 16 := by
    simp only [maxSplitPackets] at hsize
    omega
  constructor
  · intro hnil
    rw [hnil, List.length_nil] at hlen
    exact frameSplit_ne_nil hpos (List.length_eq_zero_iff.mp hlen.symm)
  · exact ⟨f.fid, fun seg hseg => (f.of_mem_segments packetId 0 _ hseg).1⟩
  · rw [f.segments_index packetId 0 _ (by omega), hlen, List.range_eq_range']
  · intro seg hseg
    rw [(f.of_mem_segments packetId 0 _ hseg).2.1, hlen, htotal, BitVec.toNat_ofNat]
    exact Nat.mod_eq_of_lt hbound
  · rw [f.segments_packetId, hlen]
  · rw [f.segments_dataSize]
    exact sum_frameSplit hpos hfits

end SimSender

end Razor
