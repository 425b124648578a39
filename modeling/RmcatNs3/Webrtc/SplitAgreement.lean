import RmcatNs3.Multipath.SendBuffer
import RmcatNs3.Razor.FrameSplit
import RmcatNs3.Webrtc.WebrtcSender

/-!
# Three senders, one split

`FrameSplit` of `multipathvideo/model/mpsender.cc` and of `webrtc-ns3/model/webrtcsender.cc`
asserts that the segments fit the array; the one of `razor-ns3/model/sim_sender.cc` leaves
that to its caller. Where they fit, the three leave the same array and return the same
count.
-/

namespace Razor

/-- `FrameSplit` behind its assertion. -/
def splitAsserted (segmentSize : BitVec 32) (splits : Splits) (size : BitVec 32) :
    Option (BitVec 16 × Splits) :=
  if segmentSize = 0 then none
  else if (size / segmentSize).toNat < maxSplitPackets then splitInto segmentSize splits size
  else none

variable {segmentSize size : BitVec 32} {splits splits' : Splits} {count : BitVec 16}

theorem splitAsserted_eq (hpos : 0 < segmentSize.toNat)
    (hsize : size.toNat / segmentSize.toNat < maxSplitPackets) :
    splitAsserted segmentSize splits size = splitInto segmentSize splits size := by
  have hne : segmentSize ≠ 0 := by
    rintro rfl
    exact absurd hpos (Nat.lt_irrefl 0)
  rw [splitAsserted, if_neg hne, if_pos (by rwa [BitVec.toNat_udiv])]

/-- What a split behind its assertion leaves is the list of the sizes. -/
theorem take_of_splitAsserted (hpos : 0 < segmentSize.toNat) (hfits : segmentSize.toNat < 2 ^ 16)
    (h : splitAsserted segmentSize splits size = some (count, splits')) :
    size.toNat / segmentSize.toNat < maxSplitPackets ∧
      splits'.toList.take count.toNat = SimSender.frameSplit segmentSize.toNat size.toNat := by
  have hsize : size.toNat / segmentSize.toNat < maxSplitPackets := by
    by_contra hnot
    unfold splitAsserted at h
    split at h
    · cases h
    · rw [if_neg (by rwa [BitVec.toNat_udiv])] at h
      cases h
  rw [splitAsserted_eq hpos hsize] at h
  obtain ⟨count₁, splits₁, hsplit, -, htake⟩ := splitInto_leaves hpos hfits hsize splits
  obtain ⟨rfl, rfl⟩ := Prod.mk.inj (Option.some.inj (hsplit.symm.trans h))
  exact ⟨hsize, htake⟩

end Razor

namespace Multipath.MpSender

open Razor

/-- `MpSender::FrameSplit`, for any `m_segmentSize`. -/
def frameSplitInto (segmentSize : BitVec 32) (splits : Splits) (size : BitVec 32) :
    Option (BitVec 16 × Splits) :=
  splitAsserted segmentSize splits size

/-- The sizes that the sender queues are those in the array. -/
theorem frameSplit_of_into {size : BitVec 32} {splits splits' : Splits} {count : BitVec 16}
    (h : frameSplitInto (BitVec.ofNat 32 segmentSize) splits size = some (count, splits')) :
    frameSplit size.toNat = some (splits'.toList.take count.toNat) := by
  obtain ⟨hsize, htake⟩ := take_of_splitAsserted (by decide) (by decide) h
  exact frameSplit_eq_some_iff.mpr ⟨hsize, htake⟩

end Multipath.MpSender

namespace Webrtc

open Razor

/-- `WebrtcSender::FrameSplit`, for any `m_segmentSize`, which has 16 bits here. -/
def WebrtcSender.frameSplitInto (segmentSize : BitVec 16) (splits : Splits) (size : BitVec 32) :
    Option (BitVec 16 × Splits) :=
  splitAsserted (segmentSize.setWidth 32) splits size

/-- The sizes that the sender caches are those in the array. -/
theorem WebrtcSender.frameSplit_of_into {size : BitVec 32} {splits splits' : Splits}
    {count : BitVec 16}
    (h : frameSplitInto (BitVec.ofNat 16 segmentSize) splits size = some (count, splits')) :
    frameSplit size.toNat = some (splits'.toList.take count.toNat) :=
  Multipath.MpSender.frameSplit_of_into h

/-- **The splits of the three senders are one**: for a segment size from `1` to `65535` and a
frame with fewer than `1000` full segments, nothing is written outside the array, and the
first entries, as many as the count says, are the sizes of the segments. -/
theorem frameSplitInto_isSplit {segmentSize size : BitVec 32} (hpos : 1 ≤ segmentSize.toNat)
    (hfits : segmentSize.toNat ≤ 65535) (hsize : size.toNat / segmentSize.toNat < 1000)
    (splits : Splits) :
    ∃ count splits',
      Multipath.MpSender.frameSplitInto segmentSize splits size = some (count, splits') ∧
      SimSender.frameSplitInto segmentSize splits size = some (count, splits') ∧
      WebrtcSender.frameSplitInto (segmentSize.setWidth 16) splits size =
        some (count, splits') ∧
      count.toNat = Nat.max 1 ((size.toNat + (segmentSize.toNat - 1)) / segmentSize.toNat) ∧
      IsSplit segmentSize.toNat size.toNat (splits'.toList.take count.toNat) := by
  obtain ⟨count, splits', hsplit, hcount, htake⟩ :=
    splitInto_leaves hpos (Nat.lt_succ_of_le hfits) hsize splits
  have hasserted : splitAsserted segmentSize splits size = some (count, splits') :=
    (splitAsserted_eq hpos hsize).trans hsplit
  -- a segment size of sixteen bits keeps its value
  have hwidth : (segmentSize.setWidth 16).setWidth 32 = segmentSize := by
    apply BitVec.eq_of_toNat_eq
    rw [BitVec.toNat_setWidth, BitVec.toNat_setWidth]
    omega
  refine ⟨count, splits', hasserted, hsplit, ?_, ?_, ?_⟩
  · rw [WebrtcSender.frameSplitInto, hwidth, hasserted]
  · rw [hcount, SimSender.length_frameSplit hpos]
  · rw [htake]
    exact SimSender.isSplit_frameSplit hpos (Nat.lt_succ_of_le hfits)

/-- A frame of `999999` bytes fills the array with segments of `1000`. -/
theorem frameSplitInto_isSplit_full :
    ∃ count splits',
      Multipath.MpSender.frameSplitInto 1000 (.replicate 1000 0) 999999 =
        some (count, splits') ∧ count.toNat = 1000 := by
  obtain ⟨count, splits', hsplit, -, -, hcount, -⟩ :=
    @frameSplitInto_isSplit 1000 999999 (by decide) (by decide) (by decide) (.replicate 1000 0)
  exact ⟨count, splits', hsplit, hcount⟩

end Webrtc
