import RmcatNs3.Lib.NetworkOrder
import RmcatNs3.Lib.PacketHeaders
import RmcatNs3.Scream.FeedbackPacket

/-!
# The packets of the SCReAM applications

`scream/model/scream-header.{h,cc}`: the header in front of every packet, and the
`scream_feedback_t` behind the header of a feedback, which travels as it lies in the memory of a
little-endian host. The bit fields of the two headers are the 16 bits that they share. `Print`
is left out.
-/

namespace Scream

open PacketHeaders StructMemory NetworkOrder

/-- `rtp_hdr_t`. -/
structure RtpHdr where
  flags : BitVec 16
  seqNumber : BitVec 16
  timestamp : BitVec 32
  ssrc : BitVec 32
  deriving DecidableEq, Repr

/-- `rtcp_common_t`. -/
structure RtcpCommon where
  flags : BitVec 16
  length : BitVec 16
  deriving DecidableEq, Repr

/-- `ScreamHeader`: `m_mid`, and what `m_hdr` holds for it. -/
inductive ScreamHeader where
  | rtp (hdr : RtpHdr)
  | rtcp (hdr : RtcpCommon)
  | other (mid : BitVec 8)
  deriving DecidableEq, Repr

namespace ScreamHeader

/-- `GetHeaderPayload` into an `rtp_hdr_t`; the rest of `m_hdr` is zero. -/
def rtpPayload : ScreamHeader → RtpHdr
  | .rtp hdr => hdr
  | .rtcp hdr => ⟨hdr.flags, hdr.length, 0, 0⟩
  | .other _ => ⟨0, 0, 0, 0⟩

def serialize : ScreamHeader → List UInt8
  | .rtp hdr => writeHton (0 : BitVec 8) ++ (writeHton hdr.flags ++
      (writeHton hdr.seqNumber ++ (writeHton hdr.timestamp ++ writeHton hdr.ssrc)))
  | .rtcp hdr => writeHton (1 : BitVec 8) ++ (writeHton hdr.flags ++ writeHton hdr.length)
  | .other mid => writeHton mid

/-- `Deserialize`, with what is left of the packet. -/
def deserialize (buffer : List UInt8) : Option (ScreamHeader × List UInt8) := do
  let (mid, buffer) ← readNtoh 8 buffer
  if mid = 0 then
    let (flags, buffer) ← readNtoh 16 buffer
    let (seqNumber, buffer) ← readNtoh 16 buffer
    let (timestamp, buffer) ← readNtoh 32 buffer
    let (ssrc, buffer) ← readNtoh 32 buffer
    return (.rtp ⟨flags, seqNumber, timestamp, ssrc⟩, buffer)
  else if mid = 1 then
    let (flags, buffer) ← readNtoh 16 buffer
    let (length, buffer) ← readNtoh 16 buffer
    return (.rtcp ⟨flags, length⟩, buffer)
  else return (.other mid, buffer)

/-- The value of `m_mid` belongs to what `m_hdr` holds. -/
def Known : ScreamHeader → Prop
  | .rtp _ | .rtcp _ => True
  | .other mid => mid ≠ 0 ∧ mid ≠ 1

/-- **A header is read back**, and the packet behind it is left. -/
theorem deserialize_serialize {header : ScreamHeader} (h : header.Known) (payload : List UInt8) :
    deserialize (header.serialize ++ payload) = some (header, payload) := by
  unfold deserialize
  cases header with
  | rtp hdr =>
      simp only [serialize, List.append_assoc]
      rw [readNtoh_writeHton rfl]
      simp only [bind, Option.bind, if_true]
      rw [readNtoh_writeHton rfl]
      simp only
      rw [readNtoh_writeHton rfl]
      simp only
      rw [readNtoh_writeHton rfl]
      simp only
      rw [readNtoh_writeHton rfl]
      rfl
  | rtcp hdr =>
      simp only [serialize, List.append_assoc]
      rw [readNtoh_writeHton rfl]
      simp only [bind, Option.bind]
      rw [if_neg (show ¬(1 : BitVec 8) = 0 by decide), if_pos trivial, readNtoh_writeHton rfl]
      simp only
      rw [readNtoh_writeHton rfl]
      rfl
  | other mid =>
      rw [serialize, readNtoh_writeHton rfl]
      simp only [bind, Option.bind]
      rw [if_neg h.1, if_neg h.2]
      rfl

end ScreamHeader

/-! ## `scream_feedback_t` -/

def sizeofFeedback : Nat := 24

namespace Feedback

/-- The stores into a `scream_feedback_t`, with `aseq` and `ecn_bytes` in one word. -/
def structStores (fb : Feedback) : List (Field × Nat) :=
  [(⟨8, 8⟩, fb.ackVector.toNat), (⟨4, 2⟩, fb.highestSeqNr.toNat), (⟨0, 4⟩, fb.ssrc.toNat),
    (⟨16, 4⟩, fb.receiveTimestamp), (⟨6, 2⟩, fb.ecnCeMarkedBytes)]

/-- The bytes of the struct, which has held `stack` before. -/
def structBytes (stack : Mem) (fb : Feedback) : List UInt8 :=
  bytesAt (storeAll .little stack fb.structStores) 0 sizeofFeedback

/-- The members of the struct in a buffer. -/
def readStruct (buffer : Mem) : Feedback where
  ssrc := BitVec.ofNat 32 (Field.load .little buffer ⟨0, 4⟩)
  receiveTimestamp := Field.load .little buffer ⟨16, 4⟩
  highestSeqNr := BitVec.ofNat 16 (Field.load .little buffer ⟨4, 2⟩)
  ackVector := BitVec.ofNat 64 (Field.load .little buffer ⟨8, 8⟩)
  ecnCeMarkedBytes := Field.load .little buffer ⟨6, 2⟩

/-- `CopyData` of a packet over the start of a buffer keeps the fields of the packet. -/
theorem load_writeBytes_bytesAt {dst src : Mem} {n : Nat} {f : Field}
    (h : f.offset + f.width ≤ n) :
    f.load .little (writeBytes dst 0 (bytesAt src 0 n)) = f.load .little src := by
  apply Field.load_congr
  intro a _ ha
  have hlt : a < n := by omega
  simp [writeBytes, bytesAt, hlt]

/-- **The struct is read back**, whatever the two buffers held before. -/
theorem readStruct_structBytes {fb : Feedback} (h : fb.InRange) (stack buffer : Mem) :
    readStruct (writeBytes buffer 0 (fb.structBytes stack)) = fb := by
  have hload : ∀ f v, (f, v) ∈ fb.structStores → f.offset + f.width ≤ sizeofFeedback →
      v < 256 ^ f.width →
        f.load .little (writeBytes buffer 0 (fb.structBytes stack)) = v := by
    intro f v hmem hin hlt
    have hdisjoint : (fb.structStores.map (·.1)).Pairwise Field.Disjoint := by
      show [StructMemory.Field.mk 8 8, ⟨4, 2⟩, ⟨0, 4⟩, ⟨16, 4⟩, ⟨6, 2⟩].Pairwise Field.Disjoint
      decide
    rw [structBytes, load_writeBytes_bytesAt hin, load_storeAll hdisjoint hmem,
      Nat.mod_eq_of_lt hlt]
  have hssrc := hload ⟨0, 4⟩ fb.ssrc.toNat (by simp [structStores]) (by decide) fb.ssrc.isLt
  have hseq := hload ⟨4, 2⟩ fb.highestSeqNr.toNat (by simp [structStores]) (by decide)
    fb.highestSeqNr.isLt
  have hvector := hload ⟨8, 8⟩ fb.ackVector.toNat (by simp [structStores]) (by decide)
    fb.ackVector.isLt
  have htime := hload ⟨16, 4⟩ fb.receiveTimestamp (by simp [structStores]) (by decide)
    h.timestamp_lt
  have hecn := hload ⟨6, 2⟩ fb.ecnCeMarkedBytes (by simp [structStores]) (by decide) h.ecn_lt
  simp only [readStruct, hssrc, hseq, hvector, htime, hecn, BitVec.ofNat_toNat,
    BitVec.setWidth_eq]

end Feedback

end Scream
