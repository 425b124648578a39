import RmcatNs3.Lib.NetworkOrder
import RmcatNs3.Scream.ScreamRx
import RmcatNs3.Scream.ScreamTx

/-!
# The feedback packet of SCReAM

`createFeedback` writes the elements of `getFeedback` into a buffer of 32 bytes, and
the byte-level `incomingFeedback` takes them out again. Both name the bytes by
their offsets; the ACK vector travels as two words.
-/

namespace Scream

open StructMemory NetworkOrder

section

variable (o : ByteOrder)

/-- The stores of `createFeedback`, in their order. -/
def feedbackStores (ssrc : BitVec 32) (fb : Feedback) : List (Field × Nat) :=
  [(⟨0, 1⟩, 0x80),
    (⟨1, 1⟩, 207),
    (⟨2, 2⟩, hton o 2 6),
    (⟨4, 4⟩, hton o 4 ssrc.toNat),
    (⟨8, 1⟩, 0xFF),
    (⟨9, 1⟩, 0x00),
    (⟨10, 2⟩, hton o 2 4),
    (⟨12, 4⟩, hton o 4 fb.ssrc.toNat),
    (⟨16, 2⟩, hton o 2 fb.highestSeqNr.toNat),
    (⟨18, 2⟩, hton o 2 fb.ecnCeMarkedBytes),
    (⟨20, 4⟩, hton o 4 (((fb.ackVector >>> 32) &&& 0xFFFFFFFF).setWidth 32).toNat),
    (⟨24, 4⟩, hton o 4 ((fb.ackVector &&& 0xFFFFFFFF).setWidth 32).toNat),
    (⟨28, 4⟩, hton o 4 fb.receiveTimestamp)]

/-- What a call of `createFeedback` returns and leaves in its arguments. -/
structure Created where
  created : Bool
  buf : Mem
  size : Int
  rx : ScreamRx

def ScreamRx.isFeedback (s : ScreamRx) : Bool :=
  s.streams.any fun stream => decide (stream.nRtpSinceLastRtcp ≥ 1)

def ScreamRx.createFeedback (s : ScreamRx) (time_us : Nat) (buf : Mem) (size : Int) : Created :=
  if s.isFeedback then
    match s.getFeedback time_us with
    | (some fb, rx) => ⟨true, storeAll o buf (feedbackStores o s.ssrc fb), 32, rx⟩
    | (none, rx) => ⟨false, buf, 32, rx⟩
  else ⟨false, buf, size, s⟩

/-- The elements that the byte-level `incomingFeedback` takes out of a packet, if it
does not skip the packet. -/
def readFeedback (buf : Mem) (size : Int) : Option Feedback :=
  if size = 32 ∧ buf 0 = 0x80 ∧ buf 1 = 207 ∧ buf 8 = 255 then
    let ssrc := ntoh o 4 (Field.load o buf ⟨12, 4⟩)
    let seqNr := ntoh o 2 (Field.load o buf ⟨16, 2⟩)
    let ecnCeMarkedBytes := ntoh o 2 (Field.load o buf ⟨18, 2⟩)
    let tmp_l_1 := ntoh o 4 (Field.load o buf ⟨20, 4⟩)
    let tmp_l_2 := ntoh o 4 (Field.load o buf ⟨24, 4⟩)
    let timeStamp := ntoh o 4 (Field.load o buf ⟨28, 4⟩)
    some
      { ssrc := BitVec.ofNat 32 ssrc
        receiveTimestamp := timeStamp
        highestSeqNr := BitVec.ofNat 16 seqNr
        ackVector := BitVec.ofNat 64 tmp_l_1 <<< 32 ||| BitVec.ofNat 64 tmp_l_2
        ecnCeMarkedBytes := ecnCeMarkedBytes }
  else none

/-- The arguments of the field-level `incomingFeedback`. -/
def Feedback.arguments (fb : Feedback) (time_us : Nat) (overlong : Bool) : IncomingFeedback where
  time_us := time_us
  ssrc := fb.ssrc
  timestamp := fb.receiveTimestamp
  highestSeqNr := fb.highestSeqNr
  ackVector := fb.ackVector
  ecnCeMarkedBytes := BitVec.ofNat 16 fb.ecnCeMarkedBytes
  overlong := overlong

/-- `ScreamTx::incomingFeedback(time_us, buf, size)` -/
def ScreamTx.incomingPacket (s : ScreamTx) (time_us : Nat) (buf : Mem) (size : Int)
    (overlong : Bool) : ScreamTx :=
  match readFeedback o buf size with
  | none => s
  | some fb => s.incomingFeedback (fb.arguments time_us overlong)

end

variable {o : ByteOrder}

/-- The elements fit the types that the code gives them. -/
structure Feedback.InRange (fb : Feedback) : Prop where
  timestamp_lt : fb.receiveTimestamp < 2 ^ 32
  ecn_lt : fb.ecnCeMarkedBytes < 2 ^ 16

theorem feedbackStores_disjoint (ssrc : BitVec 32) (fb : Feedback) :
    ((feedbackStores o ssrc fb).map (·.1)).Pairwise Field.Disjoint := by
  have hfields : (feedbackStores o ssrc fb).map (·.1) =
      [⟨0, 1⟩, ⟨1, 1⟩, ⟨2, 2⟩, ⟨4, 4⟩, ⟨8, 1⟩, ⟨9, 1⟩, ⟨10, 2⟩, ⟨12, 4⟩, ⟨16, 2⟩, ⟨18, 2⟩,
        ⟨20, 4⟩, ⟨24, 4⟩, ⟨28, 4⟩] := rfl
  rw [hfields]
  decide

/-- A stored byte. -/
theorem storedByte {m : Mem} {ssrc : BitVec 32} {fb : Feedback} {offset v : Nat} (hv : v < 256)
    (h : (⟨offset, 1⟩, v) ∈ feedbackStores o ssrc fb) :
    storeAll o m (feedbackStores o ssrc fb) offset = UInt8.ofNat v := by
  have hload := load_storeAll (o := o) (m := m) (feedbackStores_disjoint ssrc fb) h
  rw [load_byte, Nat.pow_one, Nat.mod_eq_of_lt hv] at hload
  apply UInt8.toNat_inj.mp
  rw [hload, UInt8.toNat_ofNat', Nat.mod_eq_of_lt hv]

/-- A number stored in network order. -/
theorem storedNumber (m : Mem) (ssrc : BitVec 32) (fb : Feedback) (f : Field) (v : Nat)
    (hv : v < 256 ^ f.width) (h : (f, hton o f.width v) ∈ feedbackStores o ssrc fb) :
    ntoh o f.width (f.load o (storeAll o m (feedbackStores o ssrc fb))) = v := by
  rw [load_storeAll (feedbackStores_disjoint ssrc fb) h, Nat.mod_eq_of_lt (hton_lt o f.width v),
    ntoh_hton hv]

/-- The two words of the ACK vector make up the vector. -/
theorem ackVector_words (v : BitVec 64) :
    BitVec.ofNat 64 (((v >>> 32) &&& 0xFFFFFFFF).setWidth 32).toNat <<< 32
      ||| BitVec.ofNat 64 ((v &&& 0xFFFFFFFF).setWidth 32).toNat = v := by
  have hmask : (0xFFFFFFFF : BitVec 64) = (BitVec.allOnes 32).setWidth 64 := by decide
  rw [hmask, BitVec.ofNat_toNat, BitVec.ofNat_toNat]
  apply BitVec.eq_of_getLsbD_eq
  intro i hi
  simp only [BitVec.getLsbD_or, BitVec.getLsbD_shiftLeft, BitVec.getLsbD_setWidth,
    BitVec.getLsbD_and, BitVec.getLsbD_ushiftRight, BitVec.getLsbD_allOnes]
  by_cases hlow : i < 32
  · simp [hlow, hi]
  · have hshift : 32 + (i - 32) = i := by omega
    have hword : i - 32 < 32 := by omega
    have hwide : i - 32 < 64 := by omega
    simp [hlow, hi, hshift, hword, hwide]

/-- **The round trip**: the sender reads what the receiver wrote. -/
theorem readFeedback_storeAll (m : Mem) (ssrc : BitVec 32) {fb : Feedback} (h : fb.InRange) :
    readFeedback o (storeAll o m (feedbackStores o ssrc fb)) 32 = some fb := by
  have hV : storeAll o m (feedbackStores o ssrc fb) 0 = 0x80 :=
    storedByte (v := 0x80) (by decide) (by simp [feedbackStores])
  have hPT : storeAll o m (feedbackStores o ssrc fb) 1 = 207 :=
    storedByte (v := 207) (by decide) (by simp [feedbackStores])
  have hBT : storeAll o m (feedbackStores o ssrc fb) 8 = 255 :=
    storedByte (v := 0xFF) (by decide) (by simp [feedbackStores])
  have hssrc := storedNumber (o := o) m ssrc fb ⟨12, 4⟩ fb.ssrc.toNat
    fb.ssrc.isLt (by simp [feedbackStores])
  have hseqNr := storedNumber (o := o) m ssrc fb ⟨16, 2⟩ fb.highestSeqNr.toNat
    fb.highestSeqNr.isLt (by simp [feedbackStores])
  have hecn := storedNumber (o := o) m ssrc fb ⟨18, 2⟩ fb.ecnCeMarkedBytes
    h.ecn_lt (by simp [feedbackStores])
  have hhigh := storedNumber (o := o) m ssrc fb ⟨20, 4⟩
    (((fb.ackVector >>> 32) &&& 0xFFFFFFFF).setWidth 32).toNat
    (BitVec.isLt _) (by simp [feedbackStores])
  have hlow := storedNumber (o := o) m ssrc fb ⟨24, 4⟩
    ((fb.ackVector &&& 0xFFFFFFFF).setWidth 32).toNat
    (BitVec.isLt _) (by simp [feedbackStores])
  have htime := storedNumber (o := o) m ssrc fb ⟨28, 4⟩ fb.receiveTimestamp
    h.timestamp_lt (by simp [feedbackStores])
  rw [readFeedback, if_pos ⟨rfl, hV, hPT, hBT⟩, hssrc, hseqNr, hecn, hhigh, hlow, htime]
  dsimp only
  rw [ackVector_words]
  simp

end Scream
