import Mathlib.Data.BitVec
import RmcatNs3.Lib.Bytes

/-!
# Headers in front of a packet

Numbers of whole bytes that are written one after another in the byte order of the network, and
taken off a buffer again. A buffer that is too short gives nothing.
-/

namespace PacketHeaders

variable {w : Nat}

/-- The bytes of a number. -/
def writeHton (v : BitVec w) : List UInt8 := Bytes.encode (w / 8) v.toNat

/-- The number in front of a buffer, and what is behind it. -/
def readNtoh (w : Nat) (buffer : List UInt8) : Option (BitVec w × List UInt8) :=
  if buffer.length < w / 8 then none
  else some (BitVec.ofNat w (Bytes.decode (buffer.take (w / 8))), buffer.drop (w / 8))

@[simp] theorem length_writeHton (v : BitVec w) : (writeHton v).length = w / 8 :=
  Bytes.length_encode _ _

/-- **A number of whole bytes** is read back. -/
theorem readNtoh_writeHton (hbytes : 8 * (w / 8) = w) (v : BitVec w) (rest : List UInt8) :
    readNtoh w (writeHton v ++ rest) = some (v, rest) := by
  have hlong : ¬(writeHton v ++ rest).length < w / 8 := by
    rw [List.length_append, length_writeHton]
    omega
  have hlt : v.toNat < 256 ^ (w / 8) := by
    rw [show 256 = 2 ^ 8 from rfl, ← Nat.pow_mul, hbytes]
    exact v.isLt
  rw [readNtoh, if_neg hlong, List.take_left' (length_writeHton v),
    List.drop_left' (length_writeHton v), writeHton, Bytes.decode_encode_of_lt hlt,
    BitVec.ofNat_toNat, BitVec.setWidth_eq]

end PacketHeaders
