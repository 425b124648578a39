import Mathlib.Data.BitVec

/-!
# Messages of the razor protocol

The messages that two endpoints of `razor-ns3` or `multipathvideo` exchange, as
their handlers read them. `RazorHeader` has their layout in memory and on the
wire.
-/

namespace Razor

/-- `sim_segment_t`. -/
structure Segment where
  packetId : BitVec 32
  fid : BitVec 32
  timestamp : BitVec 32
  index : BitVec 16
  total : BitVec 16
  ftype : BitVec 8
  remb : BitVec 8
  sendTs : BitVec 16
  transportSeq : BitVec 16
  dataSize : BitVec 16
  deriving DecidableEq, Repr

inductive SimMessage where
  | connect (cid : BitVec 32) (token : List (BitVec 8))
  | connectAck (cid result : BitVec 32)
  | disconnect (cid : BitVec 32)
  | disconnectAck (cid result : BitVec 32)
  | ping (ts : BitVec 64)
  | pong (ts : BitVec 64)
  | seg (seg : Segment)
  | segAck (basePacketId ackedPacketId : BitVec 32) (nack : List (BitVec 16))
  | feedback (basePacketId : BitVec 32) (feedback : List (BitVec 8))
  deriving DecidableEq, Repr

def SimMessage.isConnect : SimMessage → Bool
  | .connect _ _ => true
  | _ => false

/-- `sizeof(sim_header_t) + sizeof(sim_segment_t)`, in one byte. -/
def headerLen : BitVec 8 := 8 + 24

end Razor
