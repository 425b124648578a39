import RmcatNs3.Lib.EventQueue
import RmcatNs3.Multipath.MpReceiver

/-!
# Sessions of WebRTC

What the two applications of `webrtc-ns3` share: the messages of `webrtcheader.h`, the
round trip times that pongs report, and the path states of `mpcommon.h`.
-/

namespace Webrtc

/-- `proto_segment_t` -/
structure Segment where
  packetId : BitVec 32
  fid : BitVec 32
  timestamp : BitVec 32
  index : BitVec 16
  total : BitVec 16
  ftype : BitVec 8
  remb : BitVec 8
  sendTs : BitVec 16
  transportSeq : BitVec 16
  dataSize : BitVec 16
  deriving DecidableEq, Repr

inductive WebrtcMessage where
  | connect (cid : BitVec 32)
  | connectAck (cid result : BitVec 32)
  | ping (ts : BitVec 64)
  | pong (ts : BitVec 64)
  | seg (seg : Segment)
  | feedback (payload : List (BitVec 8))
  /-- A message that neither application handles. -/
  | other (mid : BitVec 8)
  deriving DecidableEq, Repr

/-- A packet handed to the socket, with the size of the payload behind its header. -/
structure SentPacket where
  destIp : BitVec 32
  destPort : BitVec 16
  uid : BitVec 32
  message : WebrtcMessage
  payload : Nat
  deriving DecidableEq, Repr

/-- The round trip times, in milliseconds. -/
structure RttRecord where
  rtt : Nat
  sumRtt : Nat
  numRtt : Nat
  maxRtt : Nat

def RttRecord.new : RttRecord := ⟨100, 0, 0, 0⟩

/-- `keep_rtt` -/
def keepRtt (nowMs : Nat) (ts : BitVec 64) : Nat :=
  let now := BitVec.ofNat 64 nowMs
  if (ts + 5).slt now then ((now - ts).setWidth 32).toNat else 5

/-- `ProcessPong`, apart from what it tells the controller. -/
def RttRecord.processPong (r : RttRecord) (keepRtt : Nat) : RttRecord :=
  if r.numRtt = 0 then ⟨keepRtt, keepRtt, 1, keepRtt⟩
  else ⟨keepRtt, r.sumRtt + keepRtt, r.numRtt + 1, max r.maxRtt keepRtt⟩

/-- The interval of `ProcessModule`, in milliseconds. -/
def nextCheckpoint : Nat := 5

end Webrtc
