import Mathlib.Data.BitVec
import RmcatNs3.Lib.PacketHeaders

/-!
# The rmcat receiver

`nada/ns3-rmcat/model/apps/rmcat-header.{h,cc}` and `rmcat-receiver.{h,cc}`: the two headers
of the rmcat applications and the one that answers every media packet with a feedback packet.
A socket is the datagrams that it has not been read of. `Print` is left out.
-/

namespace Rmcat

/-- `InetSocketAddress`. -/
structure InetSocketAddress where
  ip : BitVec 32
  port : BitVec 16
  deriving DecidableEq, Repr

/-- Where an application stops. -/
inductive AppFailure where
  | shortBuffer
  | emptySocket
  | otherFlow
  | otherAddress
  deriving DecidableEq, Repr

/-! ## Headers -/

/-- `WriteHtonU32` and `WriteHtonU64`. -/
def writeHton {w : Nat} (v : BitVec w) : List UInt8 := PacketHeaders.writeHton v

/-- `ReadNtohU32` and `ReadNtohU64`. -/
def readNtoh (w : Nat) (buffer : List UInt8) : Except AppFailure (BitVec w × List UInt8) :=
  (PacketHeaders.readNtoh w buffer).elim (.error .shortBuffer) .ok

theorem readNtoh_writeHton {w : Nat} (hbytes : 8 * (w / 8) = w) (v : BitVec w)
    (rest : List UInt8) : readNtoh w (writeHton v ++ rest) = .ok (v, rest) := by
  rw [readNtoh, writeHton, PacketHeaders.readNtoh_writeHton hbytes]
  rfl

structure MediaHeader where
  flowId : BitVec 32
  sequence : BitVec 32
  sendTstmp : BitVec 64
  packetSize : BitVec 32
  deriving DecidableEq, Repr

namespace MediaHeader

/-- `MediaHeader::Serialize`. -/
def serialize (header : MediaHeader) : List UInt8 :=
  writeHton header.flowId ++ (writeHton header.sequence ++
    (writeHton header.sendTstmp ++ writeHton header.packetSize))

/-- `MediaHeader::Deserialize`, with what is left of the packet. -/
def deserialize (buffer : List UInt8) : Except AppFailure (MediaHeader × List UInt8) := do
  let (flowId, buffer) ← readNtoh 32 buffer
  let (sequence, buffer) ← readNtoh 32 buffer
  let (sendTstmp, buffer) ← readNtoh 64 buffer
  let (packetSize, buffer) ← readNtoh 32 buffer
  .ok (⟨flowId, sequence, sendTstmp, packetSize⟩, buffer)

theorem deserialize_serialize (header : MediaHeader) (payload : List UInt8) :
    deserialize (header.serialize ++ payload) = .ok (header, payload) := by
  simp only [deserialize, serialize, List.append_assoc]
  rw [readNtoh_writeHton rfl]
  simp only [bind, Except.bind]
  rw [readNtoh_writeHton rfl]
  simp only
  rw [readNtoh_writeHton rfl]
  simp only
  rw [readNtoh_writeHton rfl]

end MediaHeader

structure FeedbackHeader where
  flowId : BitVec 32
  sequence : BitVec 32
  receiveTstmp : BitVec 64
  deriving DecidableEq, Repr

namespace FeedbackHeader

/-- `FeedbackHeader::Serialize`. -/
def serialize (header : FeedbackHeader) : List UInt8 :=
  writeHton header.flowId ++ (writeHton header.sequence ++ writeHton header.receiveTstmp)

/-- `FeedbackHeader::Deserialize`, with what is left of the packet. -/
def deserialize (buffer : List UInt8) : Except AppFailure (FeedbackHeader × List UInt8) := do
  let (flowId, buffer) ← readNtoh 32 buffer
  let (sequence, buffer) ← readNtoh 32 buffer
  let (receiveTstmp, buffer) ← readNtoh 64 buffer
  .ok (⟨flowId, sequence, receiveTstmp⟩, buffer)

theorem deserialize_serialize (header : FeedbackHeader) (payload : List UInt8) :
    deserialize (header.serialize ++ payload) = .ok (header, payload) := by
  simp only [deserialize, serialize, List.append_assoc]
  rw [readNtoh_writeHton rfl]
  simp only [bind, Except.bind]
  rw [readNtoh_writeHton rfl]
  simp only
  rw [readNtoh_writeHton rfl]

end FeedbackHeader

/-! ## The receiver -/

structure RmcatReceiver where
  running : Bool
  waiting : Bool
  srcId : BitVec 32
  src : InetSocketAddress
  deriving DecidableEq, Repr

namespace RmcatReceiver

/-- `Setup`. -/
def setup : RmcatReceiver where
  running := false
  waiting := true
  srcId := 0
  src := ⟨0, 0⟩

def startApplication (r : RmcatReceiver) : RmcatReceiver := { r with running := true }

def stopApplication (r : RmcatReceiver) : RmcatReceiver := { r with running := false }

/-- The part of `RecvPacket` that remembers the source, or checks it. -/
def accept (r : RmcatReceiver) (remoteAddr : InetSocketAddress) (flowId : BitVec 32) :
    Except AppFailure RmcatReceiver :=
  if r.waiting then .ok { r with waiting := false, srcId := flowId, src := remoteAddr }
  else if r.srcId ≠ flowId then .error .otherFlow
  else if r.src ≠ remoteAddr then .error .otherAddress
  else .ok r

/-- The packet of `SendFeedback`. -/
def sendFeedback (r : RmcatReceiver) (sequence : BitVec 32) (recvTimestamp : BitVec 64) :
    List UInt8 :=
  (FeedbackHeader.mk r.srcId sequence recvTimestamp).serialize

/-- What `RecvPacket` does with a packet: the feedback, where it goes, and the delay that the
callback gets. -/
def takePacket (r : RmcatReceiver) (now : BitVec 64) (remoteAddr : InetSocketAddress)
    (packet : List UInt8) :
    Except AppFailure (RmcatReceiver × List UInt8 × InetSocketAddress × BitVec 64) := do
  let (header, _) ← MediaHeader.deserialize packet
  let r ← r.accept remoteAddr header.flowId
  .ok (r, r.sendFeedback header.sequence now, r.src, now - header.sendTstmp)

end RmcatReceiver

end Rmcat
