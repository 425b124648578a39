import RmcatNs3.Multipath.PathAddress
import RmcatNs3.Razor.SimMessage

/-!
# The multipath receiver

`multipathvideo/model/mpreceiver.{h,cc}` and `recvpath.{h,cc}`: the receiver
looks up the path of a packet by the addresses and ports of the packet, and makes
a new path where it finds none. A pointer to a `ReceivePath` is the number of the
object in the order in which they were made.
-/

namespace Multipath

open Razor

/-- `PathSession`. -/
inductive PathSession where
  | idle
  | connecting
  | connected
  | disconnecting
  | disconnected
  deriving DecidableEq, Repr

/-- A packet handed to the socket of `srcIp`. -/
structure Datagram where
  srcIp : Ipv4Address
  destIp : Ipv4Address
  destPort : Port
  uid : BitVec 32
  message : SimMessage
  payload : Nat
  deriving DecidableEq, Repr

structure ReceivePath where
  pathId : BitVec 32
  info : PathAddressInfo
  pathState : PathSession
  deriving DecidableEq, Repr

structure MpReceiver where
  uid : BitVec 32
  cid : BitVec 32
  pathNum : BitVec 32
  paths : ComparatorMap PathAddressInfo Nat compPath
  objects : List ReceivePath
  sent : List Datagram

namespace MpReceiver

/-- A receiver after `Init` and `Bind`. -/
def new (uid cid : BitVec 32) : MpReceiver where
  uid := uid
  cid := cid
  pathNum := 0
  paths := .empty
  objects := []
  sent := []

/-- `MpReceiver::OnPacketPlugin`. -/
def onPacketPlugin (r : MpReceiver) (info : PathAddressInfo) (message : SimMessage) :
    MpReceiver :=
  { r with sent := r.sent ++
      [⟨info.srcIp, info.destIp, info.destPort, r.uid, message, 0⟩] }

/-- `ReceivePath::ProcessMessage`, on the path behind a pointer. -/
def processMessage (r : MpReceiver) (path : Nat) (message : SimMessage) : MpReceiver :=
  match message, r.objects[path]? with
  | .connect cid _, some p =>
      let objects := r.objects.set path { p with pathState := .connected }
      { r with objects }.onPacketPlugin p.info (.connectAck cid 0)
  -- a segment is only logged, and everything else waits for future processing
  | _, _ => r

/-- `MpReceiver::RecvPacket`, with the path that the packet is given to. -/
def recvPacket (r : MpReceiver) (info : PathAddressInfo) (message : SimMessage) :
    MpReceiver × Nat :=
  match r.paths.find? info with
  | some b => (r.processMessage b.2 message, b.2)
  | none =>
      let path := r.objects.length
      let object : ReceivePath := ⟨r.pathNum, info, .idle⟩
      let r := { r with
        objects := r.objects ++ [object]
        paths := r.paths.insert info path
        pathNum := r.pathNum + 1 }
      (r.processMessage path message, path)

@[simp] theorem processMessage_paths (r : MpReceiver) (path : Nat) (message : SimMessage) :
    (r.processMessage path message).paths = r.paths := by
  unfold processMessage
  split <;> rfl

@[simp] theorem processMessage_length (r : MpReceiver) (path : Nat) (message : SimMessage) :
    (r.processMessage path message).objects.length = r.objects.length := by
  unfold processMessage
  split
  · simp [onPacketPlugin]
  · rfl

/-- A packet whose path is found goes to that path. -/
theorem recvPacket_found {r : MpReceiver} {info : PathAddressInfo}
    {b : PathAddressInfo × Nat} (h : r.paths.find? info = some b) (message : SimMessage) :
    (r.recvPacket info message).2 = b.2 ∧
    (r.recvPacket info message).1.paths = r.paths ∧
    (r.recvPacket info message).1.objects.length = r.objects.length := by
  simp [recvPacket, h]

/-- A packet whose path is not found goes to a new path. -/
theorem recvPacket_new {r : MpReceiver} {info : PathAddressInfo}
    (h : r.paths.find? info = none) (message : SimMessage) :
    (r.recvPacket info message).2 = r.objects.length ∧
    (r.recvPacket info message).1.paths = r.paths.insert info r.objects.length ∧
    (r.recvPacket info message).1.objects.length = r.objects.length + 1 := by
  simp [recvPacket, h]

end MpReceiver

end Multipath
