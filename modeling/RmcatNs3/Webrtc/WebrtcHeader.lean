import RmcatNs3.Razor.HeaderReading

/-!
# The header of the WebRTC application

`webrtc-ns3/model/webrtcheader.{h,cc}`: a second header in the manner of the razor
one, with structs and switches of its own. The calls on the iterator of a buffer are
those of the razor header. Feedback has no struct: its bytes travel behind the header.
`Print` and `m_len` are left out: no function reads them.
-/

namespace Webrtc

open StructMemory
open Razor.RazorHeader (put putArray Reading getField getArray)

/-! ## Messages -/

/-- `ProtoType`, without its two bounds. -/
inductive ProtoType where
  | connect
  | connectAck
  | disconnect
  | disconnectAck
  | ping
  | pong
  | seg
  | segAck
  | feedback
  deriving DecidableEq, Repr

def ProtoType.mid : ProtoType → UInt8
  | .connect => 1
  | .connectAck => 2
  | .disconnect => 3
  | .disconnectAck => 4
  | .ping => 5
  | .pong => 6
  | .seg => 7
  | .segAck => 8
  | .feedback => 9

/-- The case a `switch (m_mid)` takes; `none` is `default`. -/
def ProtoType.ofMid (mid : UInt8) : Option ProtoType :=
  [.connect, .connectAck, .disconnect, .disconnectAck, .ping, .pong, .seg, .segAck,
    .feedback].find? fun k => k.mid == mid

def webrtcNackNum : Nat := 80
def maxWebrtcHeaderLen : Nat := 1400

namespace ProtoConnect
def cid : Field := ⟨0, 4⟩
def struct : Struct where
  fields := [cid]
  array := none
  size := 4
  fits := by decide
  disjoint := by decide
  array_fits := by rintro _ _ ⟨⟩
end ProtoConnect

namespace ProtoConnectAck
def cid : Field := ⟨0, 4⟩
def result : Field := ⟨4, 4⟩
def struct : Struct where
  fields := [cid, result]
  array := none
  size := 8
  fits := by decide
  disjoint := by decide
  array_fits := by rintro _ _ ⟨⟩
end ProtoConnectAck

-- `proto_disconnect_t`, and `proto_disconnect_ack_t`
namespace ProtoDisconnect
def cid : Field := ⟨0, 4⟩
def struct : Struct where
  fields := [cid]
  array := none
  size := 4
  fits := by decide
  disjoint := by decide
  array_fits := by rintro _ _ ⟨⟩
end ProtoDisconnect

-- `proto_ping_t`, and `proto_pong_t`
namespace ProtoPing
def ts : Field := ⟨0, 8⟩
def struct : Struct where
  fields := [ts]
  array := none
  size := 8
  fits := by decide
  disjoint := by decide
  array_fits := by rintro _ _ ⟨⟩
end ProtoPing

namespace ProtoSegment
def packetId : Field := ⟨0, 4⟩
def fid : Field := ⟨4, 4⟩
def timestamp : Field := ⟨8, 4⟩
def index : Field := ⟨12, 2⟩
def total : Field := ⟨14, 2⟩
def ftype : Field := ⟨16, 1⟩
def remb : Field := ⟨17, 1⟩
def sendTs : Field := ⟨18, 2⟩
def transportSeq : Field := ⟨20, 2⟩
def dataSize : Field := ⟨22, 2⟩
def struct : Struct where
  fields := [packetId, fid, timestamp, index, total, ftype, remb, sendTs, transportSeq,
    dataSize]
  array := none
  size := 24
  fits := by decide
  disjoint := by decide
  array_fits := by rintro _ _ ⟨⟩
end ProtoSegment

-- one byte of padding separates `nack_num` from `nack`
namespace ProtoSegmentAck
def basePacketId : Field := ⟨0, 4⟩
def ackedPacketId : Field := ⟨4, 4⟩
def nackNum : Field := ⟨8, 1⟩
def nack : ArrayField := ⟨10, 2, webrtcNackNum⟩
def struct : Struct where
  fields := [basePacketId, ackedPacketId, nackNum]
  array := some (nackNum, nack)
  size := 172
  fits := by decide
  disjoint := by decide
  array_fits := by rintro _ _ ⟨⟩; decide
end ProtoSegmentAck

/-- What a message without a struct holds. -/
def noMessage : Struct where
  fields := []
  array := none
  size := 0
  fits := by decide
  disjoint := by decide
  array_fits := by rintro _ _ ⟨⟩

/-- The struct of each message. -/
def ProtoType.struct : ProtoType → Struct
  | .connect => ProtoConnect.struct
  | .connectAck => ProtoConnectAck.struct
  | .disconnect => ProtoDisconnect.struct
  | .disconnectAck => ProtoDisconnect.struct
  | .ping => ProtoPing.struct
  | .pong => ProtoPing.struct
  | .seg => ProtoSegment.struct
  | .segAck => ProtoSegmentAck.struct
  | .feedback => noMessage

/-! ## The header object -/

structure WebrtcHeader where
  mid : UInt8
  uid : UInt32
  message : Mem

namespace WebrtcHeader

/-- `WebrtcHeader::WebrtcHeader`, which leaves `m_mid` and `m_uid` as they are in
memory. -/
def new (mid : UInt8) (uid : UInt32) : WebrtcHeader where
  mid := mid
  uid := uid
  message := fun _ => 0

def setMid (h : WebrtcHeader) (mid : UInt8) : WebrtcHeader := { h with mid := mid }

def setUid (h : WebrtcHeader) (uid : UInt32) : WebrtcHeader := { h with uid := uid }

/-- `sizeof(m_mid) + sizeof(m_uid)`, and the struct. -/
def getSerializedSize (h : WebrtcHeader) : Nat :=
  5 + match ProtoType.ofMid h.mid with
    | some .connect => ProtoConnect.struct.size
    | some .connectAck => ProtoConnectAck.struct.size
    | some .disconnect | some .disconnectAck => ProtoDisconnect.struct.size
    | some .ping | some .pong => ProtoPing.struct.size
    | some .seg => ProtoSegment.struct.size
    | some .segAck => ProtoSegmentAck.struct.size
    | some .feedback => 0
    | none => 0

section

variable (o : ByteOrder)

def getMessageLen (mid : UInt8) (message : Mem) : Nat :=
  match ProtoType.ofMid mid with
  | some .connect => ProtoConnect.struct.size
  | some .connectAck => ProtoConnectAck.struct.size
  | some .disconnect | some .disconnectAck => ProtoDisconnect.struct.size
  | some .ping | some .pong => ProtoPing.struct.size
  | some .seg => ProtoSegment.struct.size
  | some .segAck => 4 + 4 + 1 + ProtoSegmentAck.nackNum.load o message * 2
  | some .feedback => 0
  | none => 0

/-- `SetMessagePayload`; `none` when its assertion fails. -/
def setMessagePayload (h : WebrtcHeader) (buf : Mem) (buflen : Nat) :
    Option (Nat × WebrtcHeader) :=
  if 0 < buflen ∧ buflen ≤ maxWebrtcHeaderLen then
    let len := getMessageLen o h.mid buf
    some (len, { h with message := memcpy h.message buf len })
  else none

/-- `GetMessage` into the buffer `buf`. -/
def getMessage (h : WebrtcHeader) (buf : Mem) (buflen : Nat) : Nat × Mem :=
  let len := getMessageLen o h.mid h.message
  if len > buflen then (0, buf) else (len, memcpy buf h.message len)

/-! ## Serialization -/

def serializeBody (k : ProtoType) (message : Mem) : List UInt8 :=
  match k with
  | .connect => put o message ProtoConnect.cid
  | .connectAck => put o message ProtoConnectAck.cid ++ put o message ProtoConnectAck.result
  | .disconnect => put o message ProtoDisconnect.cid
  | .disconnectAck => put o message ProtoDisconnect.cid
  | .ping => put o message ProtoPing.ts
  | .pong => put o message ProtoPing.ts
  | .seg =>
      put o message ProtoSegment.packetId
        ++ put o message ProtoSegment.fid
        ++ put o message ProtoSegment.timestamp
        ++ put o message ProtoSegment.index
        ++ put o message ProtoSegment.total
        ++ put o message ProtoSegment.ftype
        ++ put o message ProtoSegment.remb
        ++ put o message ProtoSegment.sendTs
        ++ put o message ProtoSegment.transportSeq
        ++ put o message ProtoSegment.dataSize
  | .segAck =>
      put o message ProtoSegmentAck.basePacketId
        ++ put o message ProtoSegmentAck.ackedPacketId
        ++ put o message ProtoSegmentAck.nackNum
        ++ putArray o message ProtoSegmentAck.nack (ProtoSegmentAck.nackNum.load o message)
  | .feedback => []

/-- The bytes that `Serialize` writes; `none` when its assertion fails. -/
def serialize (h : WebrtcHeader) : Option (List UInt8) :=
  (ProtoType.ofMid h.mid).map fun k =>
    [h.mid] ++ Bytes.encode 4 h.uid.toNat ++ serializeBody o k h.message

/-! ## Deserialization -/

def deserializeBody (k : ProtoType) (buf : Mem) (r : Reading) : Reading :=
  match k with
  | .connect => getField o buf ProtoConnect.cid r
  | .connectAck =>
      let r := getField o buf ProtoConnectAck.cid r
      getField o buf ProtoConnectAck.result r
  | .disconnect => getField o buf ProtoDisconnect.cid r
  | .disconnectAck => getField o buf ProtoDisconnect.cid r
  | .ping => getField o buf ProtoPing.ts r
  | .pong => getField o buf ProtoPing.ts r
  | .seg =>
      let r := getField o buf ProtoSegment.packetId r
      let r := getField o buf ProtoSegment.fid r
      let r := getField o buf ProtoSegment.timestamp r
      let r := getField o buf ProtoSegment.index r
      let r := getField o buf ProtoSegment.total r
      let r := getField o buf ProtoSegment.ftype r
      let r := getField o buf ProtoSegment.remb r
      let r := getField o buf ProtoSegment.sendTs r
      let r := getField o buf ProtoSegment.transportSeq r
      getField o buf ProtoSegment.dataSize r
  | .segAck =>
      let r := getField o buf ProtoSegmentAck.basePacketId r
      let r := getField o buf ProtoSegmentAck.ackedPacketId r
      let r := getField o buf ProtoSegmentAck.nackNum r
      getArray o buf ProtoSegmentAck.nack (ProtoSegmentAck.nackNum.load o r.message) r
  | .feedback => r

/-- `Deserialize`: the size it returns and the header it leaves. -/
def deserialize (h : WebrtcHeader) (buf : Mem) : Nat × WebrtcHeader :=
  let mid := buf 0
  let uid := UInt32.ofNat (Bytes.decode (bytesAt buf 1 4))
  let start : Reading := ⟨5, h.message, []⟩
  let reading := match ProtoType.ofMid mid with
    | some k => deserializeBody o k buf start
    | none => start
  let header : WebrtcHeader := ⟨mid, uid, reading.message⟩
  (header.getSerializedSize, header)

end

end WebrtcHeader

end Webrtc
