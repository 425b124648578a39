import RmcatNs3.Lib.StructMemory

/-!
# The razor header

`razor-ns3/model/razor_header.{h,cc}` (and its copy in `multipathvideo`): the
ns-3 header that carries the messages of the razor protocol. A message
travels as a C struct in host memory (`m_message`), and as big-endian fields
on the wire. The byte order of the host is a parameter; struct layouts are the
natural ones. Every function below has its own switch over the message kinds,
as in the source. `Print` and `m_len` are left out: no function reads them.
-/

namespace Razor

open StructMemory

/-! ## Messages -/

/-- `RazorProtoType`, without its two bounds. -/
inductive RazorProtoType where
  | connect
  | connectAck
  | disconnect
  | disconnectAck
  | ping
  | pong
  | seg
  | segAck
  | feedback
  deriving DecidableEq, Repr

/-- The constant that a `switch (mid)` compares with. -/
def RazorProtoType.mid : RazorProtoType → UInt8
  | .connect => 1
  | .connectAck => 2
  | .disconnect => 3
  | .disconnectAck => 4
  | .ping => 5
  | .pong => 6
  | .seg => 7
  | .segAck => 8
  | .feedback => 9

/-- The case a `switch (mid)` takes; `none` is `default`. -/
def RazorProtoType.ofMid (mid : UInt8) : Option RazorProtoType :=
  [.connect, .connectAck, .disconnect, .disconnectAck, .ping, .pong, .seg,
    .segAck, .feedback].find? fun k => k.mid == mid

def protocolVer : UInt8 := 1
def simTokenSize : Nat := 128
def nackNum : Nat := 80
def simFeedbackSize : Nat := 1000
def maxMsglen : Nat := 1400

namespace SimConnect
def cid : Field := ⟨0, 4⟩
def tokenSize : Field := ⟨4, 2⟩
def token : ArrayField := ⟨6, 1, simTokenSize⟩
def struct : Struct where
  fields := [cid, tokenSize]
  array := some (tokenSize, token)
  size := 136
  fits := by decide
  disjoint := by decide
  array_fits := by rintro _ _ ⟨⟩; decide
end SimConnect

-- `sim_connect_ack_t`, and `sim_disconnect_ack_t`
namespace SimConnectAck
def cid : Field := ⟨0, 4⟩
def result : Field := ⟨4, 4⟩
def struct : Struct where
  fields := [cid, result]
  array := none
  size := 8
  fits := by decide
  disjoint := by decide
  array_fits := by rintro _ _ ⟨⟩
end SimConnectAck

namespace SimDisconnect
def cid : Field := ⟨0, 4⟩
def struct : Struct where
  fields := [cid]
  array := none
  size := 4
  fits := by decide
  disjoint := by decide
  array_fits := by rintro _ _ ⟨⟩
end SimDisconnect

namespace SimSegment
def packetId : Field := ⟨0, 4⟩
def fid : Field := ⟨4, 4⟩
def timestamp : Field := ⟨8, 4⟩
def index : Field := ⟨12, 2⟩
def total : Field := ⟨14, 2⟩
def ftype : Field := ⟨16, 1⟩
def remb : Field := ⟨17, 1⟩
def sendTs : Field := ⟨18, 2⟩
def transportSeq : Field := ⟨20, 2⟩
def dataSize : Field := ⟨22, 2⟩
def struct : Struct where
  fields := [packetId, fid, timestamp, index, total, ftype, remb, sendTs,
    transportSeq, dataSize]
  array := none
  size := 24
  fits := by decide
  disjoint := by decide
  array_fits := by rintro _ _ ⟨⟩
end SimSegment

-- one byte of padding separates `nack_num` from `nack`
namespace SimSegmentAck
def basePacketId : Field := ⟨0, 4⟩
def ackedPacketId : Field := ⟨4, 4⟩
def nackNum : Field := ⟨8, 1⟩
def nack : ArrayField := ⟨10, 2, Razor.nackNum⟩
def struct : Struct where
  fields := [basePacketId, ackedPacketId, nackNum]
  array := some (nackNum, nack)
  size := 172
  fits := by decide
  disjoint := by decide
  array_fits := by rintro _ _ ⟨⟩; decide
end SimSegmentAck

-- `sim_ping_t`, and `sim_pong_t`
namespace SimPing
def ts : Field := ⟨0, 8⟩
def struct : Struct where
  fields := [ts]
  array := none
  size := 8
  fits := by decide
  disjoint := by decide
  array_fits := by rintro _ _ ⟨⟩
end SimPing

namespace SimFeedback
def basePacketId : Field := ⟨0, 4⟩
def feedbackSize : Field := ⟨4, 2⟩
def feedback : ArrayField := ⟨6, 1, simFeedbackSize⟩
def struct : Struct where
  fields := [basePacketId, feedbackSize]
  array := some (feedbackSize, feedback)
  size := 1008
  fits := by decide
  disjoint := by decide
  array_fits := by rintro _ _ ⟨⟩; decide
end SimFeedback

/-- The struct of each message. -/
def RazorProtoType.struct : RazorProtoType → Struct
  | .connect => SimConnect.struct
  | .connectAck => SimConnectAck.struct
  | .disconnect => SimDisconnect.struct
  | .disconnectAck => SimConnectAck.struct
  | .ping => SimPing.struct
  | .pong => SimPing.struct
  | .seg => SimSegment.struct
  | .segAck => SimSegmentAck.struct
  | .feedback => SimFeedback.struct

/-! ## The header object -/

/-- `sim_header_t`. -/
structure SimHeader where
  ver : UInt8
  mid : UInt8
  uid : UInt32
  deriving DecidableEq, Repr

structure RazorHeader where
  ver : UInt8
  mid : UInt8
  uid : UInt32
  message : Mem

namespace RazorHeader

/-- `RazorHeader::RazorHeader`, which leaves `m_mid` and `m_uid` as they are
in memory. -/
def new (mid : UInt8) (uid : UInt32) : RazorHeader where
  ver := protocolVer
  mid := mid
  uid := uid
  message := fun _ => 0

def setHeader (h : RazorHeader) (header : SimHeader) : RazorHeader :=
  { h with ver := header.ver, mid := header.mid, uid := header.uid }

def getHeader (h : RazorHeader) : SimHeader := ⟨h.ver, h.mid, h.uid⟩

/-- `sizeof(m_ver) + sizeof(m_mid) + sizeof(m_uid)`, and the struct. -/
def getSerializedSize (h : RazorHeader) : Nat :=
  6 + match RazorProtoType.ofMid h.mid with
    | some .connect => SimConnect.struct.size
    | some .connectAck => SimConnectAck.struct.size
    | some .disconnect => SimDisconnect.struct.size
    | some .disconnectAck => SimConnectAck.struct.size
    | some .ping => SimPing.struct.size
    | some .pong => SimPing.struct.size
    | some .seg => SimSegment.struct.size
    | some .segAck => SimSegmentAck.struct.size
    | some .feedback => SimFeedback.struct.size
    | none => 0

section

variable (o : ByteOrder)

/-- The acknowledgements and `disconnect` fall through to the case of
`ping`. -/
def getMessageLen (mid : UInt8) (message : Mem) : Nat :=
  match RazorProtoType.ofMid mid with
  | some .connect =>
      4 + 2 + SimConnect.tokenSize.load o message * 1
  | some .connectAck | some .disconnect | some .disconnectAck
  | some .ping | some .pong => SimPing.struct.size
  | some .seg => SimSegment.struct.size
  | some .segAck =>
      4 + 4 + 1 + SimSegmentAck.nackNum.load o message * 2
  | some .feedback =>
      4 + 2 + SimFeedback.feedbackSize.load o message * 1
  | none => 0

/-- `SetMessagePayload`; `none` when its assertion fails. -/
def setMessagePayload (h : RazorHeader) (buf : Mem) (buflen : Nat) :
    Option (Nat × RazorHeader) :=
  if 0 < buflen ∧ buflen ≤ maxMsglen then
    let len := getMessageLen o h.mid buf
    some (len, { h with message := memcpy h.message buf len })
  else none

/-- `GetMessage` into the buffer `buf`. -/
def getMessage (h : RazorHeader) (buf : Mem) (buflen : Nat) : Nat × Mem :=
  let len := getMessageLen o h.mid h.message
  if len > buflen then (0, buf) else (len, memcpy buf h.message len)

/-! ## Serialization -/

/-- `WriteU8` and `WriteHtonU16/32/64` of a member. -/
def put (message : Mem) (f : Field) : List UInt8 :=
  Bytes.encode f.width (f.load o message)

/-- The loop over the first `n` elements of an array. -/
def putArray (message : Mem) (a : ArrayField) (n : Nat) : List UInt8 :=
  (List.range n).flatMap fun i => put o message (a.elem i)

def serializeBody (k : RazorProtoType) (message : Mem) : List UInt8 :=
  match k with
  | .connect =>
      put o message SimConnect.cid
        ++ put o message SimConnect.tokenSize
        ++ putArray o message SimConnect.token (SimConnect.tokenSize.load o message)
  | .connectAck =>
      put o message SimConnectAck.cid ++ put o message SimConnectAck.result
  | .disconnect => put o message SimDisconnect.cid
  -- the result is not written
  | .disconnectAck => put o message SimConnectAck.cid
  | .ping => put o message SimPing.ts
  | .pong => put o message SimPing.ts
  | .seg =>
      put o message SimSegment.packetId
        ++ put o message SimSegment.fid
        ++ put o message SimSegment.timestamp
        ++ put o message SimSegment.index
        ++ put o message SimSegment.total
        ++ put o message SimSegment.ftype
        ++ put o message SimSegment.remb
        ++ put o message SimSegment.sendTs
        ++ put o message SimSegment.transportSeq
        ++ put o message SimSegment.dataSize
  | .segAck =>
      put o message SimSegmentAck.basePacketId
        ++ put o message SimSegmentAck.ackedPacketId
        ++ put o message SimSegmentAck.nackNum
        ++ putArray o message SimSegmentAck.nack
            (SimSegmentAck.nackNum.load o message)
  | .feedback =>
      put o message SimFeedback.basePacketId
        ++ put o message SimFeedback.feedbackSize
        ++ putArray o message SimFeedback.feedback
            (SimFeedback.feedbackSize.load o message)

/-- The bytes that `Serialize` writes; `none` when its assertion fails. -/
def serialize (h : RazorHeader) : Option (List UInt8) :=
  (RazorProtoType.ofMid h.mid).map fun k =>
    [h.ver, h.mid] ++ Bytes.encode 4 h.uid.toNat ++ serializeBody o k h.message

/-! ## Deserialization -/

/-- A store into `m_message`: the bytes it covers, and for an array element
its index and the capacity of the array. -/
structure Store where
  field : Field
  element : Option (Nat × Nat)
  deriving DecidableEq, Repr

/-- The state of `Deserialize`: the position of the iterator, the message, and
the stores made so far. -/
structure Reading where
  pos : Nat
  message : Mem
  stores : List Store

/-- `ReadU8` or `ReadNtohU16/32/64` at the iterator, stored in a member. -/
def get (buf : Mem) (f : Field) (element : Option (Nat × Nat)) (r : Reading) :
    Reading where
  pos := r.pos + f.width
  message := f.store o r.message (Bytes.decode (bytesAt buf r.pos f.width))
  stores := r.stores ++ [⟨f, element⟩]

def getField (buf : Mem) (f : Field) (r : Reading) : Reading :=
  get o buf f none r

/-- The loop over the first `n` elements of an array, with whatever `n` the
wire gave. -/
def getArray (buf : Mem) (a : ArrayField) (n : Nat) (r : Reading) : Reading :=
  (List.range n).foldl
    (fun r i => get o buf (a.elem i) (some (i, a.capacity)) r) r

def deserializeBody (k : RazorProtoType) (buf : Mem) (r : Reading) : Reading :=
  match k with
  | .connect =>
      let r := getField o buf SimConnect.cid r
      let r := getField o buf SimConnect.tokenSize r
      getArray o buf SimConnect.token (SimConnect.tokenSize.load o r.message) r
  | .connectAck =>
      let r := getField o buf SimConnectAck.cid r
      getField o buf SimConnectAck.result r
  | .disconnect => getField o buf SimDisconnect.cid r
  | .disconnectAck => getField o buf SimConnectAck.cid r
  | .ping => getField o buf SimPing.ts r
  | .pong => getField o buf SimPing.ts r
  | .seg =>
      let r := getField o buf SimSegment.packetId r
      let r := getField o buf SimSegment.fid r
      let r := getField o buf SimSegment.timestamp r
      let r := getField o buf SimSegment.index r
      let r := getField o buf SimSegment.total r
      let r := getField o buf SimSegment.ftype r
      let r := getField o buf SimSegment.remb r
      let r := getField o buf SimSegment.sendTs r
      let r := getField o buf SimSegment.transportSeq r
      getField o buf SimSegment.dataSize r
  | .segAck =>
      let r := getField o buf SimSegmentAck.basePacketId r
      let r := getField o buf SimSegmentAck.ackedPacketId r
      let r := getField o buf SimSegmentAck.nackNum r
      getArray o buf SimSegmentAck.nack (SimSegmentAck.nackNum.load o r.message) r
  | .feedback =>
      let r := getField o buf SimFeedback.basePacketId r
      let r := getField o buf SimFeedback.feedbackSize r
      getArray o buf SimFeedback.feedback
        (SimFeedback.feedbackSize.load o r.message) r

/-- What `Deserialize` does with the bytes from the iterator on: the header
it leaves, the size it returns, and how it read. -/
structure Deserialized where
  header : RazorHeader
  size : Nat
  reading : Reading

def deserialize (h : RazorHeader) (buf : Mem) : Deserialized :=
  let ver := buf 0
  let mid := buf 1
  let uid := UInt32.ofNat (Bytes.decode (bytesAt buf 2 4))
  let start : Reading := ⟨6, h.message, []⟩
  let reading := match RazorProtoType.ofMid mid with
    | some k => deserializeBody o k buf start
    | none => start
  let header : RazorHeader := ⟨ver, mid, uid, reading.message⟩
  ⟨header, header.getSerializedSize, reading⟩

end

end RazorHeader

end Razor
