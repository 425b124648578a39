import RmcatNs3.Razor.Crc32
import RmcatNs3.Razor.StreamCodec

/-!
# The protocol of `sim_transport`

`razor/sim_transport/sim_proto.{h,inl,c}`: the messages of the razor sim protocol as
bytes on a stream, with a checksum at the end. A `void*` is the struct that it points
to; a case that takes it for another struct is `none`, as are accesses outside an
array or a stream. `sim_get_msg_name` is left out.
-/

namespace Razor

namespace SimProto

open BinStream StructMemory

/-! ## Messages -/

inductive MsgId where
  | connect
  | connectAck
  | disconnect
  | disconnectAck
  | ping
  | pong
  | seg
  | segAck
  | feedback
  deriving DecidableEq, Repr

def MsgId.mid : MsgId → BitVec 8
  | .connect => 0x11
  | .connectAck => 0x12
  | .disconnect => 0x13
  | .disconnectAck => 0x14
  | .ping => 0x15
  | .pong => 0x16
  | .seg => 0x17
  | .segAck => 0x18
  | .feedback => 0x19

/-- The case a `switch (header->mid)` takes; `none` is `default`. -/
def MsgId.ofMid (mid : BitVec 8) : Option MsgId :=
  [.connect, .connectAck, .disconnect, .disconnectAck, .ping, .pong, .seg, .segAck,
    .feedback].find? fun k => k.mid == mid

/-- `sim_header_t`. -/
structure SimHeader where
  ver : BitVec 8
  mid : BitVec 8
  uid : BitVec 32
  deriving DecidableEq, Repr

def simVideoSize : Nat := 1000
def simTokenSize : Nat := 128
def nackNum : Nat := 80
def simFeedbackSize : Nat := 1000

/-- `sim_connect_t`. -/
structure SimConnect where
  cid : BitVec 32
  tokenSize : BitVec 16
  token : Vector UInt8 simTokenSize

/-- `sim_connect_ack_t`, and `sim_disconnect_ack_t`. -/
structure SimConnectAck where
  cid : BitVec 32
  result : BitVec 32

/-- `sim_disconnect_t`. -/
structure SimDisconnect where
  cid : BitVec 32

/-- `sim_segment_t`. -/
structure SimSegment where
  packetId : BitVec 32
  fid : BitVec 32
  timestamp : BitVec 32
  index : BitVec 16
  total : BitVec 16
  ftype : BitVec 8
  payloadType : BitVec 8
  remb : BitVec 8
  sendTs : BitVec 16
  transportSeq : BitVec 16
  dataSize : BitVec 16
  data : Vector UInt8 simVideoSize

/-- `sim_segment_ack_t`. -/
structure SimSegmentAck where
  basePacketId : BitVec 32
  ackedPacketId : BitVec 32
  nackNum : BitVec 8
  nack : Vector (BitVec 16) SimProto.nackNum

/-- `sim_ping_t`, and `sim_pong_t`. -/
structure SimPing where
  ts : BitVec 64

/-- `sim_feedback_t`. -/
structure SimFeedback where
  basePacketId : BitVec 32
  feedbackSize : BitVec 16
  feedback : Vector UInt8 simFeedbackSize

/-! ## The bodies -/

/-- The test that follows every `mach_data_read`. -/
def readSize (len : BitVec 16) : BitVec 16 := if len = readDataError then 0 else len

def simConnectEncode (body : SimConnect) (strm : BinStream) : Option BinStream := do
  let strm ← strm.machUint32Write body.cid
  strm.machDataWrite body.token body.tokenSize.toNat

def simConnectDecode (body : SimConnect) (strm : BinStream) :
    Option (SimConnect × BinStream) := do
  let (cid, strm) ← strm.machUint32Read
  let ((len, token), strm) ← strm.machDataRead body.token simTokenSize
  some (⟨cid, readSize len, token⟩, strm)

def simConnectAckEncode (body : SimConnectAck) (strm : BinStream) : Option BinStream := do
  let strm ← strm.machUint32Write body.cid
  strm.machUint32Write body.result

def simConnectAckDecode (strm : BinStream) : Option (SimConnectAck × BinStream) := do
  let (cid, strm) ← strm.machUint32Read
  let (result, strm) ← strm.machUint32Read
  some (⟨cid, result⟩, strm)

def simDisconnectEncode (body : SimDisconnect) (strm : BinStream) : Option BinStream :=
  strm.machUint32Write body.cid

def simDisconnectDecode (strm : BinStream) : Option (SimDisconnect × BinStream) := do
  let (cid, strm) ← strm.machUint32Read
  some (⟨cid⟩, strm)

def simPingEncode (body : SimPing) (strm : BinStream) : Option BinStream :=
  strm.machInt64Write body.ts

def simPingDecode (strm : BinStream) : Option (SimPing × BinStream) := do
  let (ts, strm) ← strm.machInt64Read
  some (⟨ts⟩, strm)

def simFeedbakEncode (body : SimFeedback) (strm : BinStream) : Option BinStream := do
  let strm ← strm.machUint32Write body.basePacketId
  strm.machDataWrite body.feedback body.feedbackSize.toNat

def simFeedbakDecode (body : SimFeedback) (strm : BinStream) :
    Option (SimFeedback × BinStream) := do
  let (basePacketId, strm) ← strm.machUint32Read
  let ((len, feedback), strm) ← strm.machDataRead body.feedback simFeedbackSize
  some (⟨basePacketId, readSize len, feedback⟩, strm)

def u16Max : Nat := 65535
def u8Max : Nat := 255

/-- The first byte of a segment. -/
def segmentMask (body : SimSegment) : BitVec 8 :=
  let mask := body.ftype &&& 0x01
  let mask := if body.packetId.toNat > u16Max then mask ||| 1#8 <<< 7 else mask
  let mask := if body.fid.toNat > u16Max then mask ||| 1#8 <<< 6 else mask
  let mask := if body.total.toNat > u8Max then mask ||| 1#8 <<< 5 else mask
  if body.remb = 0 then mask ||| 1#8 <<< 4 else mask

/-- A number in four bytes, or in two if it is small. -/
def writeId (id : BitVec 32) (strm : BinStream) : Option BinStream :=
  if id.toNat > u16Max then strm.machUint32Write id
  else strm.machUint16Write (id.setWidth 16)

def readId (long : Bool) (strm : BinStream) : Option (BitVec 32 × BinStream) :=
  if long then strm.machUint32Read
  else do
    let (v16, strm) ← strm.machUint16Read
    some (v16.setWidth 32, strm)

def writePosition (index total : BitVec 16) (strm : BinStream) : Option BinStream :=
  if total.toNat > u8Max then do
    let strm ← strm.machUint16Write index
    strm.machUint16Write total
  else do
    let strm ← strm.machUint8Write (index.setWidth 8)
    strm.machUint8Write (total.setWidth 8)

def readPosition (long : Bool) (strm : BinStream) :
    Option ((BitVec 16 × BitVec 16) × BinStream) :=
  if long then do
    let (index, strm) ← strm.machUint16Read
    let (total, strm) ← strm.machUint16Read
    some ((index, total), strm)
  else do
    let (v8, strm) ← strm.machUint8Read
    let index := v8.setWidth 16
    let (v8, strm) ← strm.machUint8Read
    some ((index, v8.setWidth 16), strm)

def simSegmentEncode (body : SimSegment) (strm : BinStream) : Option BinStream := do
  let strm ← strm.machUint8Write (segmentMask body)
  let strm ← strm.machUint8Write body.payloadType
  let strm ← writeId body.packetId strm
  let strm ← writeId body.fid strm
  let strm ← strm.machUint32Write body.timestamp
  let strm ← writePosition body.index body.total strm
  let strm ← strm.machUint16Write body.sendTs
  let strm ← strm.machUint16Write body.transportSeq
  strm.machDataWrite body.data body.dataSize.toNat

def simSegmentDecode (body : SimSegment) (strm : BinStream) :
    Option (SimSegment × BinStream) := do
  let (mask, strm) ← strm.machUint8Read
  let (payloadType, strm) ← strm.machUint8Read
  let (packetId, strm) ← readId (mask &&& 1#8 <<< 7 != 0) strm
  let (fid, strm) ← readId (mask &&& 1#8 <<< 6 != 0) strm
  let (timestamp, strm) ← strm.machUint32Read
  let ((index, total), strm) ← readPosition (mask &&& 1#8 <<< 5 != 0) strm
  let remb := if mask &&& 1#8 <<< 4 != 0 then 0 else 0xff
  let (sendTs, strm) ← strm.machUint16Read
  let (transportSeq, strm) ← strm.machUint16Read
  let ((len, data), strm) ← strm.machDataRead body.data simVideoSize
  some
    ({ packetId, fid, timestamp, index, total
       ftype := mask &&& 0x01
       payloadType, remb, sendTs, transportSeq
       dataSize := readSize len
       data }, strm)

/-- The loop over `nack`, with `n` elements left from index `i` on. -/
def encodeNack (body : SimSegmentAck) : Nat → Nat → BinStream → Option BinStream
  | 0, _, strm => some strm
  | n + 1, i, strm => do
      let seq ← BoundedArray.load body.nack i
      let strm ← strm.machUint16Write seq
      encodeNack body n (i + 1) strm

def decodeNack : Nat → Nat → Vector (BitVec 16) nackNum → BinStream →
    Option (Vector (BitVec 16) nackNum × BinStream)
  | 0, _, nack, strm => some (nack, strm)
  | n + 1, i, nack, strm => do
      let (seq, strm) ← strm.machUint16Read
      let nack ← BoundedArray.store nack i seq
      decodeNack n (i + 1) nack strm

def simSegmentAckEncode (body : SimSegmentAck) (strm : BinStream) : Option BinStream := do
  let strm ← strm.machUint32Write body.basePacketId
  let strm ← strm.machUint32Write body.ackedPacketId
  let strm ← strm.machUint8Write body.nackNum
  encodeNack body body.nackNum.toNat 0 strm

def simSegmentAckDecode (body : SimSegmentAck) (strm : BinStream) :
    Option (SimSegmentAck × BinStream) := do
  let (basePacketId, strm) ← strm.machUint32Read
  let (ackedPacketId, strm) ← strm.machUint32Read
  let (num, strm) ← strm.machUint8Read
  let num := if num.toNat < nackNum then num else BitVec.ofNat 8 nackNum
  let (nack, strm) ← decodeNack num.toNat 0 body.nack strm
  some (⟨basePacketId, ackedPacketId, num, nack⟩, strm)

/-! ## Whole messages -/

/-- The struct behind a `void* body`. -/
inductive SimBody where
  | connect (body : SimConnect)
  | connectAck (body : SimConnectAck)
  | disconnect (body : SimDisconnect)
  | ping (body : SimPing)
  | seg (body : SimSegment)
  | segAck (body : SimSegmentAck)
  | feedback (body : SimFeedback)

def crcVal : BitVec 32 := 0x0e3dfc0a

def simEncodeHeader (header : SimHeader) (strm : BinStream) : Option BinStream := do
  let strm ← strm.machUint8Write header.ver
  let strm ← strm.machUint8Write header.mid
  strm.machUint32Write header.uid

/-- The `switch` of `sim_encode_msg`. -/
def encodeBody (mid : BitVec 8) (body : SimBody) (strm : BinStream) : Option BinStream :=
  match MsgId.ofMid mid, body with
  | some .connect, .connect body => simConnectEncode body strm
  | some .connectAck, .connectAck body => simConnectAckEncode body strm
  | some .disconnectAck, .connectAck body => simConnectAckEncode body strm
  | some .disconnect, .disconnect body => simDisconnectEncode body strm
  | some .ping, .ping body => simPingEncode body strm
  | some .pong, .ping body => simPingEncode body strm
  | some .seg, .seg body => simSegmentEncode body strm
  | some .segAck, .segAck body => simSegmentAckEncode body strm
  | some .feedback, .feedback body => simFeedbakEncode body strm
  | none, _ => some strm
  | _, _ => none

def simEncodeMsg (strm : BinStream) (header : SimHeader) (body : SimBody) :
    Option BinStream := do
  let strm := strm.rewind 1
  let strm ← simEncodeHeader header strm
  let strm ← encodeBody header.mid body strm
  let crc := crc32 crcVal (bytesAt strm.data 0 strm.used)
  strm.machUint32Write crc

/-- The number in the last four bytes of a stream. -/
def trailer (strm : BinStream) : Option (BitVec 32) :=
  if 4 ≤ strm.used ∧ strm.used ≤ strm.size then
    some (BitVec.ofNat 32 (Bytes.decode (bytesAt strm.data (strm.used - 4) 4)))
  else none

/-- `sim_decode_header`: the value it returns and the header it leaves. -/
def simDecodeHeader (strm : BinStream) (header : SimHeader) :
    Option ((Int × SimHeader) × BinStream) := do
  let src ← trailer strm
  let crc := crc32 crcVal (bytesAt strm.data 0 (strm.used - 4))
  if src = crc then do
    let (ver, strm) ← strm.machUint8Read
    let (mid, strm) ← strm.machUint8Read
    let (uid, strm) ← strm.machUint32Read
    some ((0, ⟨ver, mid, uid⟩), strm)
  else some ((-1, header), strm)

/-- `sim_decode_msg`: the value it returns and the body it leaves. -/
def simDecodeMsg (strm : BinStream) (header : SimHeader) (body : SimBody) :
    Option ((Int × SimBody) × BinStream) :=
  match MsgId.ofMid header.mid, body with
  | some .connect, .connect body => do
      let (body, strm) ← simConnectDecode body strm
      some ((0, .connect body), strm)
  | some .connectAck, .connectAck _ => do
      let (body, strm) ← simConnectAckDecode strm
      some ((0, .connectAck body), strm)
  | some .disconnectAck, .connectAck _ => do
      let (body, strm) ← simConnectAckDecode strm
      some ((0, .connectAck body), strm)
  | some .disconnect, .disconnect _ => do
      let (body, strm) ← simDisconnectDecode strm
      some ((0, .disconnect body), strm)
  | some .ping, .ping _ => do
      let (body, strm) ← simPingDecode strm
      some ((0, .ping body), strm)
  | some .pong, .ping _ => do
      let (body, strm) ← simPingDecode strm
      some ((0, .ping body), strm)
  | some .seg, .seg body => do
      let (body, strm) ← simSegmentDecode body strm
      some ((0, .seg body), strm)
  | some .segAck, .segAck body => do
      let (body, strm) ← simSegmentAckDecode body strm
      some ((0, .segAck body), strm)
  | some .feedback, .feedback body => do
      let (body, strm) ← simFeedbakDecode body strm
      some ((0, .feedback body), strm)
  | none, body => some ((-1, body), strm)
  | _, _ => none

end SimProto

end Razor
