import RmcatNs3.Webrtc.WebrtcHeader

/-!
# The round trip of a message of the WebRTC application

The length of an acknowledgement leaves no room for the byte that pads its nack
list, so the last byte of a list is not copied. All other bodies survive.
-/

namespace Webrtc

open StructMemory
open Razor.RazorHeader (putStruct getStruct putArray elementReads Reading)

namespace WebrtcHeader

variable {o : ByteOrder}

/-! ## The whole trip -/

/-- The header objects before the calls, and the memory behind the buffers: nothing of
it may matter. -/
structure Junk where
  sender : UInt8 × UInt32
  receiver : UInt8 × UInt32
  buffer : Mem

/-- `SetMid`, `SetUid`, `SetMessagePayload`, `Serialize`, `Deserialize`, `GetMid`,
`GetUid` and `GetMessage`, the last one into `dst`. -/
def roundTrip (o : ByteOrder) (k : ProtoType) (uid : UInt32) (body : Mem) (buflen : Nat)
    (junk : Junk) (dst : Mem) : Option (UInt8 × UInt32 × Mem) := do
  let sender := ((new junk.sender.1 junk.sender.2).setMid k.mid).setUid uid
  let (_, sender) ← sender.setMessagePayload o body buflen
  let bytes ← sender.serialize o
  let (_, receiver) := (new junk.receiver.1 junk.receiver.2).deserialize o
    (writeBytes junk.buffer 0 bytes)
  let (_, out) := receiver.getMessage o dst k.struct.size
  some (receiver.mid, receiver.uid, out)

/-- The trip gives back the header and every meaningful member of the body, whatever
length the caller gives to `SetMessagePayload`. -/
def RoundTrips (o : ByteOrder) (k : ProtoType) (uid : UInt32) (body : Mem) : Prop :=
  ∀ buflen junk dst, 0 < buflen → buflen ≤ maxWebrtcHeaderLen →
    ∃ out, roundTrip o k uid body buflen junk dst = some (k.mid, uid, out) ∧
      k.struct.Same o body out

/-! ## Message lengths -/

@[simp] theorem ofMid_mid (k : ProtoType) : ProtoType.ofMid k.mid = some k := by
  cases k <;> rfl

theorem getMessageLen_of_ne {k : ProtoType} (hk : k ≠ .segAck) (m : Mem) :
    getMessageLen o k.mid m = k.struct.size := by
  unfold getMessageLen
  rw [ofMid_mid]
  cases k <;> first | rfl | exact absurd rfl hk

theorem getMessageLen_segAck (m : Mem) :
    getMessageLen o ProtoType.segAck.mid m = 9 + ProtoSegmentAck.nackNum.load o m * 2 := by
  unfold getMessageLen
  rw [ofMid_mid]

/-- Only an acknowledgement has a list. -/
theorem array_of_ne {k : ProtoType} (hk : k ≠ .segAck) : k.struct.array = none := by
  cases k <;> first | rfl | exact absurd rfl hk

/-- **The copied bytes reach to the end of every member**, except that those of a nack
list are one byte short. -/
theorem members_le_messageLen {k : ProtoType} {m : Mem}
    (hnack : k = .segAck → ProtoSegmentAck.nackNum.load o m = 0) :
    ∀ f ∈ k.struct.members o m, f.offset + f.width ≤ getMessageLen o k.mid m := by
  intro f hf
  unfold Struct.members at hf
  by_cases hk : k = .segAck
  · subst hk
    have helems : ProtoSegmentAck.nack.elems (ProtoSegmentAck.nackNum.load o m) = [] := by
      rw [hnack rfl]
      rfl
    have hscalar : f ∈ ProtoSegmentAck.struct.fields ++ [] := helems ▸ hf
    rw [List.append_nil] at hscalar
    have hfit : ∀ g ∈ ProtoSegmentAck.struct.fields, g.offset + g.width ≤ 9 := by decide
    rw [getMessageLen_segAck]
    exact Nat.le_add_right_of_le (hfit f hscalar)
  · rw [array_of_ne hk, List.append_nil] at hf
    rw [getMessageLen_of_ne hk]
    exact k.struct.fits f hf

theorem messageLen_le_size {k : ProtoType} {m : Mem} (hrange : k.struct.InRange o m) :
    getMessageLen o k.mid m ≤ k.struct.size := by
  by_cases hk : k = .segAck
  · subst hk
    have hn : ProtoSegmentAck.nackNum.load o m ≤ 80 := hrange _ _ rfl
    rw [getMessageLen_segAck]
    show 9 + ProtoSegmentAck.nackNum.load o m * 2 ≤ 172
    omega
  · exact Nat.le_of_eq (getMessageLen_of_ne hk m)

/-! ## The wire -/

theorem serializeBody_eq (k : ProtoType) (m : Mem) :
    serializeBody o k m = putStruct o k.struct k.struct.fields m := by
  cases k
  case segAck =>
    simp [serializeBody, putStruct, ProtoType.struct, ProtoSegmentAck.struct,
      putArray, elementReads, List.flatMap_map]
  all_goals
    simp [serializeBody, putStruct, ProtoType.struct, ProtoConnect.struct,
      ProtoConnectAck.struct, ProtoDisconnect.struct, ProtoPing.struct, ProtoSegment.struct,
      noMessage]

theorem deserializeBody_eq (k : ProtoType) (buf : Mem) (r : Reading) :
    deserializeBody o k buf r = getStruct o k.struct k.struct.fields buf r := by
  cases k
  case segAck => exact Razor.RazorHeader.getArray_eq _ _ _
  all_goals rfl

/-! ## The four steps -/

section Trip

variable (o) (k : ProtoType) (uid : UInt32) (body : Mem) (junk : Junk)

/-- `m_message` of the sender. -/
def sentMessage : Mem := memcpy (fun _ => 0) body (getMessageLen o k.mid body)

/-- What `Serialize` writes. -/
def wireBytes : List UInt8 :=
  [k.mid] ++ Bytes.encode 4 uid.toNat ++ serializeBody o k (sentMessage o k body)

/-- The buffer that the receiver reads. -/
def wireBuffer : Mem := writeBytes junk.buffer 0 (wireBytes o k uid body)

/-- `m_message` of the receiver. -/
def receivedMessage : Mem :=
  (deserializeBody o k (wireBuffer o k uid body junk) ⟨5, fun _ => 0, []⟩).message

/-- The buffer holds the header, then the body. -/
theorem wireBuffer_bytes :
    wireBuffer o k uid body junk 0 = k.mid ∧
    bytesAt (wireBuffer o k uid body junk) 1 4 = Bytes.encode 4 uid.toNat ∧
    bytesAt (wireBuffer o k uid body junk) 5 (serializeBody o k (sentMessage o k body)).length
      = serializeBody o k (sentMessage o k body) := by
  have h : bytesAt (wireBuffer o k uid body junk) 0 (wireBytes o k uid body).length
      = wireBytes o k uid body := bytesAt_writeBytes junk.buffer 0 (wireBytes o k uid body)
  unfold wireBytes at h
  rw [List.length_append, List.length_append, Bytes.length_encode, bytesAt_append,
    bytesAt_append] at h
  obtain ⟨hhead, hbody⟩ := List.append_inj h (by simp)
  obtain ⟨hmid, huid⟩ := List.append_inj hhead (by simp)
  have hbyte : [wireBuffer o k uid body junk 0] = [k.mid] := hmid
  exact ⟨List.singleton_inj.mp hbyte, huid, hbody⟩

variable {o k uid body junk}

/-- **The whole trip**: the header always arrives, and the body is what `GetMessage`
makes of the received message. -/
theorem roundTrip_eq {buflen : Nat} (hpos : 0 < buflen) (hmax : buflen ≤ maxWebrtcHeaderLen)
    (dst : Mem) :
    roundTrip o k uid body buflen junk dst = some (k.mid, uid,
      let received := receivedMessage o k uid body junk
      if getMessageLen o k.mid received > k.struct.size then dst
      else memcpy dst received (getMessageLen o k.mid received)) := by
  obtain ⟨hmid, huid, -⟩ := wireBuffer_bytes o k uid body junk
  have hid : UInt32.ofNat (Bytes.decode (Bytes.encode 4 uid.toNat)) = uid := by
    rw [Bytes.decode_encode_of_lt uid.toNat_lt, UInt32.ofNat_toNat]
  have hser : serialize o ⟨k.mid, uid, sentMessage o k body⟩ = some (wireBytes o k uid body) := by
    simp [serialize, wireBytes]
  have hdes : ((new junk.receiver.1 junk.receiver.2).deserialize o
      (wireBuffer o k uid body junk)).2 = ⟨k.mid, uid, receivedMessage o k uid body junk⟩ := by
    simp only [deserialize, hmid, ofMid_mid, huid, hid]
    rfl
  simp only [roundTrip, setMid, setUid, setMessagePayload, hpos, hmax, and_self, if_true,
    Option.bind_eq_bind, Option.bind_some]
  change (serialize o ⟨k.mid, uid, sentMessage o k body⟩).bind _ = _
  rw [hser, Option.bind_some]
  change some (((new junk.receiver.1 junk.receiver.2).deserialize o
      (wireBuffer o k uid body junk)).2.mid,
    ((new junk.receiver.1 junk.receiver.2).deserialize o (wireBuffer o k uid body junk)).2.uid,
    (((new junk.receiver.1 junk.receiver.2).deserialize o
      (wireBuffer o k uid body junk)).2.getMessage o dst k.struct.size).2) = _
  rw [hdes]
  dsimp only [getMessage]
  rw [apply_ite Prod.snd]

theorem same_sentMessage (hnack : k = .segAck → ProtoSegmentAck.nackNum.load o body = 0) :
    k.struct.Same o body (sentMessage o k body) :=
  Struct.same_memcpy (members_le_messageLen hnack)

/-- Every meaningful member of the sender's message arrives. -/
theorem same_receivedMessage :
    k.struct.Same o (sentMessage o k body) (receivedMessage o k uid body junk) := by
  intro f hf
  have hbuf := (wireBuffer_bytes o k uid body junk).2.2
  rw [serializeBody_eq] at hbuf
  unfold receivedMessage
  rw [deserializeBody_eq]
  exact (Razor.RazorHeader.load_getStruct k.struct.disjoint (fun _ _ => rfl) hbuf hf id).symm

end Trip

/-! ## When the body survives -/

section RoundTrips

variable {k : ProtoType} {uid : UInt32} {body : Mem}

/-- **The trip succeeds** when the length covers the members. -/
theorem roundTrips_of (hrange : k.struct.InRange o body)
    (hnack : k = .segAck → ProtoSegmentAck.nackNum.load o body = 0) :
    RoundTrips o k uid body := by
  intro buflen junk dst hpos hmax
  have hrecv : k.struct.Same o body (receivedMessage o k uid body junk) :=
    (same_sentMessage hnack).trans same_receivedMessage
  have hlen := messageLen_le_size (hrecv.inRange hrange)
  have hnack' : k = .segAck →
      ProtoSegmentAck.nackNum.load o (receivedMessage o k uid body junk) = 0 := by
    intro h
    subst h
    rw [← hrecv _ (List.mem_append_left _ (by decide))]
    exact hnack rfl
  refine ⟨_, roundTrip_eq hpos hmax dst, ?_⟩
  dsimp only
  rw [if_neg (Nat.not_lt.mpr hlen)]
  exact hrecv.trans (Struct.same_memcpy (members_le_messageLen hnack'))

/-- The count of a nack list arrives. -/
theorem load_nackNum_received (junk : Junk) :
    ProtoSegmentAck.nackNum.load o (receivedMessage o .segAck uid body junk) =
      ProtoSegmentAck.nackNum.load o body := by
  have hmem : ProtoSegmentAck.nackNum ∈
      ProtoType.segAck.struct.members o (sentMessage o .segAck body) :=
    List.mem_append_left _ (by decide)
  rw [← same_receivedMessage _ hmem]
  apply Field.load_memcpy
  rw [getMessageLen_segAck]
  exact Nat.le_add_right 9 _

/-- The last byte of a nack list is whatever the destination held. -/
theorem not_roundTrips_nack (hrange : ProtoSegmentAck.struct.InRange o body)
    (hn : ProtoSegmentAck.nackNum.load o body ≠ 0) : ¬ RoundTrips o .segAck uid body := by
  intro h
  let junk : Junk := ⟨(0, 0), (0, 0), fun _ => 0⟩
  let received := receivedMessage o .segAck uid body junk
  obtain ⟨n, hcount⟩ := Nat.exists_eq_succ_of_ne_zero hn
  have hle : ProtoSegmentAck.nackNum.load o body ≤ 80 := hrange _ _ rfl
  have hlen : getMessageLen o ProtoType.segAck.mid received = 10 + n * 2 + 1 := by
    rw [getMessageLen_segAck, load_nackNum_received, hcount]
    omega
  have hout : ∀ dst : Mem, (ProtoSegmentAck.nack.elem n).load o body
      = (ProtoSegmentAck.nack.elem n).load o (memcpy dst received (10 + n * 2 + 1)) := by
    intro dst
    obtain ⟨out, hout, hsame⟩ := h 172 junk dst (by decide) (by decide)
    rw [roundTrip_eq (by decide) (by decide), Option.some.injEq, Prod.mk.injEq,
      Prod.mk.injEq] at hout
    have hdst : (if getMessageLen o ProtoType.segAck.mid received > 172 then dst
        else memcpy dst received (getMessageLen o ProtoType.segAck.mid received)) = out :=
      hout.2.2
    rw [hlen, if_neg (by omega)] at hdst
    rw [hdst]
    apply hsame
    apply List.mem_append_right
    apply List.mem_map_of_mem
    rw [List.mem_range]
    show n < ProtoSegmentAck.nackNum.load o body
    omega
  have hzero := hout (fun _ => 0)
  have hone := hout (fun _ => 1)
  rw [hzero] at hone
  exact Field.load_memcpy_split o received (10 + n * 2) hone

/-- **When the body survives**: for bodies with their lengths in range, the round trip
succeeds exactly when the message is no acknowledgement with a nack list. -/
theorem readsBack_iff (hrange : k.struct.InRange o body) :
    RoundTrips o k uid body ↔
      (k = .segAck → ProtoSegmentAck.nackNum.load o body = 0) := by
  constructor
  · intro h hk
    subst hk
    by_contra hn
    exact not_roundTrips_nack hrange hn h
  · exact roundTrips_of hrange

/-- A segment survives. -/
theorem roundTrips_seg : RoundTrips .little .seg 7 (fun _ => 9) :=
  (readsBack_iff (by rintro _ _ ⟨⟩)).mpr (by decide)

/-- An acknowledgement with one nack loses a byte of it. -/
theorem nack_lost :
    ProtoType.segAck.struct.InRange .little (fun a => if a = 8 then 1 else 5) ∧
      ¬ RoundTrips .little .segAck 7 (fun a => if a = 8 then 1 else 5) := by
  have hrange : ProtoSegmentAck.struct.InRange .little (fun a => if a = 8 then 1 else 5) := by
    rintro _ _ ⟨⟩
    decide
  exact ⟨hrange, not_roundTrips_nack hrange (by decide)⟩

end RoundTrips

end WebrtcHeader

end Webrtc
