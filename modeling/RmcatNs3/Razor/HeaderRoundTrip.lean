import RmcatNs3.Razor.HeaderReading

/-!
# The round trip of a message

A message handed to one header object, serialized, deserialized by another
one and taken out again. The body survives exactly when the length computed
by `GetMessageLen` fits the struct and covers its members, and when every
member is written to the wire.
-/

namespace Razor

open StructMemory

namespace RazorHeader

variable {o : ByteOrder}

/-! ## The whole trip -/

/-- The header objects before the calls, and the memory behind the buffers:
nothing of it may matter. -/
structure Junk where
  sender : UInt8 × UInt32
  receiver : UInt8 × UInt32
  buffer : Mem

/-- `SetHeader`, `SetMessagePayload`, `Serialize`, `Deserialize`, `GetHeader`
and `GetMessage`, the last one into `dst`. -/
def roundTrip (o : ByteOrder) (k : RazorProtoType) (ver : UInt8) (uid : UInt32)
    (body : Mem) (junk : Junk) (dst : Mem) : Option (SimHeader × Mem) := do
  let sender := (new junk.sender.1 junk.sender.2).setHeader ⟨ver, k.mid, uid⟩
  let (_, sender) ← sender.setMessagePayload o body k.struct.size
  let bytes ← sender.serialize o
  let receiver := (new junk.receiver.1 junk.receiver.2).deserialize o
    (writeBytes junk.buffer 0 bytes)
  let (_, out) := receiver.header.getMessage o dst k.struct.size
  some (receiver.header.getHeader, out)

/-- The trip gives back the header and every meaningful member of the body. -/
def RoundTrips (o : ByteOrder) (k : RazorProtoType) (ver : UInt8) (uid : UInt32)
    (body : Mem) : Prop :=
  ∀ junk dst, ∃ out, roundTrip o k ver uid body junk dst
    = some (⟨ver, k.mid, uid⟩, out) ∧ k.struct.Same o body out

/-! ## Message lengths -/

@[simp] theorem ofMid_mid (k : RazorProtoType) :
    RazorProtoType.ofMid k.mid = some k := by
  cases k <;> rfl

/-- The part of `GetMessageLen` that does not depend on the message. -/
def fixedLen : RazorProtoType → Nat
  | .connect => 6
  | .seg => 24
  | .segAck => 9
  | .feedback => 6
  | _ => 8

theorem getMessageLen_eq (k : RazorProtoType) (m : Mem) :
    getMessageLen o k.mid m = fixedLen k + match k.struct.array with
      | none => 0
      | some (c, a) => c.load o m * a.width := by
  unfold getMessageLen
  rw [ofMid_mid]
  cases k <;> rfl

theorem fields_le_fixedLen (k : RazorProtoType) :
    ∀ f ∈ k.struct.fields, f.offset + f.width ≤ fixedLen k := by
  cases k <;> decide

/-- The length leaves no room for the byte that pads the nack array. -/
theorem array_le_fixedLen {k : RazorProtoType} {c : Field} {a : ArrayField}
    (h : k.struct.array = some (c, a)) (hk : k ≠ .segAck) :
    a.offset ≤ fixedLen k := by
  cases k <;> cases h <;> first | decide | exact absurd rfl hk

/-- The number of elements that the struct's array holds. -/
theorem mem_elems {a : ArrayField} {n : Nat} {f : Field} (h : f ∈ a.elems n) :
    ∃ i < n, f = a.elem i := by
  obtain ⟨i, hi, rfl⟩ := List.mem_map.mp h
  exact ⟨i, List.mem_range.mp hi, rfl⟩

/-- **The copied bytes reach to the end of every member**, except that those
of a nack list are one byte short. -/
theorem members_le_messageLen {k : RazorProtoType} {m : Mem}
    (hcov : k = .segAck → SimSegmentAck.nackNum.load o m = 0) :
    ∀ f ∈ k.struct.members o m, f.offset + f.width ≤ getMessageLen o k.mid m := by
  intro f hf
  rw [getMessageLen_eq]
  rcases List.mem_append.mp hf with hf | hf
  · have := fields_le_fixedLen k f hf
    omega
  · cases ha : k.struct.array with
    | none =>
        rw [ha] at hf
        cases hf
    | some p =>
        obtain ⟨c, a⟩ := p
        rw [ha] at hf
        obtain ⟨i, hi, rfl⟩ := mem_elems hf
        by_cases hk : k = .segAck
        · subst hk
          cases ha
          rw [hcov rfl] at hi
          exact absurd hi (Nat.not_lt_zero i)
        · have hoff := array_le_fixedLen ha hk
          have hmul := Nat.mul_le_mul_right a.width (Nat.succ_le_of_lt hi)
          rw [Nat.succ_mul] at hmul
          show a.offset + i * a.width + a.width ≤ fixedLen k + c.load o m * a.width
          omega

/-- The length of `disconnect` is that of a larger struct. -/
theorem fixedLen_le_size {k : RazorProtoType} (hk : k ≠ .disconnect) :
    fixedLen k ≤ k.struct.size := by
  cases k <;> first | decide | exact absurd rfl hk

/-- `GetMessage` copies the message when its length fits the struct. -/
theorem messageLen_le_size {k : RazorProtoType} {m : Mem} (hk : k ≠ .disconnect)
    (hrange : k.struct.InRange o m) : getMessageLen o k.mid m ≤ k.struct.size := by
  rw [getMessageLen_eq]
  cases ha : k.struct.array with
  | none => exact fixedLen_le_size hk
  | some p =>
      obtain ⟨c, a⟩ := p
      have hc := hrange c a ha
      have hfits := (k.struct.array_fits c a ha).2.2
      have hmul := Nat.mul_le_mul_right a.width hc
      have hoff : fixedLen k ≤ a.offset := by
        cases k <;> cases ha <;> decide
      show fixedLen k + c.load o m * a.width ≤ k.struct.size
      omega

/-! ## The wire -/

theorem serializeBody_eq (k : RazorProtoType) (m : Mem) :
    serializeBody o k m = (scalarReads k).flatMap (fun f => put o m f.1)
      ++ match k.struct.array with
        | none => []
        | some (c, a) =>
            (elementReads a (c.load o m)).flatMap fun f => put o m f.1 := by
  cases k
  case connect | segAck | feedback =>
    simp [serializeBody, scalarReads, wireFields, RazorProtoType.struct,
      SimConnect.struct, SimSegmentAck.struct, SimFeedback.struct, putArray,
      elementReads, List.flatMap_map]
  all_goals
    simp [serializeBody, scalarReads, wireFields, RazorProtoType.struct,
      SimConnectAck.struct, SimDisconnect.struct, SimPing.struct,
      SimSegment.struct]

theorem wireFields_disjoint (k : RazorProtoType) :
    (wireFields k).Pairwise Field.Disjoint := by
  cases k <;> decide

theorem wireFields_eq_of_array {k : RazorProtoType} {p : Field × ArrayField}
    (h : k.struct.array = some p) : wireFields k = k.struct.fields := by
  cases k <;> first | rfl | cases h

/-- **Deserialization inverts serialization** on every member that is on the
wire. -/
theorem load_deserializeBody {k : RazorProtoType} {m buf : Mem} {r : Reading}
    (hbuf : bytesAt buf r.pos (serializeBody o k m).length = serializeBody o k m)
    {f : Field} (hf : f ∈ k.struct.members o m)
    (hwire : f ∈ k.struct.fields → f ∈ wireFields k) :
    f.load o (deserializeBody o k buf r).message = f.load o m := by
  have hput : serializeBody o k m = putStruct o k.struct (wireFields k) m := serializeBody_eq k m
  have hget : deserializeBody o k buf r = getStruct o k.struct (wireFields k) buf r :=
    deserializeBody_eq k r
  rw [hput] at hbuf
  rw [hget]
  exact load_getStruct (wireFields_disjoint k) (fun p h => wireFields_eq_of_array h) hbuf hf hwire

/-! ## The four steps -/

section Trip

variable (o) (k : RazorProtoType) (ver : UInt8) (uid : UInt32) (body : Mem)
  (junk : Junk)

/-- `m_message` of the sender. -/
def sentMessage : Mem :=
  memcpy (fun _ => 0) body (getMessageLen o k.mid body)

/-- The buffer that the receiver reads. -/
def wireBuffer : Mem :=
  writeBytes junk.buffer 0 ([ver, k.mid] ++ Bytes.encode 4 uid.toNat
    ++ serializeBody o k (sentMessage o k body))

/-- `m_message` of the receiver. -/
def receivedMessage : Mem :=
  (deserializeBody o k (wireBuffer o k ver uid body junk)
    ⟨6, fun _ => 0, []⟩).message

/-- The buffer holds the header, then the body. -/
theorem wireBuffer_bytes :
    wireBuffer o k ver uid body junk 0 = ver ∧
    wireBuffer o k ver uid body junk 1 = k.mid ∧
    bytesAt (wireBuffer o k ver uid body junk) 2 4 = Bytes.encode 4 uid.toNat ∧
    bytesAt (wireBuffer o k ver uid body junk) 6
        (serializeBody o k (sentMessage o k body)).length
      = serializeBody o k (sentMessage o k body) := by
  have h := bytesAt_writeBytes junk.buffer 0
    ([ver, k.mid] ++ Bytes.encode 4 uid.toNat
      ++ serializeBody o k (sentMessage o k body))
  rw [show writeBytes junk.buffer 0 _ = wireBuffer o k ver uid body junk from rfl,
    List.length_append, List.length_append, Bytes.length_encode, bytesAt_append,
    bytesAt_append] at h
  obtain ⟨hhead, hbody⟩ := List.append_inj h (by simp)
  obtain ⟨hids, huid⟩ := List.append_inj hhead (by simp)
  have hids' : [wireBuffer o k ver uid body junk 0,
      wireBuffer o k ver uid body junk 1] = [ver, k.mid] := hids
  simp only [List.cons.injEq, and_true] at hids'
  exact ⟨hids'.1, hids'.2, huid, hbody⟩

variable {o k ver uid body junk}

/-- **The whole trip**: the header always arrives, and the body is what
`GetMessage` makes of the received message. -/
theorem roundTrip_eq (dst : Mem) :
    roundTrip o k ver uid body junk dst = some (⟨ver, k.mid, uid⟩,
      let received := receivedMessage o k ver uid body junk
      if getMessageLen o k.mid received > k.struct.size then dst
      else memcpy dst received (getMessageLen o k.mid received)) := by
  obtain ⟨hver, hmid, huid, _⟩ := wireBuffer_bytes o k ver uid body junk
  have hsize : 0 < k.struct.size ∧ k.struct.size ≤ maxMsglen := by
    cases k <;> decide
  have hser : serialize o ⟨ver, k.mid, uid, sentMessage o k body⟩
      = some ([ver, k.mid] ++ Bytes.encode 4 uid.toNat
        ++ serializeBody o k (sentMessage o k body)) := by
    simp [serialize]
  have hid : UInt32.ofNat (Bytes.decode (Bytes.encode 4 uid.toNat)) = uid := by
    rw [Bytes.decode_encode_of_lt uid.toNat_lt, UInt32.ofNat_toNat]
  have hdes : ∀ junkId : UInt8 × UInt32,
      ((new junkId.1 junkId.2).deserialize o
        (wireBuffer o k ver uid body junk)).header
      = ⟨ver, k.mid, uid, receivedMessage o k ver uid body junk⟩ := by
    intro junkId
    simp only [deserialize, hver, hmid, ofMid_mid, huid, hid]
    rfl
  simp only [roundTrip, setHeader, setMessagePayload, hsize, and_self, if_true,
    Option.bind_eq_bind, Option.bind_some]
  change (serialize o ⟨ver, k.mid, uid, sentMessage o k body⟩).bind _ = _
  rw [hser, Option.bind_some]
  change some (((new junk.receiver.1 junk.receiver.2).deserialize o
      (wireBuffer o k ver uid body junk)).header.getHeader,
    (((new junk.receiver.1 junk.receiver.2).deserialize o
      (wireBuffer o k ver uid body junk)).header.getMessage o dst
      k.struct.size).2) = _
  rw [hdes]
  dsimp only [getMessage, getHeader]
  rw [apply_ite Prod.snd]

theorem same_sentMessage
    (hcov : k = .segAck → SimSegmentAck.nackNum.load o body = 0) :
    k.struct.Same o body (sentMessage o k body) :=
  Struct.same_memcpy (members_le_messageLen hcov)

/-- The members on the wire arrive. -/
theorem load_receivedMessage {f : Field}
    (hf : f ∈ k.struct.members o (sentMessage o k body))
    (hwire : f ∈ k.struct.fields → f ∈ wireFields k) :
    f.load o (receivedMessage o k ver uid body junk)
      = f.load o (sentMessage o k body) :=
  load_deserializeBody (wireBuffer_bytes o k ver uid body junk).2.2.2 hf hwire

/-- The result of a `disconnectAck` does not arrive. -/
theorem load_result_received :
    SimConnectAck.result.load o
      (receivedMessage o .disconnectAck ver uid body junk) = 0 := by
  rw [receivedMessage, deserializeBody_eq]
  show SimConnectAck.result.load o (getAll o _ (scalarReads .disconnectAck)
    ⟨6, fun _ => 0, []⟩).message = 0
  rw [load_getAll_of_disjoint (by decide)]
  cases o <;> rfl

/-- Every meaningful member of the sender's message arrives. -/
theorem same_receivedMessage
    (hresult : k = .disconnectAck → SimConnectAck.result.load o
      (sentMessage o k body) = 0) :
    k.struct.Same o (sentMessage o k body)
      (receivedMessage o k ver uid body junk) := by
  intro f hf
  by_cases hk : k = .disconnectAck
  · subst hk
    by_cases hfr : f = SimConnectAck.result
    · subst hfr
      rw [hresult rfl, load_result_received]
    · refine (load_receivedMessage hf ?_).symm
      intro hfields
      have : f = SimConnectAck.cid ∨ f = SimConnectAck.result := by
        simpa [RazorProtoType.struct, SimConnectAck.struct] using hfields
      rcases this with rfl | h
      · exact List.mem_singleton.mpr rfl
      · exact absurd h hfr
  · refine (load_receivedMessage hf ?_).symm
    intro hfields
    have hwire : wireFields k = k.struct.fields := by
      cases k <;> first | rfl | exact absurd rfl hk
    rwa [hwire]

end Trip

/-! ## When the body survives -/

section RoundTrips

variable {k : RazorProtoType} {ver : UInt8} {uid : UInt32} {body : Mem}

/-- A scalar is a meaningful member. -/
theorem mem_members {k : RazorProtoType} {m : Mem} {f : Field}
    (hf : f ∈ k.struct.fields) : f ∈ k.struct.members o m :=
  List.mem_append_left _ hf

/-- **The trip succeeds** when the length fits the struct and covers the
members, and all of them are on the wire. -/
theorem roundTrips_of (hrange : k.struct.InRange o body) (hk : k ≠ .disconnect)
    (hresult : k = .disconnectAck → SimConnectAck.result.load o body = 0)
    (hnack : k = .segAck → SimSegmentAck.nackNum.load o body = 0) :
    RoundTrips o k ver uid body := by
  intro junk dst
  have hsent := same_sentMessage hnack
  have hrecv : k.struct.Same o body (receivedMessage o k ver uid body junk) := by
    refine hsent.trans (same_receivedMessage ?_)
    rintro rfl
    rw [← hsent _ (mem_members (by decide))]
    exact hresult rfl
  have hlen := messageLen_le_size hk (hrecv.inRange hrange)
  have hnack' : k = .segAck → SimSegmentAck.nackNum.load o
      (receivedMessage o k ver uid body junk) = 0 := by
    intro h
    subst h
    rw [← hrecv _ (mem_members (by decide))]
    exact hnack rfl
  refine ⟨_, roundTrip_eq dst, ?_⟩
  dsimp only
  rw [if_neg (Nat.not_lt.mpr hlen)]
  exact hrecv.trans (Struct.same_memcpy (members_le_messageLen hnack'))

/-- `GetMessage` never copies a `disconnect`: its length is that of a `ping`. -/
theorem not_roundTrips_disconnect : ¬ RoundTrips o .disconnect ver uid body := by
  intro h
  have hout : ∀ dst : Mem, SimDisconnect.cid.load o body
      = SimDisconnect.cid.load o dst := by
    intro dst
    obtain ⟨out, hout, hsame⟩ := h ⟨(0, 0), (0, 0), fun _ => 0⟩ dst
    rw [roundTrip_eq, Option.some.injEq, Prod.mk.injEq] at hout
    have hdst : dst = out := hout.2
    rw [hdst]
    exact hsame _ (mem_members (by decide))
  have hzero := hout (fun _ => 0)
  have hone := hout (fun _ => 1)
  rw [hzero] at hone
  revert hone
  cases o <;> decide

/-- The last byte of a nack list is whatever the destination held. -/
theorem not_roundTrips_nack (hrange : SimSegmentAck.struct.InRange o body)
    (hn : SimSegmentAck.nackNum.load o body ≠ 0) :
    ¬ RoundTrips o .segAck ver uid body := by
  intro h
  let junk : Junk := ⟨(0, 0), (0, 0), fun _ => 0⟩
  let received := receivedMessage o .segAck ver uid body junk
  obtain ⟨n, hn'⟩ := Nat.exists_eq_succ_of_ne_zero hn
  have hcount : SimSegmentAck.nackNum.load o received = n + 1 := by
    rw [← Nat.succ_eq_add_one, ← hn']
    rw [show SimSegmentAck.nackNum.load o received
      = SimSegmentAck.nackNum.load o (sentMessage o .segAck body) from
        load_receivedMessage (mem_members (by decide)) (fun h => h)]
    apply Field.load_memcpy
    rw [getMessageLen_eq]
    exact Nat.le_add_right _ _
  have hlen : getMessageLen o RazorProtoType.segAck.mid received
      = 9 + (n + 1) * 2 := by
    rw [getMessageLen_eq, ← hcount]
    rfl
  have hle : n + 1 ≤ 80 := by
    have := hrange _ _ rfl
    rwa [hn'] at this
  have hsize : RazorProtoType.segAck.struct.size = 172 := rfl
  have hout : ∀ dst : Mem, (SimSegmentAck.nack.elem n).load o body
      = (SimSegmentAck.nack.elem n).load o (memcpy dst received (9 + (n + 1) * 2)) := by
    intro dst
    obtain ⟨out, hout, hsame⟩ := h junk dst
    rw [roundTrip_eq, Option.some.injEq, Prod.mk.injEq] at hout
    have hdst : (if getMessageLen o RazorProtoType.segAck.mid received
        > RazorProtoType.segAck.struct.size then dst
        else memcpy dst received (getMessageLen o RazorProtoType.segAck.mid received))
        = out := hout.2
    rw [hlen, hsize, if_neg (by omega)] at hdst
    rw [hdst]
    refine hsame _ (List.mem_append_right _ (List.mem_map_of_mem ?_))
    rw [List.mem_range]
    show n < SimSegmentAck.nackNum.load o body
    omega
  have hend : 9 + (n + 1) * 2 = 10 + n * 2 + 1 := by omega
  have hzero := hout (fun _ => 0)
  have hone := hout (fun _ => 1)
  rw [hzero, hend] at hone
  exact Field.load_memcpy_split o received (10 + n * 2) hone

/-- The result of a `disconnectAck` does not survive, unless it is `0`. -/
theorem not_roundTrips_result (hr : SimConnectAck.result.load o body ≠ 0) :
    ¬ RoundTrips o .disconnectAck ver uid body := by
  intro h
  let junk : Junk := ⟨(0, 0), (0, 0), fun _ => 0⟩
  obtain ⟨out, hout, hsame⟩ := h junk (fun _ => 0)
  rw [roundTrip_eq, Option.some.injEq, Prod.mk.injEq] at hout
  have hcopy : memcpy (fun _ => 0)
      (receivedMessage o .disconnectAck ver uid body junk) 8 = out := by
    have hout' := hout.2
    dsimp only at hout'
    rw [getMessageLen_eq] at hout'
    exact hout'
  apply hr
  rw [hsame _ (mem_members (by decide)), ← hcopy, Field.load_memcpy (by decide),
    load_result_received]

/-- **When the body survives**: for bodies with their lengths in range, the
round trip succeeds exactly when the message is no `disconnect`, no
`disconnectAck` with a result, and no `segAck` with a nack list. -/
theorem roundTrips_iff (hrange : k.struct.InRange o body) :
    RoundTrips o k ver uid body ↔ k ≠ .disconnect ∧
      (k = .disconnectAck → SimConnectAck.result.load o body = 0) ∧
      (k = .segAck → SimSegmentAck.nackNum.load o body = 0) := by
  constructor
  · intro h
    refine ⟨?_, ?_, ?_⟩
    · rintro rfl
      exact not_roundTrips_disconnect h
    · rintro rfl
      by_contra hr
      exact not_roundTrips_result hr h
    · rintro rfl
      by_contra hn
      exact not_roundTrips_nack hrange hn h
  · rintro ⟨hk, hresult, hnack⟩
    exact roundTrips_of hrange hk hresult hnack

/-- A `connect` with a token of two bytes survives. -/
theorem roundTrips_connect : RoundTrips .little .connect 1 7
    (fun a => if a = 4 then 2 else if a = 5 then 0 else 9) :=
  (roundTrips_iff (by rintro _ _ ⟨⟩; decide)).mpr
    ⟨by decide, nofun, nofun⟩

/-- The call id `0x09090909` of a `disconnect` does not survive. -/
theorem disconnect_lost :
    RazorProtoType.disconnect.struct.InRange .little (fun _ => 9) ∧
      ¬ RoundTrips .little .disconnect 1 7 (fun _ => 9) := by
  constructor
  · rintro _ _ ⟨⟩
  · exact not_roundTrips_disconnect

end RoundTrips

end RazorHeader

end Razor
