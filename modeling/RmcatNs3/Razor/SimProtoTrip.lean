import RmcatNs3.Razor.SimProto

/-!
# The round trip of a `sim_transport` message

What `sim_encode_msg` writes is the header, the fields of the body and a checksum. The
decoder accepts these bytes and finds every field again; of the frame type it keeps
the lowest bit, and of `remb` whether it is 0.
-/

namespace Razor

namespace SimProto

open BinStream StructMemory

/-! ## Fields of a body -/

theorem readSize_ofNat {size : BitVec 16} (h : size.toNat ≤ 1000) :
    readSize (BitVec.ofNat 16 size.toNat) = size := by
  have hne : size ≠ readDataError := by
    intro heq
    rw [heq] at h
    exact absurd h (by decide)
  rw [BitVec.ofNat_toNat, BitVec.setWidth_eq, readSize, if_neg hne]

def wireId (id : BitVec 32) : List UInt8 :=
  if id.toNat > u16Max then Bytes.encode 4 id.toNat
  else Bytes.encode 2 (id.setWidth 16).toNat

theorem encodes_id (id : BitVec 32) : Encodes (writeId id) (wireId id) := by
  unfold writeId wireId
  by_cases hlong : id.toNat > u16Max
  · simp only [hlong, if_true]
    exact Encodes.put _
  · simp only [hlong, if_false]
    exact Encodes.put _

theorem decodes_id (id : BitVec 32) :
    Decodes (readId (decide (id.toNat > u16Max))) (wireId id) id := by
  unfold readId wireId
  by_cases hlong : id.toNat > u16Max
  · simp only [hlong, if_true, decide_true]
    exact Decodes.getBits id (by decide)
  · simp only [hlong, if_false, decide_false]
    intro strm rest h
    obtain ⟨strm', hget, hr⟩ := Decodes.getBits (id.setWidth 16) (by decide) strm rest h
    refine ⟨strm', ?_, hr⟩
    have hback : (id.setWidth 16).setWidth 32 = id := by
      apply BitVec.eq_of_toNat_eq
      unfold u16Max at hlong
      simp only [BitVec.toNat_setWidth]
      omega
    simp [machUint16Read, hget, hback]

def wirePosition (index total : BitVec 16) : List UInt8 :=
  if total.toNat > u8Max then Bytes.encode 2 index.toNat ++ Bytes.encode 2 total.toNat
  else Bytes.encode 1 (index.setWidth 8).toNat ++ Bytes.encode 1 (total.setWidth 8).toNat

theorem encodes_position (index total : BitVec 16) :
    Encodes (writePosition index total) (wirePosition index total) := by
  unfold writePosition wirePosition
  by_cases hlong : total.toNat > u8Max
  · simp only [hlong, if_true]
    exact (Encodes.put _).bind (Encodes.put _)
  · simp only [hlong, if_false]
    exact (Encodes.put _).bind (Encodes.put _)

/-- The index of a segment fits in as many bytes as the number of segments. -/
theorem decodes_position {index total : BitVec 16} (hlt : index.toNat < total.toNat) :
    Decodes (readPosition (decide (total.toNat > u8Max))) (wirePosition index total)
      (index, total) := by
  unfold readPosition wirePosition
  by_cases hlong : total.toNat > u8Max
  · simp only [hlong, if_true, decide_true]
    intro strm rest h
    rw [List.append_assoc] at h
    obtain ⟨strm₁, hget₁, h₁⟩ := Decodes.getBits index (by decide) strm _ h
    obtain ⟨strm₂, hget₂, h₂⟩ := Decodes.getBits total (by decide) strm₁ _ h₁
    refine ⟨strm₂, ?_, h₂⟩
    simp [machUint16Read, hget₁, hget₂]
  · simp only [hlong, if_false, decide_false]
    intro strm rest h
    rw [List.append_assoc] at h
    obtain ⟨strm₁, hget₁, h₁⟩ := Decodes.getBits (index.setWidth 8) (by decide) strm _ h
    obtain ⟨strm₂, hget₂, h₂⟩ := Decodes.getBits (total.setWidth 8) (by decide) strm₁ _ h₁
    refine ⟨strm₂, ?_, h₂⟩
    unfold u8Max at hlong
    have hindex : (index.setWidth 8).setWidth 16 = index := by
      apply BitVec.eq_of_toNat_eq
      simp only [BitVec.toNat_setWidth]
      omega
    have htotal : (total.setWidth 8).setWidth 16 = total := by
      apply BitVec.eq_of_toNat_eq
      simp only [BitVec.toNat_setWidth]
      omega
    simp [machUint8Read, hget₁, hget₂, hindex, htotal]

/-- The bits of a byte that is put together from five flags. -/
theorem mask_bits : ∀ low a b c d : Bool,
    let mask : BitVec 8 := if low then 1 else 0
    let mask := if a then mask ||| 1#8 <<< 7 else mask
    let mask := if b then mask ||| 1#8 <<< 6 else mask
    let mask := if c then mask ||| 1#8 <<< 5 else mask
    let mask := if d then mask ||| 1#8 <<< 4 else mask
    mask &&& 0x01 = (if low then 1 else 0) ∧ (mask &&& 1#8 <<< 7 != 0) = a ∧
      (mask &&& 1#8 <<< 6 != 0) = b ∧ (mask &&& 1#8 <<< 5 != 0) = c ∧
      (mask &&& 1#8 <<< 4 != 0) = d := by
  decide

/-- The bits of the first byte of a segment. -/
theorem segmentMask_bits (body : SimSegment) :
    segmentMask body &&& 0x01 = body.ftype &&& 0x01 ∧
    (segmentMask body &&& 1#8 <<< 7 != 0) = decide (body.packetId.toNat > u16Max) ∧
    (segmentMask body &&& 1#8 <<< 6 != 0) = decide (body.fid.toNat > u16Max) ∧
    (segmentMask body &&& 1#8 <<< 5 != 0) = decide (body.total.toNat > u8Max) ∧
    (segmentMask body &&& 1#8 <<< 4 != 0) = decide (body.remb = 0) := by
  obtain ⟨low, hlow⟩ : ∃ low : Bool, body.ftype &&& 0x01 = if low then 1 else 0 := by
    have hmod : (body.ftype &&& 0x01).toNat = body.ftype.toNat % 2 := by
      simp [BitVec.toNat_and, Nat.and_one_is_mod]
    cases Nat.mod_two_eq_zero_or_one body.ftype.toNat with
    | inl h => exact ⟨false, BitVec.eq_of_toNat_eq (hmod.trans h)⟩
    | inr h => exact ⟨true, BitVec.eq_of_toNat_eq (hmod.trans h)⟩
  have hbits := mask_bits low (decide (body.packetId.toNat > u16Max))
    (decide (body.fid.toNat > u16Max)) (decide (body.total.toNat > u8Max)) (decide (body.remb = 0))
  simp only [decide_eq_true_eq, ← hlow] at hbits
  exact hbits

/-! ## The bytes of a body -/

/-- The elements of a nack list with the indices `i, …, i + n - 1`. -/
def nackFrom (body : SimSegmentAck) (i n : Nat) : List (BitVec 16) :=
  (body.nack.toList.drop i).take n

def wireNack (nack : List (BitVec 16)) : List UInt8 :=
  nack.flatMap fun seq => Bytes.encode 2 seq.toNat

def wireSegment (body : SimSegment) : List UInt8 :=
  Bytes.encode 1 (segmentMask body).toNat ++ (Bytes.encode 1 body.payloadType.toNat ++
    (wireId body.packetId ++ (wireId body.fid ++ (Bytes.encode 4 body.timestamp.toNat ++
      (wirePosition body.index body.total ++ (Bytes.encode 2 body.sendTs.toNat ++
        (Bytes.encode 2 body.transportSeq.toNat ++
          wireData body.data body.dataSize.toNat)))))))

def wireSegmentAck (body : SimSegmentAck) : List UInt8 :=
  Bytes.encode 4 body.basePacketId.toNat ++ (Bytes.encode 4 body.ackedPacketId.toNat ++
    (Bytes.encode 1 body.nackNum.toNat ++ wireNack (nackFrom body 0 body.nackNum.toNat)))

def wireBody : SimBody → List UInt8
  | .connect body => Bytes.encode 4 body.cid.toNat ++ wireData body.token body.tokenSize.toNat
  | .connectAck body => Bytes.encode 4 body.cid.toNat ++ Bytes.encode 4 body.result.toNat
  | .disconnect body => Bytes.encode 4 body.cid.toNat
  | .ping body => Bytes.encode 8 body.ts.toNat
  | .seg body => wireSegment body
  | .segAck body => wireSegmentAck body
  | .feedback body =>
      Bytes.encode 4 body.basePacketId.toNat ++ wireData body.feedback body.feedbackSize.toNat

/-- The body is the struct that the message is about. -/
def SimBody.Fits : SimBody → MsgId → Prop
  | .connect _, .connect => True
  | .connectAck _, .connectAck => True
  | .connectAck _, .disconnectAck => True
  | .disconnect _, .disconnect => True
  | .ping _, .ping => True
  | .ping _, .pong => True
  | .seg _, .seg => True
  | .segAck _, .segAck => True
  | .feedback _, .feedback => True
  | _, _ => False

/-- The sizes are those of the arrays, and a segment lies within its frame. -/
def SimBody.InRange : SimBody → Prop
  | .connect body => body.tokenSize.toNat ≤ simTokenSize
  | .seg body => body.index.toNat < body.total.toNat ∧ body.dataSize.toNat ≤ simVideoSize
  | .segAck body => body.nackNum.toNat ≤ nackNum
  | .feedback body => body.feedbackSize.toNat ≤ simFeedbackSize
  | _ => True

theorem nackFrom_succ (body : SimSegmentAck) {i n : Nat} (h : i < nackNum) :
    ∃ seq, BoundedArray.load body.nack i = some seq ∧
      nackFrom body i (n + 1) = seq :: nackFrom body (i + 1) n := by
  have hlen : i < body.nack.toList.length := by simpa using h
  refine ⟨body.nack.toList[i], ?_, ?_⟩
  · simp [BoundedArray.load, h]
  · rw [nackFrom, List.drop_eq_getElem_cons hlen, List.take_succ_cons]
    rfl

theorem encodes_nack (body : SimSegmentAck) {n i : Nat} (h : i + n ≤ nackNum) :
    Encodes (encodeNack body n i) (wireNack (nackFrom body i n)) := by
  induction n generalizing i with
  | zero => exact Encodes.nil
  | succ n ih =>
      obtain ⟨seq, hload, heq⟩ := nackFrom_succ body (n := n) (show i < nackNum by omega)
      have hrest : Encodes (encodeNack body n (i + 1)) (wireNack (nackFrom body (i + 1) n)) :=
        ih (by omega)
      have hstep : encodeNack body (n + 1) i = fun strm =>
          (strm.put (Bytes.encode 2 seq.toNat)).bind (encodeNack body n (i + 1)) := by
        ext1 strm
        rw [encodeNack, hload]
        rfl
      rw [hstep, heq]
      exact (Encodes.put _).bind hrest

theorem encodes_segment {body : SimSegment} (h : body.dataSize.toNat ≤ simVideoSize) :
    Encodes (simSegmentEncode body) (wireSegment body) := by
  have hdata := encodes_data body.data h body.dataSize.isLt
  exact (Encodes.put _).bind ((Encodes.put _).bind ((encodes_id _).bind ((encodes_id _).bind
    ((Encodes.put _).bind ((encodes_position _ _).bind ((Encodes.put _).bind
      ((Encodes.put _).bind hdata)))))))

/-- **Every body** is written field by field. -/
theorem encodes_body {id : MsgId} {body : SimBody} (hfits : body.Fits id) (hr : body.InRange) :
    Encodes (encodeBody id.mid body) (wireBody body) := by
  cases id <;> cases body <;> first | exact absurd hfits id | skip
  case connect.connect body =>
    exact (Encodes.put _).bind (encodes_data _ hr body.tokenSize.isLt)
  case connectAck.connectAck body => exact (Encodes.put _).bind (Encodes.put _)
  case disconnectAck.connectAck body => exact (Encodes.put _).bind (Encodes.put _)
  case disconnect.disconnect body => exact Encodes.put _
  case ping.ping body => exact Encodes.put _
  case pong.ping body => exact Encodes.put _
  case seg.seg body => exact encodes_segment hr.2
  case segAck.segAck body =>
    exact (Encodes.put _).bind ((Encodes.put _).bind ((Encodes.put _).bind
      (encodes_nack body (by rw [Nat.zero_add]; exact hr))))
  case feedback.feedback body =>
    exact (Encodes.put _).bind (encodes_data _ hr body.feedbackSize.isLt)

/-! ## What is read of a body -/

/-- Two arrays agree on the first `n` elements. -/
def SameData {α : Type} {m : Nat} (a b : Vector α m) (n : Nat) : Prop :=
  ∀ i, i < n → BoundedArray.load a i = BoundedArray.load b i

/-- A body as the decoder leaves it. -/
def Recovered : SimBody → SimBody → Prop
  | .connect body, .connect body' =>
      body'.cid = body.cid ∧ body'.tokenSize = body.tokenSize ∧
        SameData body'.token body.token body.tokenSize.toNat
  | .connectAck body, .connectAck body' => body' = body
  | .disconnect body, .disconnect body' => body' = body
  | .ping body, .ping body' => body' = body
  | .seg body, .seg body' =>
      SameData body'.data body.data body.dataSize.toNat ∧
        body' = { body with
          ftype := body.ftype &&& 0x01
          remb := if body.remb = 0 then 0 else 0xff
          data := body'.data }
  | .segAck body, .segAck body' =>
      SameData body'.nack body.nack body.nackNum.toNat ∧
        body' = { body with nack := body'.nack }
  | .feedback body, .feedback body' =>
      body'.basePacketId = body.basePacketId ∧ body'.feedbackSize = body.feedbackSize ∧
        SameData body'.feedback body.feedback body.feedbackSize.toNat
  | _, _ => False

theorem decodes_connect {body : SimConnect} (old : SimConnect)
    (h : body.tokenSize.toNat ≤ simTokenSize) :
    ∃ token, Decodes (simConnectDecode old)
        (Bytes.encode 4 body.cid.toNat ++ wireData body.token body.tokenSize.toNat)
        { body with token } ∧
      SameData token body.token body.tokenSize.toNat := by
  obtain ⟨token, hdec, hsame⟩ := decodes_data body.token old.token h body.tokenSize.isLt
  refine ⟨token, ?_, hsame⟩
  intro strm rest hr
  rw [List.append_assoc] at hr
  obtain ⟨strm₁, hget₁, h₁⟩ := Decodes.getBits _ (by decide) strm _ hr
  obtain ⟨strm₂, hget₂, h₂⟩ := hdec strm₁ rest h₁
  refine ⟨strm₂, ?_, h₂⟩
  have hlen := readSize_ofNat (Nat.le_trans h (by decide))
  simp only [simConnectDecode, machUint32Read, hget₁, hget₂, hlen, Option.bind_eq_bind,
    Option.bind_some]

theorem decodes_connectAck (body : SimConnectAck) :
    Decodes simConnectAckDecode
      (Bytes.encode 4 body.cid.toNat ++ Bytes.encode 4 body.result.toNat) body := by
  intro strm rest hr
  rw [List.append_assoc] at hr
  obtain ⟨strm₁, hget₁, h₁⟩ := Decodes.getBits body.cid (by decide) strm _ hr
  obtain ⟨strm₂, hget₂, h₂⟩ := Decodes.getBits body.result (by decide) strm₁ _ h₁
  refine ⟨strm₂, ?_, h₂⟩
  simp only [simConnectAckDecode, machUint32Read, hget₁, hget₂, Option.bind_eq_bind,
    Option.bind_some]

theorem decodes_disconnect (body : SimDisconnect) :
    Decodes simDisconnectDecode (Bytes.encode 4 body.cid.toNat) body := by
  have hcid := @Decodes.getBits 4 32 body.cid (by decide)
  exact hcid.map SimDisconnect.mk

theorem decodes_ping (body : SimPing) :
    Decodes simPingDecode (Bytes.encode 8 body.ts.toNat) body := by
  have hts := @Decodes.getBits 8 64 body.ts (by decide)
  exact hts.map SimPing.mk

theorem decodes_feedback {body : SimFeedback} (old : SimFeedback)
    (h : body.feedbackSize.toNat ≤ simFeedbackSize) :
    ∃ feedback, Decodes (simFeedbakDecode old)
        (Bytes.encode 4 body.basePacketId.toNat ++
          wireData body.feedback body.feedbackSize.toNat) { body with feedback } ∧
      SameData feedback body.feedback body.feedbackSize.toNat := by
  obtain ⟨feedback, hdec, hsame⟩ := decodes_data body.feedback old.feedback h
    body.feedbackSize.isLt
  refine ⟨feedback, ?_, hsame⟩
  intro strm rest hr
  rw [List.append_assoc] at hr
  obtain ⟨strm₁, hget₁, h₁⟩ := Decodes.getBits _ (by decide) strm _ hr
  obtain ⟨strm₂, hget₂, h₂⟩ := hdec strm₁ rest h₁
  refine ⟨strm₂, ?_, h₂⟩
  have hlen := readSize_ofNat (Nat.le_trans h (by decide))
  simp only [simFeedbakDecode, machUint32Read, hget₁, hget₂, hlen, Option.bind_eq_bind,
    Option.bind_some]

theorem decodes_nack {seqs : List (BitVec 16)} {i : Nat} (old : Vector (BitVec 16) nackNum)
    (h : i + seqs.length ≤ nackNum) :
    ∃ nack, Decodes (decodeNack seqs.length i old) (wireNack seqs) nack ∧
      BoundedArray.storeAll old i seqs = some nack := by
  induction seqs generalizing i old with
  | nil => exact ⟨old, fun strm _ hr => ⟨strm, rfl, hr⟩, rfl⟩
  | cons seq seqs ih =>
      rw [List.length_cons] at h
      obtain ⟨old', hstore⟩ := BoundedArray.store_isSome (a := old) (show i < nackNum by omega) seq
      obtain ⟨nack, hdec, hall⟩ := ih (i := i + 1) old' (by omega)
      refine ⟨nack, ?_, ?_⟩
      · intro strm rest hr
        have hwire : wireNack (seq :: seqs) = Bytes.encode 2 seq.toNat ++ wireNack seqs :=
          List.flatMap_cons
        rw [hwire, List.append_assoc] at hr
        obtain ⟨strm₁, hget, hr₁⟩ := Decodes.getBits seq (by decide) strm _ hr
        obtain ⟨strm₂, hloop, hr₂⟩ := hdec strm₁ rest hr₁
        refine ⟨strm₂, ?_, hr₂⟩
        simp only [List.length_cons, decodeNack, machUint16Read, hget, hstore, hloop,
          Option.bind_eq_bind, Option.bind_some]
      · simp only [BoundedArray.storeAll, hstore, Option.bind_eq_bind, Option.bind_some]
        exact hall

theorem length_nackFrom (body : SimSegmentAck) {n : Nat} (h : n ≤ nackNum) :
    (nackFrom body 0 n).length = n := by
  simp [nackFrom, h]

theorem decodes_segmentAck {body : SimSegmentAck} (old : SimSegmentAck)
    (h : body.nackNum.toNat ≤ nackNum) :
    ∃ nack, Decodes (simSegmentAckDecode old) (wireSegmentAck body) { body with nack } ∧
      SameData nack body.nack body.nackNum.toNat := by
  have hlen := length_nackFrom body h
  have hfit : 0 + (nackFrom body 0 body.nackNum.toNat).length ≤ nackNum := by omega
  obtain ⟨nack, hdec, hall⟩ := decodes_nack old.nack hfit
  have hnum : (if body.nackNum.toNat < nackNum then body.nackNum else BitVec.ofNat 8 nackNum)
      = body.nackNum := by
    by_cases hlt : body.nackNum.toNat < nackNum
    · exact if_pos hlt
    · have heq : body.nackNum.toNat = nackNum := by omega
      rw [if_neg hlt, ← heq, BitVec.ofNat_toNat, BitVec.setWidth_eq]
  refine ⟨nack, ?_, ?_⟩
  · intro strm rest hr
    simp only [wireSegmentAck, List.append_assoc] at hr
    obtain ⟨strm₁, hget₁, h₁⟩ := Decodes.getBits _ (by decide) strm _ hr
    obtain ⟨strm₂, hget₂, h₂⟩ := Decodes.getBits _ (by decide) strm₁ _ h₁
    obtain ⟨strm₃, hget₃, h₃⟩ := Decodes.getBits _ (by decide) strm₂ _ h₂
    obtain ⟨strm₄, hloop, h₄⟩ := hdec strm₃ rest h₃
    rw [hlen] at hloop
    refine ⟨strm₄, ?_, h₄⟩
    simp only [simSegmentAckDecode, machUint32Read, machUint8Read, hget₁, hget₂, hget₃, hnum,
      hloop, Option.bind_eq_bind, Option.bind_some]
  · obtain ⟨nack', hall', hnew, -⟩ := BoundedArray.storeAll_eq (a := old.nack) hfit
    obtain rfl := Option.some.inj (hall.symm.trans hall')
    intro i hi
    have hload := hnew i (by omega)
    rw [Nat.zero_add] at hload
    rw [hload]
    simp [nackFrom, BoundedArray.load, List.getElem?_take_of_lt hi]

theorem decodes_segment {body : SimSegment} (old : SimSegment)
    (hlt : body.index.toNat < body.total.toNat) (hsize : body.dataSize.toNat ≤ simVideoSize) :
    ∃ data, Decodes (simSegmentDecode old) (wireSegment body)
        { body with
          ftype := body.ftype &&& 0x01
          remb := if body.remb = 0 then 0 else 0xff
          data } ∧
      SameData data body.data body.dataSize.toNat := by
  obtain ⟨hlow, hpacket, hfid, htotal, hremb⟩ := segmentMask_bits body
  obtain ⟨data, hdec, hsame⟩ := decodes_data body.data old.data hsize body.dataSize.isLt
  refine ⟨data, ?_, hsame⟩
  intro strm rest hr
  simp only [wireSegment, List.append_assoc] at hr
  obtain ⟨strm₁, hget₁, h₁⟩ := Decodes.getBits _ (by decide) strm _ hr
  obtain ⟨strm₂, hget₂, h₂⟩ := Decodes.getBits _ (by decide) strm₁ _ h₁
  obtain ⟨strm₃, hget₃, h₃⟩ := decodes_id _ strm₂ _ h₂
  obtain ⟨strm₄, hget₄, h₄⟩ := decodes_id _ strm₃ _ h₃
  obtain ⟨strm₅, hget₅, h₅⟩ := Decodes.getBits _ (by decide) strm₄ _ h₄
  obtain ⟨strm₆, hget₆, h₆⟩ := decodes_position hlt strm₅ _ h₅
  obtain ⟨strm₇, hget₇, h₇⟩ := Decodes.getBits _ (by decide) strm₆ _ h₆
  obtain ⟨strm₈, hget₈, h₈⟩ := Decodes.getBits _ (by decide) strm₇ _ h₇
  obtain ⟨strm₉, hget₉, h₉⟩ := hdec strm₈ rest h₈
  refine ⟨strm₉, ?_, h₉⟩
  simp only [simSegmentDecode, machUint8Read, machUint16Read, machUint32Read, hget₁, hget₂,
    hpacket, hget₃, hfid, hget₄, hget₅, htotal, hget₆, hget₇, hget₈, hget₉, hlow, hremb,
    Option.bind_eq_bind, Option.bind_some, readSize_ofNat hsize, decide_eq_true_eq]

@[simp] theorem ofMid_mid (id : MsgId) : MsgId.ofMid id.mid = some id := by
  cases id <;> rfl

/-- **Every body** is read back, whatever the struct held before. -/
theorem decodes_body {id : MsgId} {header : SimHeader} {body old : SimBody}
    (hid : header.mid = id.mid) (hfits : body.Fits id) (hold : old.Fits id)
    (hr : body.InRange) :
    ∃ body', Decodes (fun strm => simDecodeMsg strm header old) (wireBody body) (0, body') ∧
      Recovered body body' := by
  obtain ⟨ver, mid, uid⟩ := header
  obtain rfl : mid = id.mid := hid
  cases id <;> cases body <;> (first | exact absurd hfits not_false | skip) <;> cases old <;>
    first | exact absurd hold not_false | skip
  case connect.connect.connect body old =>
    obtain ⟨token, hdec, hsame⟩ := decodes_connect old hr
    exact ⟨.connect { body with token },
      hdec.map fun body => ((0 : Int), SimBody.connect body), rfl, rfl, hsame⟩
  case connectAck.connectAck.connectAck body old =>
    exact ⟨.connectAck body,
      (decodes_connectAck body).map fun body => ((0 : Int), SimBody.connectAck body), rfl⟩
  case disconnectAck.connectAck.connectAck body old =>
    exact ⟨.connectAck body,
      (decodes_connectAck body).map fun body => ((0 : Int), SimBody.connectAck body), rfl⟩
  case disconnect.disconnect.disconnect body old =>
    exact ⟨.disconnect body,
      (decodes_disconnect body).map fun body => ((0 : Int), SimBody.disconnect body), rfl⟩
  case ping.ping.ping body old =>
    exact ⟨.ping body, (decodes_ping body).map fun body => ((0 : Int), SimBody.ping body), rfl⟩
  case pong.ping.ping body old =>
    exact ⟨.ping body, (decodes_ping body).map fun body => ((0 : Int), SimBody.ping body), rfl⟩
  case seg.seg.seg body old =>
    obtain ⟨data, hdec, hsame⟩ := decodes_segment old hr.1 hr.2
    exact ⟨.seg { body with
      ftype := body.ftype &&& 0x01
      remb := if body.remb = 0 then 0 else 0xff
      data }, hdec.map fun body => ((0 : Int), SimBody.seg body), hsame, rfl⟩
  case segAck.segAck.segAck body old =>
    obtain ⟨nack, hdec, hsame⟩ := decodes_segmentAck old hr
    exact ⟨.segAck { body with nack },
      hdec.map fun body => ((0 : Int), SimBody.segAck body), hsame, rfl⟩
  case feedback.feedback.feedback body old =>
    obtain ⟨feedback, hdec, hsame⟩ := decodes_feedback old hr
    exact ⟨.feedback { body with feedback },
      hdec.map fun body => ((0 : Int), SimBody.feedback body), rfl, rfl, hsame⟩

/-! ## Whole messages -/

def wireHeader (header : SimHeader) : List UInt8 :=
  Bytes.encode 1 header.ver.toNat ++ (Bytes.encode 1 header.mid.toNat ++
    Bytes.encode 4 header.uid.toNat)

/-- The bytes that the checksum is about. -/
def wireContent (header : SimHeader) (body : SimBody) : List UInt8 :=
  wireHeader header ++ wireBody body

def wireMsg (header : SimHeader) (body : SimBody) : List UInt8 :=
  wireContent header body ++
    Bytes.encode 4 (crc32 crcVal (wireContent header body)).toNat

/-- A stream that holds some bytes from its start on, none of them read. -/
structure Received (strm : BinStream) (bytes : List UInt8) : Prop extends Reading strm bytes where
  fresh : strm.rsize = 0

variable {id : MsgId} {header : SimHeader} {body : SimBody} {strm : BinStream}

theorem encodes_header (header : SimHeader) :
    Encodes (simEncodeHeader header) (wireHeader header) :=
  (Encodes.put _).bind ((Encodes.put _).bind (Encodes.put _))

theorem rewind_writing (h : 0 < strm.size) : Writing (strm.rewind 1) [] :=
  ⟨h, rfl, rfl, Nat.zero_le _, rfl⟩

/-- What has been written to a stream can be read from it after `bin_stream_rewind`. -/
theorem received_rewind {bytes : List UInt8} (h : Writing strm bytes) :
    Received (strm.rewind 0) bytes where
  rptr := rfl
  used := (Nat.zero_add _).trans h.used.symm
  size := Nat.le_trans (Nat.le_of_eq h.used) h.size
  data := h.data
  fresh := rfl

/-- **What the encoder writes**: the header, the body and the checksum. -/
theorem simEncodeMsg_eq (hsize : 0 < strm.size) (hid : header.mid = id.mid)
    (hfits : body.Fits id) (hr : body.InRange) :
    ∃ strm', simEncodeMsg strm header body = some strm' ∧ Writing strm' (wireMsg header body) := by
  obtain ⟨strm₁, henc₁, h₁⟩ := encodes_header header _ _ (rewind_writing hsize)
  obtain ⟨strm₂, henc₂, h₂⟩ := encodes_body hfits hr strm₁ _ h₁
  have hbytes : bytesAt strm₂.data 0 strm₂.used = wireContent header body := by
    rw [h₂.used, h₂.data]
    rfl
  obtain ⟨strm₃, henc₃, h₃⟩ :=
    h₂.put (Bytes.encode 4 (crc32 crcVal (wireContent header body)).toNat)
  refine ⟨strm₃, ?_, h₃⟩
  rw [← hid] at henc₂
  simp only [simEncodeMsg, henc₁, henc₂, hbytes, machUint32Write, henc₃, Option.bind_eq_bind,
    Option.bind_some]

/-- The checksum stands behind the bytes that it is about. -/
theorem trailer_eq {content : List UInt8} {crc : BitVec 32}
    (h : Received strm (content ++ Bytes.encode 4 crc.toNat)) :
    trailer strm = some crc ∧ bytesAt strm.data 0 (strm.used - 4) = content := by
  have hused := h.used
  have hdata := h.data
  have hsize := h.size
  rw [h.fresh, Nat.zero_add, List.length_append, Bytes.length_encode] at hused
  rw [h.rptr, h.fresh, List.length_append, Bytes.length_encode, bytesAt_append] at hdata
  obtain ⟨hcontent, hcrc⟩ := List.append_inj hdata (length_bytesAt ..)
  have hfront : strm.used - 4 = content.length := by omega
  rw [Nat.zero_add] at hcrc
  constructor
  · rw [trailer, if_pos ⟨by omega, hsize⟩, hfront, hcrc, Bytes.decode_encode_of_lt crc.isLt,
      BitVec.ofNat_toNat, BitVec.setWidth_eq]
  · rw [hfront, hcontent]

/-- **The decoder accepts** what the encoder wrote, and finds the header. -/
theorem simDecodeHeader_eq (h : Received strm (wireMsg header body)) (old : SimHeader) :
    ∃ strm', simDecodeHeader strm old = some ((0, header), strm') ∧
      Reading strm' (wireBody body ++
        Bytes.encode 4 (crc32 crcVal (wireContent header body)).toNat) := by
  obtain ⟨htrailer, hcontent⟩ := trailer_eq h
  have hr := h.toReading
  simp only [wireMsg, wireContent, wireHeader, List.append_assoc] at hr
  obtain ⟨strm₁, hget₁, h₁⟩ := Decodes.getBits header.ver (by decide) strm _ hr
  obtain ⟨strm₂, hget₂, h₂⟩ := Decodes.getBits header.mid (by decide) strm₁ _ h₁
  obtain ⟨strm₃, hget₃, h₃⟩ := Decodes.getBits header.uid (by decide) strm₂ _ h₂
  refine ⟨strm₃, ?_, ?_⟩
  · simp only [simDecodeHeader, htrailer, hcontent, if_true, machUint8Read, machUint32Read,
      hget₁, hget₂, hget₃, Option.bind_eq_bind, Option.bind_some]
  · simpa only [wireContent, wireHeader, List.append_assoc] using h₃

/-- **The round trip**: for every message, the bytes that the encoder leaves in its stream
are accepted by the decoder on any stream that holds them; it finds the header and then
the body again. -/
theorem codec_roundTrips (hsize : 0 < strm.size) (hid : header.mid = id.mid)
    (hfits : body.Fits id) (hr : body.InRange) :
    ∃ strm' bytes, simEncodeMsg strm header body = some strm' ∧
      Received (strm'.rewind 0) bytes ∧
      ∀ rstrm oldHeader oldBody, Received rstrm bytes → SimBody.Fits oldBody id →
        ∃ rstrm₁ rstrm₂ body',
          simDecodeHeader rstrm oldHeader = some ((0, header), rstrm₁) ∧
          simDecodeMsg rstrm₁ header oldBody = some ((0, body'), rstrm₂) ∧
          Recovered body body' := by
  obtain ⟨strm', henc, hw⟩ := simEncodeMsg_eq hsize hid hfits hr
  refine ⟨strm', wireMsg header body, henc, received_rewind hw, ?_⟩
  intro rstrm oldHeader oldBody hreceived hold
  obtain ⟨rstrm₁, hdecH, h₁⟩ := simDecodeHeader_eq hreceived oldHeader
  obtain ⟨body', hdec, hrec⟩ := decodes_body hid hfits hold hr
  obtain ⟨rstrm₂, hdecB, h₂⟩ := hdec rstrm₁ _ h₁
  exact ⟨rstrm₁, rstrm₂, body', hdecH, hdecB, hrec⟩

/-- A segment with a long packet id, sent on a fresh stream. -/
theorem codec_roundTrips_segment :
    ∃ strm' bytes, simEncodeMsg (init fun _ => 0) ⟨1, 0x17, 7⟩
        (.seg ⟨70000, 3, 90, 2, 5, 3, 0, 9, 4, 65535, 3, Vector.replicate 1000 5⟩) = some strm' ∧
      Received (strm'.rewind 0) bytes ∧
      ∀ rstrm oldHeader oldBody, Received rstrm bytes → SimBody.Fits oldBody .seg →
        ∃ rstrm₁ rstrm₂ body',
          simDecodeHeader rstrm oldHeader = some ((0, ⟨1, 0x17, 7⟩), rstrm₁) ∧
          simDecodeMsg rstrm₁ ⟨1, 0x17, 7⟩ oldBody = some ((0, body'), rstrm₂) ∧
          Recovered (.seg ⟨70000, 3, 90, 2, 5, 3, 0, 9, 4, 65535, 3, Vector.replicate 1000 5⟩)
            body' :=
  @codec_roundTrips .seg ⟨1, 0x17, 7⟩ _ _ (Nat.succ_pos _) rfl trivial ⟨by decide, by decide⟩

end SimProto

end Razor
