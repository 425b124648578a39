import RmcatNs3.Razor.BinStream
import RmcatNs3.Razor.FeedbackMsg

/-!
# The feedback codec

`razor/estimator/estimator_common.c`. Decoding what has been encoded gives back
every part whose flag is set, except for the arrival times: these are written
as 16-bit distances to `min_ts`, and come back exactly if they are that near.
-/

namespace Razor

open BinStream StructMemory

namespace FeedbackMsg

/-! ## Encoding -/

def encodeRemb (msg : FeedbackMsg) (strm : BinStream) : Option BinStream :=
  if msg.hasFlag rembMsg then strm.machUint32Write msg.remb else some strm

def encodeLossInfo (msg : FeedbackMsg) (strm : BinStream) : Option BinStream :=
  if msg.hasFlag lossInfoMsg then do
    let strm ← strm.machUint8Write msg.fractionLoss
    strm.machInt32Write msg.packetNum
  else some strm

/-- The loop over `samples`, with `n` samples left from index `i` on. -/
def encodeSamples (msg : FeedbackMsg) : Nat → Nat → BinStream → Option BinStream
  | 0, _, strm => some strm
  | n + 1, i, strm => do
      let sample ← BoundedArray.load msg.samples i
      let strm ← strm.machUint16Write sample.seq
      let strm ← strm.machUint16Write ((sample.ts - msg.minTs).setWidth 16)
      encodeSamples msg n (i + 1) strm

def encodeProxyTs (msg : FeedbackMsg) (strm : BinStream) : Option BinStream :=
  if msg.hasFlag proxyTsMsg then do
    let strm ← strm.machInt64Write msg.baseSeq
    let strm ← strm.machInt64Write msg.minTs
    let strm ← strm.machUint8Write msg.samplesNum
    msg.encodeSamples msg.samplesNum.toNat 0 strm
  else some strm

/-- `feedback_msg_encode`. -/
def encode (msg : FeedbackMsg) (strm : BinStream) : Option BinStream := do
  let strm ← strm.machUint8Write msg.flag
  let strm ← msg.encodeRemb strm
  let strm ← msg.encodeLossInfo strm
  msg.encodeProxyTs strm

/-! ## Decoding -/

def decodeRemb (strm : BinStream) (msg : FeedbackMsg) :
    Option (BinStream × FeedbackMsg) :=
  if msg.hasFlag rembMsg then do
    let (remb, strm) ← strm.machUint32Read
    some (strm, { msg with remb })
  else some (strm, msg)

def decodeLossInfo (strm : BinStream) (msg : FeedbackMsg) :
    Option (BinStream × FeedbackMsg) :=
  if msg.hasFlag lossInfoMsg then do
    let (fractionLoss, strm) ← strm.machUint8Read
    let (packetNum, strm) ← strm.machInt32Read
    some (strm, { msg with fractionLoss, packetNum })
  else some (strm, msg)

/-- The loop over `samples`, with `n` samples left from index `i` on. -/
def decodeSamples : Nat → Nat → BinStream → FeedbackMsg →
    Option (BinStream × FeedbackMsg)
  | 0, _, strm, msg => some (strm, msg)
  | n + 1, i, strm, msg => do
      let (seq, strm) ← strm.machUint16Read
      let (deltaTs, strm) ← strm.machUint16Read
      let samples ← BoundedArray.store msg.samples i
        ⟨seq, msg.minTs + deltaTs.setWidth 64⟩
      decodeSamples n (i + 1) strm { msg with samples }

def decodeProxyTs (strm : BinStream) (msg : FeedbackMsg) :
    Option (BinStream × FeedbackMsg) :=
  if msg.hasFlag proxyTsMsg then do
    let (baseSeq, strm) ← strm.machInt64Read
    let (minTs, strm) ← strm.machInt64Read
    let (samplesNum, strm) ← strm.machUint8Read
    let samplesNum := if samplesNum.toNat > maxFeelbackCount then 0 else samplesNum
    decodeSamples samplesNum.toNat 0 strm { msg with baseSeq, minTs, samplesNum }
  else some (strm, msg)

/-- `feedback_msg_decode`. -/
def decode (strm : BinStream) (msg : FeedbackMsg) : Option (BinStream × FeedbackMsg) := do
  let (flag, strm) ← strm.machUint8Read
  let (strm, msg) ← decodeRemb strm { msg with flag }
  let (strm, msg) ← decodeLossInfo strm msg
  decodeProxyTs strm msg

/-! ## The bytes of a message -/

def wireRemb (msg : FeedbackMsg) : List UInt8 :=
  if msg.hasFlag rembMsg then Bytes.encode 4 msg.remb.toNat else []

def wireLossInfo (msg : FeedbackMsg) : List UInt8 :=
  if msg.hasFlag lossInfoMsg then
    Bytes.encode 1 msg.fractionLoss.toNat ++ Bytes.encode 4 msg.packetNum.toNat
  else []

def wireSample (minTs : BitVec 64) (sample : FeedbackSample) : List UInt8 :=
  Bytes.encode 2 sample.seq.toNat ++
    Bytes.encode 2 ((sample.ts - minTs).setWidth 16).toNat

/-- The samples with the indices `i, …, i + n - 1`. -/
def samplesFrom (msg : FeedbackMsg) (i n : Nat) : List FeedbackSample :=
  (List.range' i n).filterMap (BoundedArray.load msg.samples)

def wireProxyTs (msg : FeedbackMsg) : List UInt8 :=
  if msg.hasFlag proxyTsMsg then
    Bytes.encode 8 msg.baseSeq.toNat ++ (Bytes.encode 8 msg.minTs.toNat ++
      (Bytes.encode 1 msg.samplesNum.toNat ++
        (msg.samplesFrom 0 msg.samplesNum.toNat).flatMap (wireSample msg.minTs)))
  else []

def wire (msg : FeedbackMsg) : List UInt8 :=
  Bytes.encode 1 msg.flag.toNat ++ (msg.wireRemb ++ (msg.wireLossInfo ++ msg.wireProxyTs))

/-- The samples fit in the array, if they are part of the message. -/
def WellFormed (msg : FeedbackMsg) : Prop :=
  msg.hasFlag proxyTsMsg = true → msg.samplesNum.toNat ≤ maxFeelbackCount

theorem samplesFrom_of_load {msg : FeedbackMsg} {i : Nat} {sample : FeedbackSample}
    (h : BoundedArray.load msg.samples i = some sample) (n : Nat) :
    msg.samplesFrom i (n + 1) = sample :: msg.samplesFrom (i + 1) n := by
  rw [samplesFrom, List.range'_succ, List.filterMap_cons_some h]
  rfl

theorem samplesFrom_succ (msg : FeedbackMsg) {i n : Nat} (h : i < maxFeelbackCount) :
    ∃ sample, BoundedArray.load msg.samples i = some sample ∧
      msg.samplesFrom i (n + 1) = sample :: msg.samplesFrom (i + 1) n := by
  obtain ⟨sample, hload⟩ := BoundedArray.load_isSome (a := msg.samples) h
  exact ⟨sample, hload, samplesFrom_of_load hload n⟩

theorem length_samplesFrom (msg : FeedbackMsg) {i n : Nat} (h : i + n ≤ maxFeelbackCount) :
    (msg.samplesFrom i n).length = n := by
  induction n generalizing i with
  | zero => rfl
  | succ n ih =>
      obtain ⟨sample, _, heq⟩ := msg.samplesFrom_succ (n := n) (show i < maxFeelbackCount by omega)
      rw [heq, List.length_cons, ih (by omega)]

variable {strm : BinStream} {bytes rest : List UInt8}

/-! ## What is written -/

theorem encodeRemb_eq (msg : FeedbackMsg) (h : Writing strm bytes) :
    ∃ strm', msg.encodeRemb strm = some strm' ∧ Writing strm' (bytes ++ msg.wireRemb) := by
  unfold encodeRemb wireRemb
  by_cases hflag : msg.hasFlag rembMsg = true
  · rw [if_pos hflag, if_pos hflag]
    exact h.put _
  · rw [if_neg hflag, if_neg hflag, List.append_nil]
    exact ⟨strm, rfl, h⟩

theorem encodeLossInfo_eq (msg : FeedbackMsg) (h : Writing strm bytes) :
    ∃ strm', msg.encodeLossInfo strm = some strm' ∧
      Writing strm' (bytes ++ msg.wireLossInfo) := by
  unfold encodeLossInfo wireLossInfo
  by_cases hflag : msg.hasFlag lossInfoMsg = true
  · rw [if_pos hflag, if_pos hflag]
    obtain ⟨strm₁, hput₁, h₁⟩ := h.put (Bytes.encode 1 msg.fractionLoss.toNat)
    obtain ⟨strm₂, hput₂, h₂⟩ := h₁.put (Bytes.encode 4 msg.packetNum.toNat)
    refine ⟨strm₂, ?_, by rwa [← List.append_assoc]⟩
    rw [machUint8Write, hput₁]
    exact hput₂
  · rw [if_neg hflag, if_neg hflag, List.append_nil]
    exact ⟨strm, rfl, h⟩

theorem encodeSamples_eq (msg : FeedbackMsg) {n i : Nat} (h : Writing strm bytes)
    (hfit : i + n ≤ maxFeelbackCount) :
    ∃ strm', msg.encodeSamples n i strm = some strm' ∧
      Writing strm' (bytes ++ (msg.samplesFrom i n).flatMap (wireSample msg.minTs)) := by
  induction n generalizing strm bytes i with
  | zero => exact ⟨strm, rfl, by simpa [samplesFrom] using h⟩
  | succ n ih =>
      obtain ⟨sample, hload, heq⟩ :=
        msg.samplesFrom_succ (n := n) (show i < maxFeelbackCount by omega)
      obtain ⟨strm₁, hput₁, h₁⟩ := h.put (Bytes.encode 2 sample.seq.toNat)
      obtain ⟨strm₂, hput₂, h₂⟩ :=
        h₁.put (Bytes.encode 2 ((sample.ts - msg.minTs).setWidth 16).toNat)
      obtain ⟨strm₃, hloop, h₃⟩ := ih h₂ (show i + 1 + n ≤ maxFeelbackCount by omega)
      refine ⟨strm₃, ?_, ?_⟩
      · simp only [encodeSamples, hload, machUint16Write, hput₁, hput₂,
          Option.bind_eq_bind, Option.bind_some, hloop]
      · rw [heq, List.flatMap_cons, wireSample]
        simpa only [List.append_assoc] using h₃

theorem encodeProxyTs_eq {msg : FeedbackMsg} (h : Writing strm bytes) (hwf : msg.WellFormed) :
    ∃ strm', msg.encodeProxyTs strm = some strm' ∧
      Writing strm' (bytes ++ msg.wireProxyTs) := by
  unfold encodeProxyTs wireProxyTs
  by_cases hflag : msg.hasFlag proxyTsMsg = true
  · rw [if_pos hflag, if_pos hflag]
    obtain ⟨strm₁, hput₁, h₁⟩ := h.put (Bytes.encode 8 msg.baseSeq.toNat)
    obtain ⟨strm₂, hput₂, h₂⟩ := h₁.put (Bytes.encode 8 msg.minTs.toNat)
    obtain ⟨strm₃, hput₃, h₃⟩ := h₂.put (Bytes.encode 1 msg.samplesNum.toNat)
    obtain ⟨strm₄, hloop, h₄⟩ := encodeSamples_eq msg h₃
      (show 0 + msg.samplesNum.toNat ≤ maxFeelbackCount by simpa using hwf hflag)
    refine ⟨strm₄, ?_, by simpa only [List.append_assoc] using h₄⟩
    simp only [machInt64Write, machUint8Write, hput₁, hput₂, hput₃,
      Option.bind_eq_bind, Option.bind_some, hloop]
  · rw [if_neg hflag, if_neg hflag, List.append_nil]
    exact ⟨strm, rfl, h⟩

/-- **Encoding** writes the bytes of the message. -/
theorem encode_eq {msg : FeedbackMsg} (h : Writing strm bytes) (hwf : msg.WellFormed) :
    ∃ strm', msg.encode strm = some strm' ∧ Writing strm' (bytes ++ msg.wire) := by
  obtain ⟨strm₁, hput, h₁⟩ := h.put (Bytes.encode 1 msg.flag.toNat)
  obtain ⟨strm₂, hremb, h₂⟩ := encodeRemb_eq msg h₁
  obtain ⟨strm₃, hloss, h₃⟩ := encodeLossInfo_eq msg h₂
  obtain ⟨strm₄, hproxy, h₄⟩ := encodeProxyTs_eq h₃ hwf
  refine ⟨strm₄, ?_, by simpa only [wire, List.append_assoc] using h₄⟩
  simp only [encode, machUint8Write, hput, hremb, hloss, Option.bind_eq_bind,
    Option.bind_some, hproxy]

theorem length_wireSamples (minTs : BitVec 64) (samples : List FeedbackSample) :
    (samples.flatMap (wireSample minTs)).length = samples.length * 4 := by
  induction samples with
  | nil => rfl
  | cons sample samples ih =>
      rw [List.flatMap_cons, List.length_append, ih, List.length_cons, wireSample]
      simp only [List.length_append, Bytes.length_encode]
      omega

/-- A message takes at most 539 bytes. -/
theorem length_wire_le {msg : FeedbackMsg} (hwf : msg.WellFormed) :
    msg.wire.length ≤ 539 := by
  have hremb : msg.wireRemb.length ≤ 4 := by
    unfold wireRemb
    split <;> simp
  have hloss : msg.wireLossInfo.length ≤ 5 := by
    unfold wireLossInfo
    split <;> simp
  have hproxy : msg.wireProxyTs.length ≤ 529 := by
    unfold wireProxyTs
    split
    · rename_i hflag
      have hnum := hwf hflag
      have hlen := msg.length_samplesFrom
        (show 0 + msg.samplesNum.toNat ≤ maxFeelbackCount by simpa using hnum)
      simp only [List.length_append, Bytes.length_encode, length_wireSamples, hlen]
      unfold maxFeelbackCount at hnum
      omega
    · exact Nat.zero_le _
  simp only [wire, List.length_append, Bytes.length_encode]
  omega

/-! ## What is read -/

/-- A sample as it comes back. -/
def reread (minTs : BitVec 64) (sample : FeedbackSample) : FeedbackSample :=
  ⟨sample.seq, minTs + ((sample.ts - minTs).setWidth 16).setWidth 64⟩

theorem decodeRemb_eq {msg msg' : FeedbackMsg} (hflag : msg'.flag = msg.flag)
    (h : Reading strm (msg.wireRemb ++ rest)) :
    ∃ strm' remb, decodeRemb strm msg' = some (strm', { msg' with remb }) ∧
      Reading strm' rest ∧ (msg.hasFlag rembMsg = true → remb = msg.remb) := by
  have hsame : msg'.hasFlag rembMsg = msg.hasFlag rembMsg := by rw [hasFlag, hflag, hasFlag]
  unfold decodeRemb
  unfold wireRemb at h
  rw [hsame]
  by_cases hset : msg.hasFlag rembMsg = true
  · rw [if_pos hset] at h ⊢
    obtain ⟨strm', hget, h'⟩ := h.getBits (by decide)
    refine ⟨strm', msg.remb, ?_, h', fun _ => rfl⟩
    rw [machUint32Read, hget]
    rfl
  · rw [if_neg hset] at h ⊢
    exact ⟨strm, msg'.remb, rfl, h, fun h => absurd h hset⟩

theorem decodeLossInfo_eq {msg msg' : FeedbackMsg} (hflag : msg'.flag = msg.flag)
    (h : Reading strm (msg.wireLossInfo ++ rest)) :
    ∃ strm' fractionLoss packetNum,
      decodeLossInfo strm msg' = some (strm', { msg' with fractionLoss, packetNum }) ∧
      Reading strm' rest ∧ (msg.hasFlag lossInfoMsg = true →
        fractionLoss = msg.fractionLoss ∧ packetNum = msg.packetNum) := by
  have hsame : msg'.hasFlag lossInfoMsg = msg.hasFlag lossInfoMsg := by
    rw [hasFlag, hflag, hasFlag]
  unfold decodeLossInfo
  unfold wireLossInfo at h
  rw [hsame]
  by_cases hset : msg.hasFlag lossInfoMsg = true
  · rw [if_pos hset] at h ⊢
    rw [List.append_assoc] at h
    obtain ⟨strm₁, hget₁, h₁⟩ := h.getBits (by decide)
    obtain ⟨strm₂, hget₂, h₂⟩ := h₁.getBits (by decide)
    refine ⟨strm₂, msg.fractionLoss, msg.packetNum, ?_, h₂, fun _ => ⟨rfl, rfl⟩⟩
    simp only [machUint8Read, machInt32Read, hget₁, hget₂, Option.bind_eq_bind,
      Option.bind_some]
  · rw [if_neg hset] at h ⊢
    exact ⟨strm, msg'.fractionLoss, msg'.packetNum, rfl, h, fun h => absurd h hset⟩

theorem decodeSamples_eq {msg : FeedbackMsg} {samples : List FeedbackSample} {i : Nat}
    (h : Reading strm (samples.flatMap (wireSample msg.minTs) ++ rest))
    (hfit : i + samples.length ≤ maxFeelbackCount) :
    ∃ strm' array, decodeSamples samples.length i strm msg
        = some (strm', { msg with samples := array }) ∧
      Reading strm' rest ∧
      BoundedArray.storeAll msg.samples i (samples.map (reread msg.minTs)) = some array := by
  induction samples generalizing strm msg i with
  | nil => exact ⟨strm, msg.samples, rfl, h, rfl⟩
  | cons sample samples ih =>
      rw [List.length_cons] at hfit
      rw [List.flatMap_cons, wireSample, List.append_assoc, List.append_assoc] at h
      obtain ⟨strm₁, hget₁, h₁⟩ := h.getBits (by decide)
      obtain ⟨strm₂, hget₂, h₂⟩ := h₁.getBits (by decide)
      obtain ⟨array₁, hstore⟩ := BoundedArray.store_isSome (a := msg.samples)
        (show i < maxFeelbackCount by omega) (reread msg.minTs sample)
      let msg₁ : FeedbackMsg := { msg with samples := array₁ }
      have hfit₁ : i + 1 + samples.length ≤ maxFeelbackCount := by omega
      obtain ⟨strm₃, array, hloop, h₃, hall⟩ := @ih strm₂ msg₁ (i + 1) h₂ hfit₁
      refine ⟨strm₃, array, ?_, h₃, ?_⟩
      · simp only [List.length_cons, decodeSamples, machUint16Read, hget₁, hget₂,
          Option.bind_eq_bind, Option.bind_some]
        change (BoundedArray.store msg.samples i (reread msg.minTs sample)).bind _ = _
        rw [hstore, Option.bind_some]
        exact hloop
      · simp only [List.map_cons, BoundedArray.storeAll, hstore, Option.bind_eq_bind,
          Option.bind_some]
        exact hall

theorem load_samplesFrom (msg : FeedbackMsg) {i n : Nat} (h : i + n ≤ maxFeelbackCount)
    {j : Nat} (hj : j < n) :
    (msg.samplesFrom i n)[j]? = BoundedArray.load msg.samples (i + j) := by
  induction n generalizing i j with
  | zero => cases hj
  | succ n ih =>
      obtain ⟨sample, hload, heq⟩ :=
        msg.samplesFrom_succ (n := n) (show i < maxFeelbackCount by omega)
      rw [heq]
      cases j with
      | zero => exact hload.symm
      | succ j =>
          rw [List.getElem?_cons_succ, ih (by omega) (by omega)]
          congr 1
          omega

theorem decodeProxyTs_eq {msg msg' : FeedbackMsg} (hflag : msg'.flag = msg.flag)
    (hwf : msg.WellFormed) (h : Reading strm msg.wireProxyTs) :
    ∃ strm' msg'', decodeProxyTs strm msg' = some (strm', msg'') ∧
      msg''.flag = msg'.flag ∧ msg''.remb = msg'.remb ∧
      msg''.fractionLoss = msg'.fractionLoss ∧ msg''.packetNum = msg'.packetNum ∧
      (msg.hasFlag proxyTsMsg = true → msg''.baseSeq = msg.baseSeq ∧
        msg''.minTs = msg.minTs ∧ msg''.samplesNum = msg.samplesNum ∧
        ∀ i, i < msg.samplesNum.toNat → BoundedArray.load msg''.samples i
          = (BoundedArray.load msg.samples i).map (reread msg.minTs)) := by
  have hsame : msg'.hasFlag proxyTsMsg = msg.hasFlag proxyTsMsg := by
    rw [hasFlag, hflag, hasFlag]
  unfold decodeProxyTs
  unfold wireProxyTs at h
  rw [hsame]
  by_cases hset : msg.hasFlag proxyTsMsg = true
  · rw [if_pos hset] at h ⊢
    have hnum := hwf hset
    obtain ⟨strm₁, hget₁, h₁⟩ := h.getBits (by decide)
    obtain ⟨strm₂, hget₂, h₂⟩ := h₁.getBits (by decide)
    obtain ⟨strm₃, hget₃, h₃⟩ := h₂.getBits (by decide)
    have hfit : 0 + msg.samplesNum.toNat ≤ maxFeelbackCount := by simpa using hnum
    have hlen := msg.length_samplesFrom hfit
    let msg₁ : FeedbackMsg := { msg' with
      baseSeq := msg.baseSeq
      minTs := msg.minTs
      samplesNum := msg.samplesNum }
    obtain ⟨strm₄, array, hloop, _, hall⟩ := decodeSamples_eq (i := 0)
      (show Reading strm₃ ((msg.samplesFrom 0 msg.samplesNum.toNat).flatMap
        (wireSample msg₁.minTs) ++ []) by rwa [List.append_nil])
      (by rw [hlen]; exact hfit)
    rw [hlen] at hloop
    refine ⟨strm₄, { msg₁ with samples := array }, ?_, rfl, rfl, rfl, rfl,
      fun _ => ⟨rfl, rfl, rfl, ?_⟩⟩
    · simp only [machInt64Read, machUint8Read, hget₁, hget₂, hget₃, Option.bind_eq_bind,
        Option.bind_some, if_neg (not_lt.mpr hnum)]
      exact hloop
    · intro i hi
      obtain ⟨array', hall', hnew, _⟩ := BoundedArray.storeAll_eq (a := msg₁.samples)
        (show 0 + ((msg.samplesFrom 0 msg.samplesNum.toNat).map
          (reread msg.minTs)).length ≤ maxFeelbackCount by
            rw [List.length_map, hlen]; exact hfit)
      obtain rfl := Option.some.inj (hall.symm.trans hall')
      have hload := hnew i (by rw [List.length_map, hlen]; exact hi)
      rw [Nat.zero_add, List.getElem?_map, msg.load_samplesFrom hfit hi,
        Nat.zero_add] at hload
      exact hload
  · rw [if_neg hset]
    exact ⟨strm, msg', rfl, rfl, rfl, rfl, rfl, fun h => absurd h hset⟩

/-! ## The round trip -/

/-- `msg'` has the parts of `msg` whose flags are set. -/
structure Recovers (msg msg' : FeedbackMsg) : Prop where
  flag : msg'.flag = msg.flag
  remb : msg.hasFlag rembMsg = true → msg'.remb = msg.remb
  lossInfo : msg.hasFlag lossInfoMsg = true →
    msg'.fractionLoss = msg.fractionLoss ∧ msg'.packetNum = msg.packetNum
  proxyTs : msg.hasFlag proxyTsMsg = true → msg'.baseSeq = msg.baseSeq ∧
    msg'.minTs = msg.minTs ∧ msg'.samplesNum = msg.samplesNum ∧
    ∀ i, i < msg.samplesNum.toNat →
      BoundedArray.load msg'.samples i = BoundedArray.load msg.samples i

/-- Decoding some bytes gives back a message, whatever the decoder's message
was before. -/
def RoundTrips (msg : FeedbackMsg) (bytes : List UInt8) : Prop :=
  ∀ strm msg₀, Reading strm bytes →
    ∃ strm' msg', decode strm msg₀ = some (strm', msg') ∧ Recovers msg msg'

/-- The arrival times are less than `2 ^ 16` behind `min_ts`. -/
def Near (msg : FeedbackMsg) : Prop :=
  msg.hasFlag proxyTsMsg = true → ∀ i, i < msg.samplesNum.toNat →
    ∀ sample, BoundedArray.load msg.samples i = some sample →
      (sample.ts - msg.minTs).toNat < 2 ^ 16

theorem reread_eq_iff (minTs : BitVec 64) (sample : FeedbackSample) :
    reread minTs sample = sample ↔ (sample.ts - minTs).toNat < 2 ^ 16 := by
  obtain ⟨seq, ts⟩ := sample
  simp only [reread, FeedbackSample.mk.injEq, true_and]
  generalize hd : ts - minTs = d
  have hts : ts = minTs + d := by rw [← hd, BitVec.add_comm, BitVec.sub_add_cancel]
  rw [hts, BitVec.add_right_inj, ← BitVec.toNat_inj, BitVec.toNat_setWidth,
    BitVec.toNat_setWidth]
  have hd64 := d.isLt
  omega

/-- **Decoding** gives back everything but the far arrival times. -/
theorem decode_eq {msg : FeedbackMsg} (hwf : msg.WellFormed)
    (h : Reading strm msg.wire) (msg₀ : FeedbackMsg) :
    ∃ strm' msg', decode strm msg₀ = some (strm', msg') ∧ msg'.flag = msg.flag ∧
      (msg.hasFlag rembMsg = true → msg'.remb = msg.remb) ∧
      (msg.hasFlag lossInfoMsg = true →
        msg'.fractionLoss = msg.fractionLoss ∧ msg'.packetNum = msg.packetNum) ∧
      (msg.hasFlag proxyTsMsg = true → msg'.baseSeq = msg.baseSeq ∧
        msg'.minTs = msg.minTs ∧ msg'.samplesNum = msg.samplesNum ∧
        ∀ i, i < msg.samplesNum.toNat → BoundedArray.load msg'.samples i
          = (BoundedArray.load msg.samples i).map (reread msg.minTs)) := by
  obtain ⟨strm₁, hget, h₁⟩ := h.getBits (by decide)
  obtain ⟨strm₂, remb, hdec₂, h₂, hremb⟩ :=
    decodeRemb_eq (show ({ msg₀ with flag := msg.flag } : FeedbackMsg).flag = msg.flag from rfl) h₁
  obtain ⟨strm₃, fractionLoss, packetNum, hdec₃, h₃, hloss⟩ :=
    decodeLossInfo_eq (show ({ msg₀ with flag := msg.flag, remb } : FeedbackMsg).flag
      = msg.flag from rfl) h₂
  obtain ⟨strm₄, msg', hdec₄, hflag, hr, hf, hp, hproxy⟩ :=
    decodeProxyTs_eq (show ({ msg₀ with
      flag := msg.flag, remb, fractionLoss, packetNum } : FeedbackMsg).flag = msg.flag
      from rfl) hwf h₃
  refine ⟨strm₄, msg', ?_, hflag, ?_, ?_, hproxy⟩
  · simp only [decode, machUint8Read, hget, hdec₂, hdec₃, hdec₄, Option.bind_eq_bind,
      Option.bind_some]
  · exact fun hset => hr.trans (hremb hset)
  · exact fun hset => ⟨hf.trans (hloss hset).1, hp.trans (hloss hset).2⟩

/-- A stream that holds exactly some bytes. -/
theorem exists_reading (bytes : List UInt8) : ∃ strm, Reading strm bytes := by
  refine ⟨⟨writeBytes (fun _ => 0) 0 bytes, bytes.length, 0, 0, 0, bytes.length⟩,
    rfl, Nat.zero_add _, le_refl _, ?_⟩
  exact bytesAt_writeBytes _ 0 bytes

/-- **A message comes back** exactly if its arrival times are near. -/
theorem roundTrips_wire_iff {msg : FeedbackMsg} (hwf : msg.WellFormed) :
    msg.RoundTrips msg.wire ↔ msg.Near := by
  constructor
  · intro htrip hset i hi sample hload
    obtain ⟨strm, hreading⟩ := exists_reading msg.wire
    obtain ⟨_, msg', hdec, hrec⟩ := htrip strm msg hreading
    obtain ⟨_, msg'', hdec', _, _, _, hproxy⟩ := decode_eq hwf hreading msg
    obtain ⟨_, rfl⟩ := Prod.mk.inj (Option.some.inj (hdec.symm.trans hdec'))
    have hsame := (hrec.proxyTs hset).2.2.2 i hi
    rw [(hproxy hset).2.2.2 i hi, hload, Option.map_some, Option.some.injEq,
      reread_eq_iff] at hsame
    exact hsame
  · intro hnear strm msg₀ hreading
    obtain ⟨strm', msg', hdec, hflag, hremb, hloss, hproxy⟩ := decode_eq hwf hreading msg₀
    refine ⟨strm', msg', hdec, hflag, hremb, hloss, fun hset => ?_⟩
    obtain ⟨hbase, hmin, hnum, hsamples⟩ := hproxy hset
    refine ⟨hbase, hmin, hnum, fun i hi => ?_⟩
    rw [hsamples i hi]
    cases hload : BoundedArray.load msg.samples i with
    | none => rfl
    | some sample =>
        rw [Option.map_some, (reread_eq_iff _ _).mpr (hnear hset i hi sample hload)]

end FeedbackMsg

end Razor
