import RmcatNs3.Lib.KeyRange
import RmcatNs3.Lib.Runs
import RmcatNs3.Razor.SimProto

/-!
# The send window of the transport

`sim_transport/sim_sender.c`: video is cut into segments that stay in a cache until the
receiver has them, and two messages move the window over this cache. `sim_sender_ack`
looks at the ids of a message first; `sim_sender_feedback` does not, and the loop that both
share tests with `<=` at the top of the counter. Congestion control and the limiter of
retransmissions see the segments, and have no part in the window. The skiplist of the cache
is the sorted map that it refines.
-/

namespace Razor

namespace SimTransport

open CountedLoop Runs SimProto

/-- `sim_sender_t`, as far as it concerns the window. -/
structure Sender where
  basePacketId : BitVec 32
  packetIdSeed : BitVec 32
  frameIdSeed : BitVec 32
  firstTs : Int
  cache : SortedMap Nat SimSegment

/-- `SPLIT_NUMBER`. -/
def splitNumber : Nat := 1024

/-- `sim_split_frame`. -/
def simSplitFrame (size : Nat) : List (BitVec 16) :=
  if size ≤ simVideoSize then [BitVec.ofNat 16 size]
  else
    let full := List.replicate (size / simVideoSize) (BitVec.ofNat 16 simVideoSize)
    if 0 < size % simVideoSize then full ++ [BitVec.ofNat 16 (size % simVideoSize)]
    else full

namespace Sender

/-- `sim_sender_create`. -/
def new : Sender where
  basePacketId := 0
  packetIdSeed := 0
  frameIdSeed := 0
  firstTs := -1
  cache := .empty

/-- Some bytes copied into a segment. What `malloc` leaves behind them is taken to be
zero. -/
def segmentData (bytes : List UInt8) : Vector UInt8 simVideoSize :=
  Vector.ofFn fun i => bytes.getD i 0

/-- The loop of `sim_sender_put`, over the splits from index `i` on. -/
def putSegments (timestamp : BitVec 32) (payloadType ftype : BitVec 8) (total : BitVec 16)
    (i : Nat) : Sender → List UInt8 → List (BitVec 16) → Sender
  | s, _, [] => s
  | s, pos, split :: rest =>
      let seg : SimSegment :=
        { packetId := s.packetIdSeed + 1, fid := s.frameIdSeed, timestamp
          index := BitVec.ofNat 16 i, total, ftype, payloadType, remb := 1, sendTs := 0
          transportSeq := 0, dataSize := split
          data := segmentData (pos.take split.toNat) }
      let s := { s with
        packetIdSeed := s.packetIdSeed + 1
        cache := s.cache.insert seg.packetId.toNat seg }
      putSegments timestamp payloadType ftype total (i + 1) s (pos.drop split.toNat) rest

/-- `sim_sender_put`. -/
def put (s : Sender) (payloadType ftype : BitVec 8) (data : List UInt8) (nowTs : Int) :
    Option Sender :=
  if data.length / simVideoSize < splitNumber then
    let splits := simSplitFrame data.length
    let timestamp := if s.firstTs = -1 then 0 else BitVec.ofInt 32 (nowTs - s.firstTs)
    let s := { s with
      firstTs := if s.firstTs = -1 then nowTs else s.firstTs
      frameIdSeed := s.frameIdSeed + 1 }
    some (putSegments timestamp payloadType ftype (BitVec.ofNat 16 splits.length) 0 s data splits)
  else none

/-- `sim_sender_update_base`, which has no result if its loop does not end. -/
def updateBase (s : Sender) (basePacketId : BitVec 32) : Option Sender :=
  match forLoop (fun i _ => decide (i ≤ basePacketId))
      (fun i (cache : SortedMap Nat SimSegment) => cache.erase i.toNat) s.basePacketId s.cache with
  | none => none
  | some (_, cache) =>
      some { s with
        cache
        basePacketId := if s.basePacketId < basePacketId then basePacketId else s.basePacketId }

/-- The segments that an ack asks for and the cache has. -/
def nacked (s : Sender) (basePacketId : BitVec 32) (nack : List (BitVec 16)) :
    List SimSegment :=
  nack.filterMap fun offset => s.cache.lookup (basePacketId + offset.setWidth 32).toNat

/-- `sim_sender_ack`: the sender, and the segments that it offers to the limiter. -/
def ack (s : Sender) (basePacketId ackedPacketId : BitVec 32) (nack : List (BitVec 16)) :
    Option (Sender × List SimSegment) :=
  if s.packetIdSeed < ackedPacketId ∨ s.packetIdSeed < basePacketId then some (s, [])
  else
    match s.updateBase basePacketId with
    | none => none
    | some s => some (s, s.nacked basePacketId nack)

/-- `sim_sender_feedback`. -/
def feedback (s : Sender) (basePacketId : BitVec 32) : Option Sender :=
  s.updateBase basePacketId

/-! ## Steps -/

/-- A call of `sim_sender_put`, or a message. -/
inductive Input where
  | put (payloadType ftype : BitVec 8) (data : List UInt8) (nowTs : Int)
  | segAck (basePacketId ackedPacketId : BitVec 32) (nack : List (BitVec 16))
  | feedback (basePacketId : BitVec 32)

def call (s : Sender) : Input → Option Sender
  | .put payloadType ftype data nowTs => s.put payloadType ftype data nowTs
  | .segAck basePacketId ackedPacketId nack => (s.ack basePacketId ackedPacketId nack).map (·.1)
  | .feedback basePacketId => s.feedback basePacketId

/-- The assertion of `sim_sender_put`. -/
def Input.Asserted : Input → Prop
  | .put _ _ data _ => data.length / simVideoSize < splitNumber
  | _ => True

/-- A message with an id beyond the last packet. -/
def Beyond (s : Sender) : Input → Prop
  | .put _ _ _ _ => False
  | .segAck basePacketId ackedPacketId _ =>
      s.packetIdSeed < ackedPacketId ∨ s.packetIdSeed < basePacketId
  | .feedback basePacketId => s.packetIdSeed < basePacketId

/-- The cache holds the segments of the window, and no others. -/
structure Windowed (s : Sender) : Prop where
  base_le : s.basePacketId ≤ s.packetIdSeed
  keyed : ∀ b ∈ s.cache, b.2.packetId.toNat = b.1
  cached_iff : ∀ id : BitVec 32, (s.cache.find? id.toNat).isSome ↔
    s.basePacketId < id ∧ id ≤ s.packetIdSeed

/-- The call returns, keeps the window, and leaves everything as it is if it is a message
with an id beyond the last packet. -/
def Sound (s : Sender) (e : Input) : Prop :=
  e.Asserted → ∃ s', s.call e = some s' ∧ s'.Windowed ∧ (s.Beyond e → s' = s)

/-- The ids of packets do not wrap, and no base that takes effect is beyond the last
packet or the largest id. -/
def Bounded (s : Sender) : Input → Prop
  | .put _ _ data _ => data.length / simVideoSize < splitNumber →
      s.packetIdSeed.toNat + (simSplitFrame data.length).length < 2 ^ 32
  | .segAck basePacketId ackedPacketId _ => ackedPacketId ≤ s.packetIdSeed →
      basePacketId ≤ s.packetIdSeed → basePacketId ≠ BitVec.allOnes 32
  | .feedback basePacketId =>
      basePacketId ≤ s.packetIdSeed ∧ basePacketId ≠ BitVec.allOnes 32

/-! ## The base -/

variable {s s' : Sender}

theorem updateBase_isSome_iff {basePacketId : BitVec 32} :
    (s.updateBase basePacketId).isSome ↔ basePacketId ≠ BitVec.allOnes 32 := by
  have hloop : (s.updateBase basePacketId).isSome ↔
      (forLoop (fun i _ => decide (i ≤ basePacketId))
        (fun i (cache : SortedMap Nat SimSegment) => cache.erase i.toNat)
        s.basePacketId s.cache).isSome := by
    unfold updateBase
    split <;> simp_all
  rw [hloop, forLoop_le_isSome_iff, or_iff_right_of_imp]
  rintro hlt rfl
  have hle := s.basePacketId.isLt
  rw [BitVec.lt_def, BitVec.toNat_allOnes] at hlt
  omega

/-- Everything from the old base up to the new one leaves the cache. -/
theorem mem_updateBase {basePacketId : BitVec 32} (h : s.updateBase basePacketId = some s')
    {b : Nat × SimSegment} : b ∈ s'.cache ↔
      b ∈ s.cache ∧ ¬ (s.basePacketId.toNat ≤ b.1 ∧ b.1 ≤ basePacketId.toNat) := by
  unfold updateBase at h
  split at h
  · exact absurd h.symm (Option.some_ne_none _)
  · rename_i i cache hloop
    obtain rfl := Option.some.inj h
    exact KeyRange.mem_forLoop_erase hloop b

/-- The base moves up to where the message says, and never back. -/
theorem updateBase_eq {basePacketId : BitVec 32} (h : s.updateBase basePacketId = some s') :
    s' = { s with
      cache := s'.cache
      basePacketId :=
        if s.basePacketId < basePacketId then basePacketId else s.basePacketId } := by
  unfold updateBase at h
  split at h
  · exact absurd h.symm (Option.some_ne_none _)
  · obtain rfl := Option.some.inj h
    rfl

/-- A base within the window keeps it a window. -/
theorem Windowed.updateBase (hs : s.Windowed) {basePacketId : BitVec 32}
    (h : s.updateBase basePacketId = some s') (hle : basePacketId ≤ s.packetIdSeed) :
    s'.Windowed := by
  have hmem : ∀ b, b ∈ s'.cache ↔
      b ∈ s.cache ∧ ¬ (s.basePacketId.toNat ≤ b.1 ∧ b.1 ≤ basePacketId.toNat) :=
    fun b => mem_updateBase h
  rw [updateBase_eq h]
  constructor
  · simp only
    split
    · exact hle
    · exact hs.base_le
  · exact fun b hb => hs.keyed b ((hmem b).mp hb).1
  · intro id
    have hcached := hs.cached_iff id
    have hfind : (s'.cache.find? id.toNat).isSome ↔ (s.cache.find? id.toNat).isSome ∧
        ¬ (s.basePacketId.toNat ≤ id.toNat ∧ id.toNat ≤ basePacketId.toNat) := by
      simp only [SortedMap.isSome_find?_iff, hmem]
      constructor
      · rintro ⟨b, ⟨hb, hout⟩, hid⟩
        exact ⟨⟨b, hb, hid⟩, hid ▸ hout⟩
      · rintro ⟨⟨b, hb, hid⟩, hout⟩
        exact ⟨b, ⟨hb, hid.symm ▸ hout⟩, hid⟩
    rw [hfind, hcached]
    simp only [BitVec.lt_def, BitVec.le_def]
    split <;> omega

/-! ## Segments -/

/-- A segment with the next id joins the window, if the id does not wrap. -/
theorem Windowed.insert (hs : s.Windowed) {seg : SimSegment}
    (hid : seg.packetId = s.packetIdSeed + 1) (hfits : s.packetIdSeed.toNat + 1 < 2 ^ 32) :
    Windowed { s with
      packetIdSeed := s.packetIdSeed + 1
      cache := s.cache.insert seg.packetId.toNat seg } := by
  have hseed : (s.packetIdSeed + 1).toNat = s.packetIdSeed.toNat + 1 := toNat_add_one hfits
  have hbase : s.basePacketId.toNat ≤ s.packetIdSeed.toNat := hs.base_le
  constructor
  · simp only [BitVec.le_def, hseed]
    omega
  · intro b hb
    rcases SortedMap.mem_insert.mp hb with hb | ⟨_, rfl⟩
    · exact hs.keyed b hb
    · rfl
  · intro id
    have hcached := hs.cached_iff id
    have hfind : ((s.cache.insert seg.packetId.toNat seg).find? id.toNat).isSome ↔
        (s.cache.find? id.toNat).isSome ∨ id = s.packetIdSeed + 1 := by
      constructor
      · intro hsome
        obtain ⟨b, hb, hkey⟩ := SortedMap.isSome_find?_iff.mp hsome
        rcases SortedMap.mem_insert.mp hb with hb | ⟨_, rfl⟩
        · exact .inl (SortedMap.isSome_find?_iff.mpr ⟨b, hb, hkey⟩)
        · exact .inr ((BitVec.eq_of_toNat_eq hkey).symm.trans hid)
      · rintro (hsome | rfl)
        · obtain ⟨b, hb, hkey⟩ := SortedMap.isSome_find?_iff.mp hsome
          exact SortedMap.isSome_find?_iff.mpr ⟨b, SortedMap.mem_insert.mpr (.inl hb), hkey⟩
        · rw [← hid]
          exact SortedMap.isSome_find?_insert ..
    rw [hfind, hcached]
    simp only [BitVec.lt_def, BitVec.le_def, ← BitVec.toNat_inj, hseed]
    omega

theorem Windowed.putSegments {timestamp : BitVec 32} {payloadType ftype : BitVec 8}
    {total : BitVec 16} {i : Nat} {pos : List UInt8} {splits : List (BitVec 16)}
    (hs : s.Windowed) (hfits : s.packetIdSeed.toNat + splits.length < 2 ^ 32) :
    (putSegments timestamp payloadType ftype total i s pos splits).Windowed := by
  induction splits generalizing i s pos with
  | nil => exact hs
  | cons split rest ih =>
      rw [List.length_cons] at hfits
      have hseed : (s.packetIdSeed + 1).toNat = s.packetIdSeed.toNat + 1 :=
        toNat_add_one (by omega)
      unfold Sender.putSegments
      apply ih
      · exact hs.insert rfl (by omega)
      · rw [hseed]
        omega

/-- Ids that wrap put a segment with id zero in the cache, behind every window. -/
theorem putSegments_wraps {timestamp : BitVec 32} {payloadType ftype : BitVec 8}
    {total : BitVec 16} {i : Nat} {pos : List UInt8} {splits : List (BitVec 16)}
    (hwraps : (s.cache.find? 0).isSome ∨ 2 ^ 32 ≤ s.packetIdSeed.toNat + splits.length) :
    ((putSegments timestamp payloadType ftype total i s pos splits).cache.find? 0).isSome := by
  induction splits generalizing i s pos with
  | nil =>
      refine hwraps.resolve_right ?_
      have hlt := s.packetIdSeed.isLt
      simp only [List.length_nil]
      omega
  | cons split rest ih =>
      unfold Sender.putSegments
      apply ih
      rw [List.length_cons] at hwraps
      by_cases hlast : s.packetIdSeed.toNat + 1 < 2 ^ 32
      · rcases hwraps with hsome | hle
        · obtain ⟨b, hb, hkey⟩ := SortedMap.isSome_find?_iff.mp hsome
          exact .inl (SortedMap.isSome_find?_iff.mpr ⟨b, SortedMap.mem_insert.mpr (.inl hb), hkey⟩)
        · rw [toNat_add_one hlast]
          exact .inr (by omega)
      · have hzero : s.packetIdSeed + 1 = 0 := by
          have hlt := s.packetIdSeed.isLt
          refine BitVec.eq_of_toNat_eq ?_
          rw [BitVec.toNat_add, show s.packetIdSeed.toNat = 2 ^ 32 - 1 by omega]
          rfl
        simp only [hzero]
        exact .inl (SortedMap.isSome_find?_insert ..)

theorem Windowed.not_zero (hs : s.Windowed) : ¬ (s.cache.find? 0).isSome := by
  intro hsome
  exact absurd ((hs.cached_iff 0).mp hsome).1 (BitVec.not_lt_zero)

/-! ## Calls -/

theorem Windowed.updateBase_iff (hs : s.Windowed) {basePacketId : BitVec 32}
    (hle : basePacketId ≤ s.packetIdSeed) :
    (∃ s', s.updateBase basePacketId = some s' ∧ s'.Windowed) ↔
      basePacketId ≠ BitVec.allOnes 32 := by
  rw [← updateBase_isSome_iff, Option.isSome_iff_exists]
  refine exists_congr fun s' => ?_
  exact and_iff_left_of_imp fun h => hs.updateBase h hle

/-- An ack that is not rejected moves the base. -/
theorem ack_fst {basePacketId ackedPacketId : BitVec 32} (nack : List (BitVec 16))
    (h : ¬ (s.packetIdSeed < ackedPacketId ∨ s.packetIdSeed < basePacketId)) :
    (s.ack basePacketId ackedPacketId nack).map (·.1) = s.updateBase basePacketId := by
  unfold ack
  rw [if_neg h]
  cases s.updateBase basePacketId with
  | none => rfl
  | some s' => rfl

/-- A window is kept by the calls that are bounded, and by no others. -/
theorem Windowed.sound_iff (hs : s.Windowed) (e : Input) : s.Sound e ↔ s.Bounded e := by
  cases e with
  | put payloadType ftype data nowTs =>
      simp only [Sound, Bounded, Input.Asserted, Beyond]
      refine forall_congr' fun hasserted => ?_
      simp only [call, put, if_pos hasserted, Option.some.injEq, exists_eq_left', false_implies,
        and_true]
      constructor
      · intro hwindow
        -- ids that wrap file a segment with id zero, which no window has
        by_contra hwraps
        exact hwindow.not_zero (putSegments_wraps (.inr (Nat.not_lt.mp hwraps)))
      · intro hfits
        have hstart : Windowed { s with
            firstTs := if s.firstTs = -1 then nowTs else s.firstTs
            frameIdSeed := s.frameIdSeed + 1 } := ⟨hs.base_le, hs.keyed, hs.cached_iff⟩
        exact hstart.putSegments hfits
  | segAck basePacketId ackedPacketId nack =>
      simp only [Sound, Bounded, Input.Asserted, Beyond, call, true_implies]
      by_cases hbeyond : s.packetIdSeed < ackedPacketId ∨ s.packetIdSeed < basePacketId
      · simp only [ack, if_pos hbeyond, Option.map_some, Option.some.injEq, exists_eq_left',
          implies_true, and_true]
        refine iff_of_true hs ?_
        intro hacked hbase
        rcases hbeyond with hlt | hlt
        · exact absurd hlt (BitVec.not_lt.mpr hacked)
        · exact absurd hlt (BitVec.not_lt.mpr hbase)
      · obtain ⟨hacked, hbase⟩ := not_or.mp hbeyond
        rw [ack_fst nack hbeyond, imp_iff_right (BitVec.not_lt.mp hacked),
          imp_iff_right (BitVec.not_lt.mp hbase), ← hs.updateBase_iff (BitVec.not_lt.mp hbase)]
        refine exists_congr fun s' => and_congr_right fun _ => ?_
        exact and_iff_left fun h => absurd h hbeyond
  | feedback basePacketId =>
      simp only [Sound, Bounded, Input.Asserted, Beyond, call, feedback, true_implies]
      constructor
      · rintro ⟨s', h, _, hkeeps⟩
        have hreturns : basePacketId ≠ BitVec.allOnes 32 :=
          updateBase_isSome_iff.mp (by rw [h]; rfl)
        refine ⟨?_, hreturns⟩
        -- a base beyond the last packet takes effect
        by_contra hbeyond
        have hlt : s.basePacketId < basePacketId :=
          Nat.lt_of_le_of_lt hs.base_le (BitVec.not_le.mp hbeyond)
        have hsame := hkeeps (BitVec.not_le.mp hbeyond)
        rw [updateBase_eq h, if_pos hlt] at hsame
        have hbase : basePacketId = s.basePacketId := congrArg Sender.basePacketId hsame
        exact absurd hlt (hbase ▸ BitVec.lt_irrefl _)
      · rintro ⟨hle, hreturns⟩
        obtain ⟨s', h, hwindow⟩ := (hs.updateBase_iff hle).mpr hreturns
        exact ⟨s', h, hwindow, fun hbeyond => absurd hbeyond (BitVec.not_lt.mpr hle)⟩

/-! ## Runs -/

theorem Windowed.new : new.Windowed where
  base_le := BitVec.le_refl _
  keyed := fun _ hb => absurd hb List.not_mem_nil
  cached_iff := by
    intro id
    refine iff_of_false (fun hsome => absurd hsome Bool.false_ne_true) ?_
    rintro ⟨hlt, hle⟩
    exact absurd hle (BitVec.not_le.mpr hlt)

/-- A call that is bounded. -/
def BoundedStep (s : Sender) (e : Input) (s' : Sender) : Prop :=
  s.call e = some s' ∧ s.Bounded e

theorem Windowed.step (hs : s.Windowed) {e : Input} (h : BoundedStep s e s') :
    s'.Windowed := by
  have hasserted : e.Asserted := by
    cases e with
    | put payloadType ftype data nowTs =>
        by_contra hnot
        have hcall : s.put payloadType ftype data nowTs = none := if_neg hnot
        exact absurd (h.1.symm.trans hcall) (Option.some_ne_none _)
    | segAck basePacketId ackedPacketId nack => trivial
    | feedback basePacketId => trivial
  obtain ⟨s₁, hcall, hwindow, _⟩ := (hs.sound_iff e).mpr h.2 hasserted
  obtain rfl := Option.some.inj (h.1.symm.trans hcall)
  exact hwindow

/-- **The send window** is kept in every run of calls that are bounded: the cache holds the
segments behind the base up to the last packet. The next call returns, keeps the window, and
ignores ids beyond the last packet exactly if it is bounded as well. -/
theorem windowed_iff_of_run {es : List Input} (hrun : Run BoundedStep new es s) :
    s.Windowed ∧ ∀ e, s.Sound e ↔ s.Bounded e := by
  have hs : s.Windowed := hrun.stateInvariant .new fun _ _ _ hs hstep => hs.step hstep
  exact ⟨hs, hs.sound_iff⟩

instance (s : Sender) : (e : Input) → Decidable (s.Bounded e)
  | .put _ _ _ _ => inferInstanceAs (Decidable (_ → _))
  | .segAck _ _ _ => inferInstanceAs (Decidable (_ → _ → _))
  | .feedback _ => inferInstanceAs (Decidable (_ ∧ _))

/-- Two frames, and an ack and a report of the first of them. -/
def ackedFrames : List Input :=
  [.put 0 1 [1] 0, .put 0 0 [2] 40, .segAck 1 1 [1], .feedback 1]

/-- The second segment is left in the cache. -/
theorem windowed_iff_ackedFrames : ∃ s, Run BoundedStep new ackedFrames s ∧
    (s.basePacketId, s.packetIdSeed, s.cache.size) = (1, 2, 1) ∧
    s.Windowed ∧ ∀ e, s.Sound e ↔ s.Bounded e := by
  have hlast : (ackedFrames.foldlM (fun s e => if Bounded s e then call s e else none) new).map
      (fun s => (s.basePacketId, s.packetIdSeed, s.cache.size)) = some (1, 2, 1) := by
    decide
  obtain ⟨s, hs, hlast⟩ := Option.map_eq_some_iff.mp hlast
  have hrun := Run.of_foldlM_guarded hs
  exact ⟨s, hrun, hlast, windowed_iff_of_run hrun⟩

/-- A report of packets that were never sent moves the base past the last one. -/
theorem not_windowed_feedback : ∃ s,
    Run (fun s e s' => call s e = some s') new [.feedback 5] s ∧
    ¬ s.basePacketId ≤ s.packetIdSeed := by
  have hlast : ([Input.feedback 5].foldlM call new).map (fun s =>
      decide (s.basePacketId ≤ s.packetIdSeed)) = some false := by
    decide
  obtain ⟨s, hs, hle⟩ := Option.map_eq_some_iff.mp hlast
  exact ⟨s, .of_foldlM hs, of_decide_eq_false hle⟩

end Sender

end SimTransport

end Razor
