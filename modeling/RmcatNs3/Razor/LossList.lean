import RmcatNs3.Lib.KeyRange
import RmcatNs3.Razor.CacheBounds

/-!
# The list of lost packets

What `sim_receiver_update_loss` and `video_real_ack` do to the list: the keys that a segment
adds, the ones that leave when the base moves, and the packets that an ack asks for, which
are the first ones that are due.
-/

namespace Razor

namespace SimTransport

open CountedLoop Runs SimProto

namespace Receiver

variable {clock : Clock} {r r' : Receiver}

/-- The packet has a place in the list of the lost ones. -/
def Lost (r : Receiver) (key : Nat) : Prop := (r.loss.find? key).isSome

instance (r : Receiver) (key : Nat) : Decidable (r.Lost key) := inferInstanceAs (Decidable (_ = _))

theorem lost_iff {key : Nat} : r.Lost key ↔ ∃ b ∈ r.loss, b.1 = key :=
  SortedMap.isSome_find?_iff

/-! ## Segments -/

theorem updateLoss_eq {seq : BitVec 32} (h : r.updateLoss clock seq = some r') :
    r' = { r with loss := r'.loss } := by
  obtain ⟨ended, -, rfl⟩ := Option.map_eq_some_iff.mp h
  rfl

/-- A segment leaves the list, and those between it and the highest one join it. -/
theorem mem_updateLoss {seq : BitVec 32} (h : r.updateLoss clock seq = some r')
    (c : Nat × SimLoss) :
    c ∈ r'.loss ↔ c ∈ r.loss.erase seq.toNat ∨
      (r.loss.erase seq.toNat).find? c.1 = none ∧ (r.maxSeq + 1).toNat ≤ c.1 ∧
        c.1 < seq.toNat ∧ c.2 = ⟨clock.now - (clock.rtt / 2).setWidth 64, 0⟩ := by
  obtain ⟨⟨j, loss⟩, hloop, rfl⟩ := Option.map_eq_some_iff.mp h
  exact KeyRange.mem_forLoop_insert hloop c

/-- A segment above all of them leaves the list as it is, and those between join it. -/
theorem mem_updateLoss_above {seq : BitVec 32} (h : r.updateLoss clock seq = some r')
    (hkeys : ∀ b ∈ r.loss, b.1 ≤ r.maxSeq.toNat) (habove : r.maxSeq < seq) (c : Nat × SimLoss) :
    c ∈ r'.loss ↔ c ∈ r.loss ∨ r.maxSeq.toNat < c.1 ∧ c.1 < seq.toNat ∧
      c.2 = ⟨clock.now - (clock.rtt / 2).setWidth 64, 0⟩ := by
  have hlt : r.maxSeq.toNat < seq.toNat := habove
  have hkept : ∀ b, b ∈ r.loss.erase seq.toNat ↔ b ∈ r.loss := by
    intro b
    rw [SortedMap.mem_erase]
    refine and_iff_left_of_imp fun hb => ?_
    have hle := hkeys b hb
    omega
  rw [mem_updateLoss h, hkept, SortedMap.find?_eq_none_iff, toNat_succ_of_lt habove]
  refine or_congr_right ?_
  constructor
  · rintro ⟨-, hnew⟩
    exact hnew
  · intro hnew
    refine ⟨fun b hb => ?_, hnew⟩
    have hle := hkeys b ((hkept b).mp hb)
    omega

/-- The keys after a segment. -/
theorem lost_updateLoss_iff {seq : BitVec 32} (h : r.updateLoss clock seq = some r')
    {key : Nat} :
    r'.Lost key ↔ r.Lost key ∧ key ≠ seq.toNat ∨
      (r.maxSeq + 1).toNat ≤ key ∧ key < seq.toNat := by
  have herase : ((r.loss.erase seq.toNat).find? key).isSome ↔ r.Lost key ∧ key ≠ seq.toNat := by
    rw [SortedMap.isSome_find?_iff, lost_iff]
    simp only [SortedMap.mem_erase]
    constructor
    · rintro ⟨b, ⟨hb, hne⟩, rfl⟩
      exact ⟨⟨b, hb, rfl⟩, hne⟩
    · rintro ⟨⟨b, hb, rfl⟩, hne⟩
      exact ⟨b, ⟨hb, hne⟩, rfl⟩
  rw [← herase, lost_iff]
  constructor
  · rintro ⟨b, hb, rfl⟩
    rcases (mem_updateLoss h b).mp hb with hold | ⟨-, hlow, hhigh, -⟩
    · exact .inl (SortedMap.isSome_find?_iff.mpr ⟨b, hold, rfl⟩)
    · exact .inr ⟨hlow, hhigh⟩
  · intro hkey
    cases hfind : (r.loss.erase seq.toNat).find? key with
    | some b =>
        obtain ⟨hb, rfl⟩ := SortedMap.find?_eq_some_iff.mp hfind
        exact ⟨b, (mem_updateLoss h b).mpr (.inl hb), rfl⟩
    | none =>
        rw [hfind] at hkey
        obtain ⟨hlow, hhigh⟩ := hkey.resolve_left Bool.false_ne_true
        exact ⟨_, (mem_updateLoss h (key, _)).mpr (.inr ⟨hfind, hlow, hhigh, rfl⟩), rfl⟩

/-! ## The base -/

/-- The base that an ack tells the sender. -/
def ackBase (r : Receiver) : BitVec 32 := suMax r.cache.minSeq r.baseSeq

theorem advanceBase_eq (h : r.advanceBase = some r') :
    r' = { r with loss := r'.loss, baseSeq := r.ackBase } := by
  rw [advanceBase] at h
  rw [ackBase, suMax]
  split at h
  · rename_i hlt
    obtain ⟨ended, -, rfl⟩ := Option.map_eq_some_iff.mp h
    rw [if_pos hlt]
  · rename_i hnot
    obtain rfl := Option.some.inj h
    rw [if_neg hnot]

/-- The packets above the old base and up to the new one leave the list. -/
theorem mem_advanceBase (h : r.advanceBase = some r') (c : Nat × SimLoss) :
    c ∈ r'.loss ↔ c ∈ r.loss ∧ ¬(r.baseSeq.toNat < c.1 ∧ c.1 ≤ r.ackBase.toNat) := by
  rw [advanceBase] at h
  rw [ackBase, suMax]
  split at h
  · rename_i hlt
    obtain ⟨⟨j, loss⟩, hloop, rfl⟩ := Option.map_eq_some_iff.mp h
    rw [if_pos hlt, KeyRange.mem_forLoop_erase hloop c, toNat_succ_of_lt hlt]
    exact Iff.rfl
  · rename_i hnot
    obtain rfl := Option.some.inj h
    rw [if_neg hnot]
    refine (and_iff_left ?_).symm
    omega

/-! ## Requests -/

/-- It is time to ask for a lost packet, and it has not been asked for too often. -/
def due (clock : Clock) (l : SimLoss) : Bool :=
  let spaceFactor := suMin 2 (BitVec.ofNat 32 (l.count / 2 + 1)) * (clock.rtt + clock.rttVar)
  decide (l.ts + spaceFactor.setWidth 64 ≤ clock.now) && decide (l.count < 30)

theorem asksFor_eq (clock : Clock) (scan : NackScan) (l : SimLoss) :
    asksFor clock scan l = (due clock l && decide (scan.nack.length < SimProto.nackNum)) :=
  rfl

/-- A lost packet above this base that is due. -/
def dueAbove (clock : Clock) (baseSeq : BitVec 32) (entry : Nat × SimLoss) : Bool :=
  decide (baseSeq.toNat < entry.1) && due clock entry.2

/-- The offset that goes into `nack`. -/
def offset (baseSeq : BitVec 32) (key : Nat) : BitVec 16 :=
  (BitVec.ofNat 32 key - baseSeq).setWidth 16

/-- The packets that an ack asks for: the first ones above its base that are due. -/
def requests (clock : Clock) (r : Receiver) : List Nat :=
  ((r.loss.toList.filter (dueAbove clock r.ackBase)).take SimProto.nackNum).map (·.1)

/-- What one turn of the scan adds. -/
theorem nack_scanLoss (baseSeq : BitVec 32) (scan : NackScan) (entry : Nat × SimLoss) :
    (scanLoss clock baseSeq scan entry).nack =
      if dueAbove clock baseSeq entry = true ∧ scan.nack.length < SimProto.nackNum then
        scan.nack ++ [offset baseSeq entry.1]
      else scan.nack := by
  rw [scanLoss, dueAbove, asksFor_eq]
  by_cases hle : entry.1 ≤ baseSeq.toNat
  · have hnot : ¬baseSeq.toNat < entry.1 := by omega
    simp [hle, hnot]
  · have hlt : baseSeq.toNat < entry.1 := by omega
    simp only [hle, if_false, hlt, decide_true, Bool.true_and, Bool.and_eq_true,
      decide_eq_true_eq]
    split
    · rfl
    · rfl

/-- **The scan** adds the offsets of the first packets that are due, as long as there is
room. -/
theorem nack_foldl_scanLoss (baseSeq : BitVec 32) (l : List (Nat × SimLoss)) (scan : NackScan) :
    (l.foldl (scanLoss clock baseSeq) scan).nack = scan.nack ++
      ((l.filter (dueAbove clock baseSeq)).take (SimProto.nackNum - scan.nack.length)).map
        fun entry => offset baseSeq entry.1 := by
  induction l generalizing scan with
  | nil => simp
  | cons entry rest ih =>
      rw [List.foldl_cons, ih, nack_scanLoss]
      by_cases hdue : dueAbove clock baseSeq entry = true
      · rw [List.filter_cons_of_pos hdue]
        by_cases hroom : scan.nack.length < SimProto.nackNum
        · rw [if_pos ⟨hdue, hroom⟩, List.length_append, List.length_singleton]
          obtain ⟨k, hk⟩ := Nat.exists_eq_add_of_lt hroom
          rw [show SimProto.nackNum - (scan.nack.length + 1) = k by omega,
            show SimProto.nackNum - scan.nack.length = k + 1 by omega, List.take_succ_cons,
            List.map_cons, List.append_assoc, List.singleton_append]
        · rw [if_neg fun h => hroom h.2, Nat.sub_eq_zero_of_le (Nat.not_lt.mp hroom)]
          simp
      · rw [List.filter_cons_of_neg hdue, if_neg fun h => hdue h.1]

/-- The scan changes no key. -/
theorem keys_foldl_scanLoss (baseSeq : BitVec 32) (l : List (Nat × SimLoss)) (scan : NackScan) :
    (l.foldl (scanLoss clock baseSeq) scan).loss.toList.map (·.1) =
      scan.loss.toList.map (·.1) := by
  induction l generalizing scan with
  | nil => rfl
  | cons entry rest ih =>
      rw [List.foldl_cons, ih, scanLoss]
      split
      · rfl
      · split
        · exact SortedMap.keys_modify _ _ _
        · rfl

/-- The packets that leave the list as the base moves are not asked for. -/
theorem filter_dueAbove_advanceBase (clock : Clock) (h : r.advanceBase = some r') :
    r'.loss.toList.filter (dueAbove clock r.ackBase) =
      r.loss.toList.filter (dueAbove clock r.ackBase) := by
  have hlist : r'.loss.toList = r.loss.toList.filter fun c =>
      decide ¬(r.baseSeq.toNat < c.1 ∧ c.1 ≤ r.ackBase.toNat) := by
    refine SortedMap.toList_eq_filter fun c => ?_
    rw [decide_eq_true_iff]
    exact mem_advanceBase h c
  rw [hlist, List.filter_filter]
  refine List.filter_congr fun c _ => ?_
  refine Bool.and_eq_left_iff_imp.mpr fun hdue => ?_
  have hlt : r.ackBase.toNat < c.1 := of_decide_eq_true (Bool.and_eq_true_iff.mp hdue).1
  rw [decide_eq_true_iff]
  omega

theorem adaptWait_eq (maxCount : Nat) (r : Receiver) :
    r.adaptWait clock maxCount = { r with cache := (r.adaptWait clock maxCount).cache } := by
  rw [adaptWait]
  split <;> rfl

theorem lowerWait_lost (clock : Clock) (nowTs : BitVec 64) (r : Receiver) :
    (r.lowerWait clock nowTs).loss = r.loss ∧ (r.lowerWait clock nowTs).maxSeq = r.maxSeq := by
  rw [lowerWait]
  split <;> exact ⟨rfl, rfl⟩

/-- The ways that `video_real_ack` may go. -/
theorem videoRealAck_cases {hb : Bool} {seq : BitVec 32} {ack : Option SegmentAck}
    (h : r.videoRealAck clock hb seq = some (r', ack)) :
    r.ackDue clock hb = false ∧ r' = r ∧ ack = none ∨
      r.ackDue clock hb = true ∧ ∃ r₁ scan, r.advanceBase = some r₁ ∧
        scan = r₁.loss.toList.foldl (scanLoss clock r.ackBase) ⟨r₁.loss, [], r₁.lossCount, 0⟩ ∧
        r'.loss = scan.loss ∧ r'.baseSeq = r.ackBase ∧ r'.maxSeq = r.maxSeq ∧
        ack = some ⟨r.ackBase, seq, scan.nack⟩ := by
  rw [videoRealAck] at h
  split at h
  · rename_i hdue
    split at h
    · cases h
    · rename_i r₁ hbase
      obtain ⟨rfl, rfl⟩ := Prod.mk.inj (Option.some.inj h)
      have heq := advanceBase_eq hbase
      have hseq : r₁.baseSeq = r.ackBase := by rw [heq]
      have hmax : r₁.maxSeq = r.maxSeq := by rw [heq]
      rw [adaptWait_eq]
      refine .inr ⟨hdue, r₁, _, hbase, rfl, ?_, hseq, hmax, ?_⟩
      · dsimp only
        rw [hseq]
      · rw [hseq]
  · rename_i hnot
    obtain ⟨rfl, rfl⟩ := Prod.mk.inj (Option.some.inj h)
    exact .inl ⟨Bool.eq_false_of_not_eq_true hnot, rfl, rfl⟩

/-- An ack adds no packet to the list. -/
theorem lost_of_videoRealAck {hb : Bool} {seq : BitVec 32} {ack : Option SegmentAck}
    (h : r.videoRealAck clock hb seq = some (r', ack)) :
    r'.maxSeq = r.maxSeq ∧ ∀ key, r'.Lost key → r.Lost key := by
  rcases videoRealAck_cases h with ⟨-, rfl, -⟩ | ⟨-, r₁, scan, hbase, rfl, hloss, -, hmax, -⟩
  · exact ⟨rfl, fun _ hkey => hkey⟩
  · refine ⟨hmax, fun key hkey => ?_⟩
    rw [Lost, hloss, SortedMap.isSome_find?_iff_mem_keys, keys_foldl_scanLoss,
      ← SortedMap.isSome_find?_iff_mem_keys] at hkey
    obtain ⟨b, hb, rfl⟩ := SortedMap.isSome_find?_iff.mp hkey
    exact lost_iff.mpr ⟨b, ((mem_advanceBase hbase b).mp hb).1, rfl⟩

theorem mem_requests_iff {key : Nat} : key ∈ r.requests clock ↔
    ∃ b ∈ (r.loss.toList.filter (dueAbove clock r.ackBase)).take SimProto.nackNum,
      b.1 = key := by
  rw [requests, List.mem_map]

/-- **An ack** is sent when it is due, and asks for packets that are still lost behind it. -/
theorem ack_of_videoRealAck {hb : Bool} {seq : BitVec 32} {ack : SegmentAck}
    (h : r.videoRealAck clock hb seq = some (r', some ack)) :
    r.ackDue clock hb = true ∧ ack.basePacketId = r.ackBase ∧
      ack.nack = (r.requests clock).map (offset r.ackBase) ∧
      ∀ key ∈ r.requests clock, r'.Lost key := by
  rcases videoRealAck_cases h with ⟨-, -, hnone⟩ | ⟨hdue, r₁, scan, hbase, rfl, hloss, -, -, hack⟩
  · cases hnone
  obtain rfl := Option.some.inj hack
  have hfilter := filter_dueAbove_advanceBase clock hbase
  refine ⟨hdue, rfl, ?_, fun key hkey => ?_⟩
  · rw [nack_foldl_scanLoss, hfilter, requests, List.map_map]
    rfl
  · obtain ⟨b, hb, rfl⟩ := mem_requests_iff.mp hkey
    rw [← hfilter] at hb
    have hmem : b ∈ r₁.loss.toList := (List.mem_filter.mp (List.mem_of_mem_take hb)).1
    rw [Lost, hloss, SortedMap.isSome_find?_iff_mem_keys, keys_foldl_scanLoss]
    exact List.mem_map_of_mem hmem

/-- What is asked for is above the base. -/
theorem lt_of_mem_requests {key : Nat} (h : key ∈ r.requests clock) : r.ackBase.toNat < key := by
  obtain ⟨b, hb, rfl⟩ := mem_requests_iff.mp h
  have hdue := (List.mem_filter.mp (List.mem_of_mem_take hb)).2
  exact of_decide_eq_true (Bool.and_eq_true_iff.mp hdue).1

theorem lost_of_mem_requests {key : Nat} (h : key ∈ r.requests clock) : r.Lost key := by
  obtain ⟨b, hb, rfl⟩ := mem_requests_iff.mp h
  exact lost_iff.mpr ⟨b, (List.mem_filter.mp (List.mem_of_mem_take hb)).1, rfl⟩

/-- One packet alone is due. -/
theorem requests_eq_singleton {b : Nat × SimLoss}
    (h : ∀ c, c ∈ r.loss ∧ dueAbove clock r.ackBase c = true ↔ c = b) :
    r.requests clock = [b.1] := by
  rw [requests, SortedMap.filter_eq_singleton h]
  rfl

/-- No packet is asked for twice in one ack. -/
theorem nodup_requests (clock : Clock) (r : Receiver) : (r.requests clock).Nodup := by
  refine r.loss.nodup_keys.sublist (List.Sublist.map _ ?_)
  exact (List.take_sublist _ _).trans List.filter_sublist

end Receiver

end SimTransport

end Razor
