import RmcatNs3.Razor.CacheWindow
import RmcatNs3.Razor.SimReceiver

/-!
# The segments of a frame

The array of a frame is made for the `total` of the first segment that comes for its slot,
and `real_video_cache_put` looks at the `index` of a segment in two places: an assertion that
compares it with the `total` of the same segment, and an access to the array that is in the
slot. The decoder checks neither, and `sim_receiver_put` does not either.
-/

namespace Razor

namespace SimTransport

open CountedLoop Runs SimProto

/-- A call fails no assertion, and stays in the segments of a frame. -/
def InBounds {α : Type} (result : Except Fault α) : Prop :=
  result ≠ .error .assertion ∧ result ≠ .error .bounds

theorem inBounds_ok {α : Type} {a : α} : InBounds (.ok a) := by
  constructor <;> (intro h; cases h)

theorem inBounds_error_iff {α : Type} {fault : Fault} :
    InBounds (.error fault : Except Fault α) ↔ fault = .endless := by
  cases fault <;> simp [InBounds]

theorem inBounds_endless {α : Type} : InBounds (.error .endless : Except Fault α) :=
  inBounds_error_iff.mpr rfl

/-- The fault that a call comes to. -/
def faultOf {α : Type} : Except Fault α → Option Fault
  | .error fault => some fault
  | .ok _ => none

theorem faultOf_eq_some_iff {α : Type} {result : Except Fault α} {fault : Fault} :
    faultOf result = some fault ↔ result = .error fault := by
  cases result <;> simp [faultOf]

namespace VideoCache

/-! ## What cleaning keeps -/

/-- A property that no cleaning of a frame takes away. -/
structure Stable (P : VideoCache → Prop) : Prop where
  alike : ∀ c c', Alike c c' → P c → P c'
  clean : ∀ c slot, P c → P (c.clean slot)

variable {c c' : VideoCache} {slot : Fin cacheSize} {P : VideoCache → Prop}

theorem Stable.forLoop (hP : Stable P) {more : BitVec 32 → VideoCache → Bool}
    {body : BitVec 32 → VideoCache → VideoCache} {i j : BitVec 32}
    (hbody : ∀ i c, ∃ c₁, Alike c c₁ ∧ body i c = c₁.clean (index i)) (hc : P c)
    (h : forLoop more body i c = some (j, c')) : P c' := by
  refine (loop_invariant (I := fun _ => P) hc ?_ h).1
  intro i c₂ hc₂ _
  obtain ⟨c₁, halike, heq⟩ := hbody i c₂
  rw [heq]
  exact hP.clean c₁ _ (hP.alike c₂ c₁ halike hc₂)

theorem Stable.cleanWhile (hP : Stable P) {more : BitVec 32 → Bool} {i : BitVec 32} (hc : P c)
    (h : c.cleanWhile more i = some c') : P c' := by
  obtain ⟨j, hloop⟩ := cleanWhile_eq h
  exact hP.forLoop clean_turn hc hloop

theorem Stable.evictFrame (hP : Stable P) {fid : BitVec 32} (hc : P c)
    (h : c.evictFrame fid = some c') : P c' := by
  obtain ⟨c₁, hfirst, h⟩ := Option.bind_eq_some_iff.mp h
  have hc₁ := hP.cleanWhile hc hfirst
  split at h
  · obtain rfl := Option.some.inj h
    exact hc₁
  · obtain ⟨pos, _, hrest⟩ := Option.bind_eq_some_iff.mp h
    exact hP.cleanWhile hc₁ hrest

theorem Stable.evictGopFrame (hP : Stable P) (hc : P c) (h : c.evictGopFrame = some c') :
    P c' := by
  obtain ⟨i, _, h⟩ := Option.bind_eq_some_iff.mp h
  generalize (if i < c.maxFid then i else 0) = keyFrameId at h
  dsimp only at h
  split at h
  · obtain rfl := Option.some.inj h
    exact hc
  · obtain ⟨r, hloop, rfl⟩ := Option.map_eq_some_iff.mp h
    exact hP.forLoop (j := r.1) (fun i c =>
      ⟨{ c with frameTs := (c.frames (index i)).ts }, ⟨rfl, rfl, rfl, rfl⟩, rfl⟩) hc hloop

theorem Stable.playFrame (hP : Stable P) {bufferSize : Nat} {out : Option Delivery} (hc : P c)
    (h : c.playFrame bufferSize = .ok (c', out)) : P c' := by
  simp only [VideoCache.playFrame] at h
  split at h
  · split at h
    · cases h
    · split at h
      · obtain ⟨rfl, _⟩ := Prod.mk.inj (Except.ok.inj h)
        refine hP.alike c _ ?_ hc
        exact ⟨rfl, rfl, rfl, rfl⟩
      · split at h
        · obtain ⟨rfl, _⟩ := Prod.mk.inj (Except.ok.inj h)
          refine hP.clean _ _ (hP.alike c _ ?_ hc)
          exact ⟨rfl, rfl, rfl, rfl⟩
        · obtain ⟨rfl, _⟩ := Prod.mk.inj (Except.ok.inj h)
          exact hc
  · obtain ⟨rfl, _⟩ := Prod.mk.inj (Except.ok.inj h)
    exact hc

theorem Stable.get (hP : Stable P) {scaled : Speed → BitVec 64 → BitVec 32} {now : BitVec 64}
    {bufferSize : Nat} {out : Option Delivery} (hc : P c)
    (h : c.get scaled now bufferSize = .ok (c', out)) : P c' := by
  rcases get_cases scaled c now bufferSize with ⟨c₁, halike, hidle⟩ | ⟨c₁, c₂, halike, hgop, hplay⟩
  · rw [hidle] at h
    obtain ⟨rfl, _⟩ := Prod.mk.inj (Except.ok.inj h)
    exact hP.alike c c₁ halike hc
  · have hc₁ := hP.alike c c₁ halike hc
    have hc₂ : P c₂ := by
      rcases hgop with rfl | hgop
      · exact hc₁
      · exact hP.evictGopFrame hc₁ hgop
    rw [hplay] at h
    exact hP.playFrame hc₂ h

theorem Stable.cleanAll (hP : Stable P) (hc : P c) : P c.cleanAll := by
  have hfold : ∀ (slots : List (Fin cacheSize)) (c : VideoCache), P c →
      P (slots.foldl VideoCache.clean c) := by
    intro slots
    induction slots with
    | nil => exact fun _ hc => hc
    | cons first rest ih => exact fun c hc => ih (c.clean first) (hP.clean c first hc)
  exact hfold _ c hc

/-- A slot that is empty stays so. -/
theorem stable_not_holds (slot : Fin cacheSize) : Stable fun c => ¬c.Holds slot where
  alike c c' h hc := by rwa [Holds, h.frames]
  clean c other hc := fun hheld => hc (holds_clean_iff.mp hheld).2

/-- The slots of the counters that the first loop of `real_video_evict_frame` has passed. -/
theorem not_holds_cleanWhile {i fid : BitVec 32} (hi : i ≤ fid)
    (h : c.cleanWhile (fun pos => decide (pos ≤ fid)) i = some c') :
    ¬c'.Holds (index fid) := by
  have hends : (c.cleanWhile (fun pos => decide (pos ≤ fid)) i).isSome := by rw [h]; rfl
  have hfid : fid ≠ BitVec.allOnes 32 :=
    (cleanWhile_le_isSome_iff.mp hends).resolve_left (BitVec.not_lt.mpr hi)
  obtain ⟨j, hloop⟩ := cleanWhile_eq h
  have hrun := loop_invariant
    (I := fun j (c' : VideoCache) => ∀ q, i ≤ q → q < j → ¬c'.Holds (index q)) ?_ ?_ hloop
  · obtain ⟨hpassed, hend⟩ := hrun
    exact hpassed fid hi (by simpa using hend)
  · exact fun q hle hlt => absurd hlt (BitVec.not_lt.mpr hle)
  · intro j c₁ hpassed hmore q hle hlt hheld
    have hj : j < fid + 1 := (le_iff_lt_succ hfid).mp (of_decide_eq_true hmore)
    obtain ⟨hne, hheld⟩ := holds_clean_iff.mp hheld
    have hbefore : q < j := by
      have hq : q ≠ j := fun heq => hne (heq ▸ rfl)
      have hnat : q.toNat ≠ j.toNat := fun heq => hq (BitVec.eq_of_toNat_eq heq)
      rw [BitVec.lt_def, toNat_succ_of_lt hj] at hlt
      rw [BitVec.lt_def]
      omega
    exact hpassed q hle hbefore hheld

/-- The slot of a frame is empty after the eviction for it. -/
theorem not_holds_evictFrame {fid : BitVec 32} (hlt : c.maxFid < fid)
    (h : c.evictFrame fid = some c') : ¬c'.Holds (index fid) := by
  obtain ⟨c₁, hfirst, h⟩ := Option.bind_eq_some_iff.mp h
  have hbegins : c.maxFid + 1 ≤ fid := by
    rw [BitVec.le_def, toNat_succ_of_lt hlt]
    exact hlt
  have hempty := not_holds_cleanWhile hbegins hfirst
  split at h
  · obtain rfl := Option.some.inj h
    exact hempty
  · obtain ⟨pos, _, hrest⟩ := Option.bind_eq_some_iff.mp h
    exact (stable_not_holds _).cleanWhile hempty hrest

/-- A loop over all slots leaves none that holds a frame. -/
theorem not_holds_cleanAll : ¬c.cleanAll.Holds slot := by
  have hfold : ∀ (slots : List (Fin cacheSize)) (c : VideoCache), slot ∈ slots ∨ ¬c.Holds slot →
      ¬(slots.foldl clean c).Holds slot := by
    intro slots
    induction slots with
    | nil => exact fun c h => h.resolve_left List.not_mem_nil
    | cons first rest ih =>
        intro c h
        refine ih (c.clean first) ?_
        by_cases hrest : slot ∈ rest
        · exact .inl hrest
        · refine .inr fun hheld => ?_
          obtain ⟨hne, hheld⟩ := holds_clean_iff.mp hheld
          rcases h with hmem | hempty
          · exact (List.mem_cons.mp hmem).elim hne hrest
          · exact hempty hheld
  exact hfold _ c (.inl (List.mem_finRange slot))

/-! ## One segment -/

/-- Before the first frame the cache is empty. -/
def Blank (c : VideoCache) : Prop := c.maxFid = 0 → ∀ slot, ¬c.Holds slot

theorem stable_blank : Stable Blank where
  alike c c' h hc hzero slot := by
    rw [Holds, h.frames]
    exact hc (h.maxFid.symm.trans hzero) slot
  clean c other hc hzero slot hheld := by
    rw [clean_maxFid] at hzero
    exact hc hzero slot (holds_clean_iff.mp hheld).2

/-- The slot of a new frame is empty when its first segment is filed. -/
theorem Blank.not_holds_advance (hb : c.Blank) {seg : SimSegment} (hlt : c.maxFid < seg.fid)
    (h : c.advance seg = some c') : ¬c'.Holds (index seg.fid) := by
  rw [advance, if_pos hlt] at h
  obtain ⟨c₁, hroom, rfl⟩ := Option.map_eq_some_iff.mp h
  rw [makeRoom] at hroom
  split at hroom
  · exact fun hheld => not_holds_evictFrame hlt hroom hheld
  · rename_i hpos
    have hnone := hb (by simpa using hpos) (index seg.fid)
    split at hroom
    · obtain rfl := Option.some.inj hroom
      exact hnone
    · obtain rfl := Option.some.inj hroom
      exact hnone

/-- The segment has its place: it is for a frame that has been played, or its `index` is
below its `total` and below the number of segments of the frame that is in its slot. -/
def HasPlace (c : VideoCache) (seg : SimSegment) : Prop :=
  seg.index < seg.total ∧ (c.minFid < seg.fid → seg.fid ≤ c.maxFid →
    c.Holds (index seg.fid) → seg.index.toNat < (c.frames (index seg.fid)).segNumber)

/-- **`real_video_cache_put` stays in bounds** exactly if the segment has its place. -/
theorem Blank.put_inBounds_iff (hb : c.Blank) {seg : SimSegment} :
    InBounds (c.put seg) ↔ c.HasPlace seg := by
  rw [HasPlace, VideoCache.put]
  by_cases hindex : seg.total ≤ seg.index
  · rw [if_pos hindex]
    exact iff_of_false (fun h => h.1 rfl) fun h => BitVec.not_lt.mpr hindex h.1
  · rw [if_neg hindex]
    have hlt := BitVec.not_le.mp hindex
    by_cases hmin : seg.fid ≤ c.minFid
    · rw [if_pos hmin]
      exact iff_of_true inBounds_ok
        ⟨hlt, fun h => absurd h (BitVec.not_lt.mpr hmin)⟩
    · rw [if_neg hmin]
      by_cases habove : c.maxFid < seg.fid
      · have hplace : seg.index < seg.total ∧ (c.minFid < seg.fid → seg.fid ≤ c.maxFid →
            c.Holds (index seg.fid) → seg.index.toNat < (c.frames (index seg.fid)).segNumber) :=
          ⟨hlt, fun _ hle => absurd habove (BitVec.not_lt.mpr hle)⟩
        cases hadvance : c.advance seg with
        | none => exact iff_of_true inBounds_endless hplace
        | some c₁ =>
            obtain ⟨r, hr⟩ := fileSegment_of_not_holds (hb.not_holds_advance habove hadvance)
            dsimp only
            rw [hr]
            exact iff_of_true inBounds_ok hplace
      · -- a frame of the window: its slot has been sized by the first segment that came for it
        have hadvance : c.advance seg = some c := if_neg habove
        rw [hadvance]
        dsimp only
        by_cases hheld : c.Holds (index seg.fid)
        · rcases fileSegment_of_holds hheld with ⟨⟨r, hr⟩, hin⟩ | ⟨herror, hout⟩
          · rw [hr]
            exact iff_of_true inBounds_ok ⟨hlt, fun _ _ _ => hin⟩
          · rw [herror]
            refine iff_of_false (fun h => h.2 rfl) fun h => ?_
            have hin := h.2 (BitVec.not_le.mp hmin) (BitVec.not_lt.mp habove) hheld
            omega
        · obtain ⟨r, hr⟩ := fileSegment_of_not_holds hheld
          rw [hr]
          exact iff_of_true inBounds_ok
            ⟨hlt, fun _ _ hyes => absurd hyes hheld⟩

/-- The cache is blank after a segment as well. -/
theorem Blank.put (hb : c.Blank) {seg : SimSegment} {taken : Bool}
    (h : c.put seg = .ok (c', taken)) : c'.Blank := by
  rcases put_ok_cases h with rfl | ⟨c₁, hmin, hadvance, hfile⟩
  · exact hb
  · obtain ⟨segments, rfl, _⟩ := fileSegment_spec hfile
    -- a frame above `min_fid` has an id above zero, and so has `max_fid`
    have hle := fid_le_of_advance hadvance
    intro hzero
    have hmax : c₁.maxFid = 0 := hzero
    rw [hmax] at hle
    exact absurd (Nat.lt_of_lt_of_le hmin hle) (Nat.not_lt_zero _)

theorem holds_restart {clock : Clock} : (c.restart clock).Holds slot ↔ c.Holds slot := Iff.rfl

theorem Blank.reset (clock : Clock) (c : VideoCache) : (c.reset clock).Blank := by
  intro _ slot hheld
  rw [VideoCache.reset, holds_restart] at hheld
  exact not_holds_cleanAll hheld

end VideoCache

/-! ## Runs of the receiver -/

namespace Receiver

variable {scaled : Speed → BitVec 64 → BitVec 32} {clock : Clock} {r r' : Receiver}

theorem cache_advanceBase (h : r.advanceBase = some r') : r'.cache = r.cache := by
  rw [advanceBase] at h
  split at h
  · obtain ⟨ended, _, rfl⟩ := Option.map_eq_some_iff.mp h
    rfl
  · obtain rfl := Option.some.inj h
    rfl

theorem alike_adaptWait (maxCount : Nat) : r.cache.Alike (r.adaptWait clock maxCount).cache := by
  rw [adaptWait]
  split <;> exact ⟨rfl, rfl, rfl, rfl⟩

theorem alike_lowerWait (nowTs : BitVec 64) : r.cache.Alike (r.lowerWait clock nowTs).cache := by
  rw [lowerWait]
  split <;> exact ⟨rfl, rfl, rfl, rfl⟩

/-- An ack only touches the time in the cache. -/
theorem alike_videoRealAck {hb : Bool} {seq : BitVec 32} {ack : Option SegmentAck}
    (h : r.videoRealAck clock hb seq = some (r', ack)) : r.cache.Alike r'.cache := by
  rw [videoRealAck] at h
  split at h
  · split at h
    · cases h
    · rename_i r₁ hbase
      obtain ⟨rfl, _⟩ := Prod.mk.inj (Option.some.inj h)
      rw [← cache_advanceBase hbase]
      refine VideoCache.Alike.trans ?_ (alike_adaptWait _)
      exact ⟨rfl, rfl, rfl, rfl⟩
  · obtain ⟨rfl, _⟩ := Prod.mk.inj (Option.some.inj h)
    exact ⟨rfl, rfl, rfl, rfl⟩

/-- What `sim_receiver_put` does to the cache. -/
theorem put_cases {seg : SimSegment} {ack : Option SegmentAck}
    (h : r.put clock seg = .ok (r', ack)) :
    r'.cache = r.cache ∨ r.ignores seg = false ∧
      ∃ c taken, r.cache.put seg = .ok (c, taken) ∧ c.Alike r'.cache := by
  have hresult := put_result clock r seg
  generalize r.put clock seg = result at h hresult
  cases hresult with
  | ignored =>
      obtain ⟨rfl, _⟩ := Prod.mk.inj (Except.ok.inj h)
      exact .inl rfl
  | fault => cases h
  | rejected hignores _ hput =>
      obtain ⟨rfl, _⟩ := Prod.mk.inj (Except.ok.inj h)
      exact .inr ⟨hignores, _, false, hput, rfl, rfl, rfl, rfl⟩
  | endless => cases h
  | taken hignores _ hput htaken =>
      obtain rfl := Except.ok.inj h
      exact .inr ⟨hignores, _, true, hput, alike_videoRealAck htaken⟩

/-- The bounds of `sim_receiver_put` are those of the cache. -/
theorem put_inBounds_iff {seg : SimSegment} : InBounds (r.put clock seg) ↔
    r.ignores seg = true ∨ InBounds (r.cache.put seg) := by
  have hresult := put_result clock r seg
  generalize r.put clock seg = result at hresult
  cases hresult with
  | ignored hignores => exact iff_of_true inBounds_ok (.inl hignores)
  | fault hignores hput =>
      rw [hput, hignores, or_iff_right Bool.false_ne_true]
      exact inBounds_error_iff.trans inBounds_error_iff.symm
  | rejected _ _ hput =>
      rw [hput]
      exact iff_of_true inBounds_ok (.inr inBounds_ok)
  | endless _ hput =>
      rw [hput]
      exact iff_of_true inBounds_endless (.inr inBounds_ok)
  | taken _ _ hput =>
      rw [hput]
      exact iff_of_true inBounds_ok (.inr inBounds_ok)

/-- What `sim_receiver_get` does to the cache. -/
theorem get_cases {now : BitVec 64} {bufferSize : Nat} {out : Option VideoCache.Delivery}
    (h : r.get scaled now bufferSize = .ok (r', out)) :
    r'.cache = r.cache ∨ r.cache.get scaled now bufferSize = .ok (r'.cache, out) := by
  rw [Receiver.get] at h
  split at h
  · obtain ⟨result, hget, hresult⟩ := map_eq_ok h
    obtain ⟨rfl, rfl⟩ := Prod.mk.inj hresult
    exact .inr hget
  · obtain ⟨rfl, _⟩ := Prod.mk.inj (Except.ok.inj h)
    exact .inl rfl

/-- What `sim_receiver_timer` does to the cache. -/
theorem alike_timer {nowTs : BitVec 64} {ack : Option SegmentAck}
    (h : r.timer clock nowTs = some (r', ack)) : r.cache.Alike r'.cache := by
  obtain ⟨result, hack, hresult⟩ := Option.map_eq_some_iff.mp h
  obtain ⟨rfl, _⟩ := Prod.mk.inj hresult
  exact (alike_videoRealAck hack).trans (alike_lowerWait nowTs)

theorem alike_active (uid : BitVec 32) : r.cache.Alike (r.active uid clock).cache := by
  rw [active]
  split <;> exact ⟨rfl, rfl, rfl, rfl⟩

/-- A property that cleaning keeps is kept by a call if a segment and a reset keep it. -/
theorem stable_step {P : VideoCache → Prop} (hP : VideoCache.Stable P) {e : Input}
    (hc : P r.cache)
    (hput : ∀ clock seg c taken, e = .put clock seg → r.ignores seg = false →
      r.cache.put seg = .ok (c, taken) → P c)
    (hreset : ∀ clock, P (r.cache.reset clock)) (h : Step scaled r e r') : P r'.cache := by
  obtain ⟨ack, hcall⟩ := h
  cases e with
  | put clock seg =>
      rcases put_cases hcall with hcache | ⟨hignores, c, taken, hfiled, halike⟩
      · rwa [hcache]
      · exact hP.alike c _ halike (hput clock seg c taken rfl hignores hfiled)
  | get now bufferSize =>
      obtain ⟨result, hget, hresult⟩ := map_eq_ok hcall
      obtain ⟨rfl, _⟩ := Prod.mk.inj hresult
      rcases get_cases hget with hcache | hcache
      · rwa [hcache]
      · exact hP.get hc hcache
  | timer clock nowTs =>
      rw [call] at hcall
      split at hcall
      · cases hcall
      · rename_i result htimer
        obtain rfl := Except.ok.inj hcall
        exact hP.alike _ _ (alike_timer htimer) hc
  | active uid clock =>
      obtain ⟨rfl, _⟩ := Prod.mk.inj (Except.ok.inj hcall)
      exact hP.alike _ _ (alike_active uid) hc
  | reset clock =>
      obtain ⟨rfl, _⟩ := Prod.mk.inj (Except.ok.inj hcall)
      exact hreset clock

theorem blank_of_step {e : Input} (hb : r.cache.Blank) (h : Step scaled r e r') :
    r'.cache.Blank :=
  stable_step VideoCache.stable_blank hb (fun _ _ _ _ _ _ hfiled => hb.put hfiled)
    (fun clock => .reset clock r.cache) h

/-- **Segments cannot leave their frame** exactly if they have their place: in every state
that the receiver reaches, whatever segments it has received. -/
theorem put_inBounds_iff_of_run {start : Clock} {es : List Input}
    (h : Run (Step scaled) (.new start) es r) (clock : Clock) (seg : SimSegment) :
    InBounds (r.put clock seg) ↔ r.ignores seg = true ∨ r.cache.HasPlace seg := by
  have hblank : r.cache.Blank :=
    h.stateInvariant (I := fun r => r.cache.Blank) (fun _ _ hheld => Nat.lt_irrefl 0 hheld)
      fun _ _ _ => blank_of_step
  rw [put_inBounds_iff, hblank.put_inBounds_iff]

/-- A segment of frame 1 in a datagram, with the checksum that the sender puts behind it. -/
def segmentDatagram (packetId index total : UInt8) : BinStream :=
  let bytes := [1, 0x17, 0, 0, 0, 0, 1, 0, 0, packetId, 0, 1, 0, 0, 0, 0, index, total,
    0, 0, 0, 0, 0, 0]
  let all := bytes ++ Bytes.encode 4 (crc32 crcVal bytes).toNat
  { data := fun i => all.getD i 0, size := defaultPacketSize, rptr := 0, rsize := 0, wptr := 0
    used := all.length }

/-- The segment in it. -/
def segmentOf (packetId : BitVec 32) (index total : BitVec 16) : SimSegment where
  packetId := packetId
  fid := 1
  timestamp := 0
  index := index
  total := total
  ftype := 1
  payloadType := 0
  remb := 0xff
  sendTs := 0
  transportSeq := 0
  dataSize := 0
  data := Vector.replicate simVideoSize 0

/-- The numbers and the bytes of a segment. -/
def fields (seg : SimSegment) : List Nat × List UInt8 :=
  ([seg.packetId.toNat, seg.fid.toNat, seg.timestamp.toNat, seg.index.toNat, seg.total.toNat,
    seg.ftype.toNat, seg.payloadType.toNat, seg.remb.toNat, seg.sendTs.toNat,
    seg.transportSeq.toNat, seg.dataSize.toNat], seg.data.toList)

theorem fields_injective : Function.Injective fields := by
  intro a b h
  cases a
  cases b
  simpa [fields, BitVec.toNat_inj, Vector.toList_inj, and_assoc] using h

theorem received_segmentDatagram {packetId index total : UInt8} {seg : SimSegment}
    (h : (received (segmentOf 0 0 0) (segmentDatagram packetId index total)).map fields =
      some (fields seg)) :
    received (segmentOf 0 0 0) (segmentDatagram packetId index total) = some seg :=
  Option.map_injective fields_injective h

/-- An active receiver gets the first of two segments of a frame. -/
def firstSegment : List Input := [.active 0 ⟨1, 10, 10⟩, .put ⟨2, 10, 10⟩ (segmentOf 1 0 2)]

theorem put_inBounds_iff_firstSegment :
    ∃ r, Run (Step fun _ elapsed => elapsed.setWidth 32) (.new ⟨0, 10, 10⟩) firstSegment r ∧
      r.cache.maxFid = 1 ∧ ∀ clock seg,
        InBounds (r.put clock seg) ↔ r.ignores seg = true ∨ r.cache.HasPlace seg := by
  have hlast : (firstSegment.foldlM (step? fun _ elapsed => elapsed.setWidth 32)
      (new ⟨0, 10, 10⟩)).map (fun r => r.cache.maxFid) = some 1 := by
    decide +kernel
  obtain ⟨r, hr, hmax⟩ := Option.map_eq_some_iff.mp hlast
  have hrun := run_of_foldlM hr
  exact ⟨r, hrun, hmax, put_inBounds_iff_of_run hrun⟩

/-- Three segments of frame 1 from the network. After the first one, of two, the second one,
with the index 3 and a total of 1, fails the assertion; the third one, with the index 3 and
a total of 4, is beyond the two segments of the frame. -/
theorem not_inBounds_datagrams :
    received (segmentOf 0 0 0) (segmentDatagram 1 0 2) = some (segmentOf 1 0 2) ∧
    received (segmentOf 0 0 0) (segmentDatagram 2 3 1) = some (segmentOf 2 3 1) ∧
    received (segmentOf 0 0 0) (segmentDatagram 2 3 4) = some (segmentOf 2 3 4) ∧
    ∃ r, Run (Step fun _ elapsed => elapsed.setWidth 32) (.new ⟨0, 10, 10⟩) firstSegment r ∧
      r.put ⟨3, 10, 10⟩ (segmentOf 2 3 1) = .error .assertion ∧
      r.put ⟨3, 10, 10⟩ (segmentOf 2 3 4) = .error .bounds := by
  have hlast : (firstSegment.foldlM (step? fun _ elapsed => elapsed.setWidth 32)
      (new ⟨0, 10, 10⟩)).map (fun r => (faultOf (r.put ⟨3, 10, 10⟩ (segmentOf 2 3 1)),
        faultOf (r.put ⟨3, 10, 10⟩ (segmentOf 2 3 4)))) = some (some .assertion, some .bounds) := by
    decide +kernel
  obtain ⟨r, hr, hfaults⟩ := Option.map_eq_some_iff.mp hlast
  rw [Prod.mk.injEq, faultOf_eq_some_iff, faultOf_eq_some_iff] at hfaults
  refine ⟨?_, ?_, ?_, r, run_of_foldlM hr, hfaults⟩ <;>
    exact received_segmentDatagram (by decide +kernel)

end Receiver

end SimTransport

end Razor
