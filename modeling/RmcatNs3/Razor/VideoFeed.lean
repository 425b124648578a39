import RmcatNs3.Razor.FrameCut
import RmcatNs3.Razor.LossList
import RmcatNs3.Razor.ReceiverLoops
import RmcatNs3.Razor.SessionWire

/-!
# What a receiver is fed with

The receiver of a session that gets nothing but segments of the frames that were given to its
peer: the frames that it plays are such frames, in their order, and its numbers stay among the
packets of these frames. A receiver that has seen no segment yet may be reset, as it is when the
connect of the peer comes once more.
-/

namespace Razor

namespace SimTransport

open CountedLoop Runs SimProto

variable {frames frames' : List (List UInt8)} {seg seg' : SimSegment}

/-! ## Segments on the wire -/

theorem CutFrom.resent {before : List (List UInt8)} {data : List UInt8}
    (h : CutFrom before data seg) (hre : Resent seg seg') : CutFrom before data seg' := by
  obtain ⟨_, _, rfl⟩ := hre
  exact ⟨h.fid, h.total, h.packetId, h.piece, h.dataSize⟩

theorem Cut.resent (h : Cut frames seg) (hre : Resent seg seg') : Cut frames seg' := by
  obtain ⟨before, data, after, heq, hcut⟩ := h
  exact ⟨before, data, after, heq, hcut.resent hre⟩

/-- The bytes that a segment carries are those that it carried when it was sent. -/
theorem payload_eq_of_sameData (hsize : seg'.dataSize = seg.dataSize)
    (hsame : SameData seg'.data seg.data seg.dataSize.toNat) : payload seg' = payload seg := by
  rw [payload, payload, hsize]
  apply List.ext_getElem?
  intro k
  rw [List.getElem?_take, List.getElem?_take]
  split
  · rename_i hk
    have hload := hsame k hk
    rw [BoundedArray.load, BoundedArray.load] at hload
    rw [← Vector.getElem?_toList, ← Vector.getElem?_toList] at hload
    exact hload
  · rfl

theorem Cut.recovered (h : Cut frames seg) (hrec : Recovered (.seg seg) (.seg seg')) :
    Cut frames seg' := by
  obtain ⟨hsame, heq⟩ := hrec
  obtain ⟨before, data, after, hframes, hcut⟩ := h
  have hsize : seg'.dataSize = seg.dataSize := by rw [heq]
  have hindex : seg'.index = seg.index := by rw [heq]
  refine ⟨before, data, after, hframes, ?_, ?_, ?_, ?_, ?_⟩
  · rw [heq]
    exact hcut.fid
  · rw [heq]
    exact hcut.total
  · rw [heq]
    exact hcut.packetId
  · rw [payload_eq_of_sameData hsize hsame, hindex]
    exact hcut.piece
  · rw [hsize]
    exact hcut.dataSize

theorem Cut.dataSize_le (h : Cut frames seg) : seg.dataSize.toNat ≤ simVideoSize := by
  obtain ⟨before, data, after, -, hcut⟩ := h
  exact hcut.dataSize

/-! ## The sequence numbers of the cache -/

namespace VideoCache

variable {c c' : VideoCache} {P : BitVec 32 → Prop}

/-- `min_seq`, and what it may become. -/
structure SeqsIn (P : BitVec 32 → Prop) (c : VideoCache) : Prop where
  minSeq : P c.minSeq
  frameEnd : ∀ slot seg, some seg ∈ (c.frames slot).segments → P (frameEnd seg)

theorem SeqsIn.mono {Q : BitVec 32 → Prop} (h : c.SeqsIn P) (hle : ∀ seq, P seq → Q seq) :
    c.SeqsIn Q :=
  ⟨hle _ h.minSeq, fun slot seg hseg => hle _ (h.frameEnd slot seg hseg)⟩

theorem foldl_minSeq {segments : List (Option SimSegment)} {minSeq : BitVec 32} (hmin : P minSeq)
    (hends : ∀ seg, some seg ∈ segments → P (SimTransport.frameEnd seg)) :
    P (segments.foldl (fun minSeq seg => (seg.map SimTransport.frameEnd).getD minSeq) minSeq) := by
  induction segments generalizing minSeq with
  | nil => exact hmin
  | cons first rest ih =>
      refine ih ?_ fun seg hseg => hends seg (List.mem_cons_of_mem _ hseg)
      cases first with
      | none => exact hmin
      | some seg => exact hends seg List.mem_cons_self

theorem stable_seqsIn : Stable (SeqsIn P) where
  alike c c' h hc := by
    refine ⟨?_, ?_⟩
    · rw [h.minSeq]
      exact hc.minSeq
    · rw [h.frames]
      exact hc.frameEnd
  clean c slot hc := by
    by_cases hheld : c.Holds slot
    · refine ⟨?_, fun other seg hseg => ?_⟩
      · rw [clean, if_neg (Nat.pos_iff_ne_zero.mp hheld)]
        exact foldl_minSeq hc.minSeq (hc.frameEnd slot)
      · by_cases hne : other = slot
        · rw [hne, clean_frames_self hheld] at hseg
          exact absurd hseg List.not_mem_nil
        · rw [clean_frames_of_ne hne] at hseg
          exact hc.frameEnd other seg hseg
    · rwa [clean_of_not_holds hheld]

/-- A cache in which no frame has been filed yet. -/
structure Idle (c : VideoCache) : Prop where
  empty : ∀ slot, ¬c.Holds slot
  minSeq : c.minSeq = 0

theorem stable_idle : Stable Idle where
  alike c c' h hc := by
    refine ⟨fun slot hheld => hc.empty slot ?_, h.minSeq.trans hc.minSeq⟩
    rwa [Holds, ← h.frames]
  clean c slot hc := by rwa [clean_of_not_holds (hc.empty slot)]

/-- Room for a new frame is made by cleaning others. -/
theorem Stable.advance {P : VideoCache → Prop} (hP : Stable P)
    (hsame : ∀ c c', c'.frames = c.frames → c'.minSeq = c.minSeq → P c → P c') (hc : P c)
    (h : c.advance seg = some c') : P c' := by
  rw [VideoCache.advance] at h
  split at h
  · obtain ⟨c₁, hroom, rfl⟩ := Option.map_eq_some_iff.mp h
    refine hsame c₁ _ rfl rfl ?_
    rw [makeRoom] at hroom
    split at hroom
    · exact hP.evictFrame hc hroom
    · split at hroom
      · obtain rfl := Option.some.inj hroom
        exact hsame c _ rfl rfl hc
      · obtain rfl := Option.some.inj hroom
        exact hc
  · obtain rfl := Option.some.inj h
    exact hc

theorem SeqsIn.advance (hc : c.SeqsIn P) (h : c.advance seg = some c') : c'.SeqsIn P := by
  refine stable_seqsIn.advance ?_ hc h
  intro c₁ c₂ hframes hminSeq hc₁
  refine ⟨?_, ?_⟩
  · rw [hminSeq]
    exact hc₁.minSeq
  · rw [hframes]
    exact hc₁.frameEnd

theorem SeqsIn.put (hc : c.SeqsIn P) (hseg : P (SimTransport.frameEnd seg)) {taken : Bool}
    (h : c.put seg = .ok (c', taken)) : c'.SeqsIn P := by
  rcases put_ok_cases h with rfl | ⟨c₁, -, hadvance, hfile⟩
  · exact hc
  · have hc₁ := hc.advance hadvance
    obtain ⟨segments, rfl, hmem⟩ := mem_of_fileSegment hfile
    refine ⟨hc₁.minSeq, fun slot other hother => ?_⟩
    by_cases hne : slot = index seg.fid
    · rw [hne, setFrame_self] at hother
      rcases hmem other hother with rfl | hold
      · exact hseg
      · exact hc₁.frameEnd _ other hold
    · rw [setFrame_of_ne hne] at hother
      exact hc₁.frameEnd slot other hother

/-- An idle cache turns down nothing but a segment at or below `min_fid`. -/
theorem Idle.put (hc : c.Idle) (h : c.put seg = .ok (c', false)) : c' = c := by
  rcases put_ok_cases h with hsame | ⟨c₁, -, hadvance, hfile⟩
  · exact hsame
  · have hc₁ : c₁.Idle := by
      refine stable_idle.advance ?_ hc hadvance
      intro c₁ c₂ hframes hminSeq hc₁
      refine ⟨fun slot hheld => hc₁.empty slot ?_, hminSeq.trans hc₁.minSeq⟩
      rwa [Holds, ← hframes]
    have hzero : (c₁.frames (index seg.fid)).segNumber = 0 :=
      Nat.eq_zero_of_not_pos (hc₁.empty _)
    simp only [fileSegment] at hfile
    split at hfile
    · cases (Prod.mk.inj (Except.ok.inj hfile)).2
    · exact absurd hzero ‹_›

theorem Idle.reset (hc : c.Idle) (clock : Clock) : (c.reset clock).frames = c.frames := by
  have hfold : ∀ slots : List (Fin cacheSize), slots.foldl VideoCache.clean c = c := by
    intro slots
    induction slots with
    | nil => rfl
    | cons slot rest ih => rw [List.foldl_cons, clean_of_not_holds (hc.empty slot), ih]
  rw [VideoCache.reset, restart, cleanAll, hfold]

end VideoCache

/-! ## Feeding -/

/-- Playback does not look at the times in the cache. -/
theorem Playback.Ordered.alike {total : BitVec 32 → BitVec 16} {es : List Playback.Input}
    {c c' : VideoCache} {played : List VideoCache.Delivery}
    (h : Playback.Ordered total es ⟨c, played⟩) (halike : c.Alike c') :
    Playback.Ordered total es ⟨c', played⟩ where
  window := h.window.alike halike
  filled slot hslot := by
    rw [halike.frames]
    refine h.filled slot ?_
    rwa [VideoCache.Holds, ← halike.frames]
  small := h.small
  increasing := h.increasing
  behind d hd := by
    rw [halike.minFid]
    exact h.behind d hd
  assembled := h.assembled

namespace Receiver

variable {clock : Clock} {r r' : Receiver} {played : List VideoCache.Delivery}

/-- A receiver that has got segments of some frames and nothing else. The frames that come later
make no difference. -/
structure Fed (frames : List (List UInt8)) (played : List VideoCache.Delivery) (r : Receiver) :
    Prop where
  ordered : ∃ es, (∀ seg, .put seg ∈ es → Cut frames seg) ∧ ∀ more,
    Playback.Ordered (frameTotal (frames ++ more)) es ⟨r.cache, played⟩
  baseSeq : r.baseSeq.toNat ≤ packetCount frames
  seqs : r.cache.SeqsIn fun seq => seq.toNat ≤ packetCount frames
  unused : r.maxSeq = 0 → r.baseSeq = 0 ∧ r.cache.Idle ∧ played = []

theorem packetCount_le_of_prefix (h : frames <+: frames') :
    packetCount frames ≤ packetCount frames' := by
  obtain ⟨more, rfl⟩ := h
  rw [packetCount_append]
  exact Nat.le_add_right _ _

theorem Fed.mono (h : r.Fed frames played) (hle : frames <+: frames') : r.Fed frames' played := by
  have hcount := packetCount_le_of_prefix hle
  obtain ⟨es, hcut, hordered⟩ := h.ordered
  refine ⟨⟨es, fun seg hseg => (hcut seg hseg).mono hle, fun more => ?_⟩,
    Nat.le_trans h.baseSeq hcount, h.seqs.mono fun seq hseq => Nat.le_trans hseq hcount,
    h.unused⟩
  obtain ⟨between, rfl⟩ := hle
  rw [List.append_assoc]
  exact hordered (between ++ more)

/-- The frames that are played are those that were given, in their order. -/
theorem Fed.played_eq (h : r.Fed frames played)
    (hsizes : ∀ data ∈ frames, data.length / simVideoSize < splitNumber) :
    played.Pairwise (·.fid < ·.fid) ∧
      ∀ d ∈ played, 0 < d.fid.toNat ∧ frames[d.fid.toNat - 1]? = some d.data := by
  obtain ⟨es, hcut, hordered⟩ := h.ordered
  have hframes := hordered []
  rw [List.append_nil] at hframes
  exact ⟨hframes.increasing, fun d hd => (hframes.assembled d hd).data_eq hcut hsizes⟩

/-- A receiver that is started anew has not been fed. -/
theorem fed_blank {total : BitVec 32 → BitVec 16} {c : VideoCache} (hempty : ∀ slot, ¬c.Holds slot)
    (hcleared : ∀ slot, (c.frames slot).frameType ≠ 1) (hmin : c.minFid = 0)
    (hmax : c.maxFid = 0) : Playback.Ordered total [] ⟨c, []⟩ where
  window := by
    refine ⟨⟨fun slot hslot => absurd hslot (hempty slot),
      fun slot hslot => absurd hslot (hempty slot), fun slot hslot => absurd hslot (hempty slot),
      fun slot _ => hcleared slot⟩, ?_, ?_, ?_⟩
    · rw [hmin, hmax]
      exact BitVec.le_refl _
    · rw [hmin, hmax]
      exact Nat.zero_le _
    · rw [hmax]
      exact Nat.two_pow_pos 31
  filled slot hslot := absurd hslot (hempty slot)
  small seg hseg := absurd hseg List.not_mem_nil
  increasing := List.Pairwise.nil
  behind d hd := absurd hd List.not_mem_nil
  assembled d hd := absurd hd List.not_mem_nil

theorem seqsIn_of_empty {P : BitVec 32 → Prop} {c : VideoCache} (hempty : ∀ slot, ¬c.Holds slot)
    (hmin : P c.minSeq) : c.SeqsIn P :=
  ⟨hmin, fun slot _ hseg => absurd (List.length_pos_of_mem hseg) (hempty slot)⟩

theorem fed_new (clock clock' : Clock) (uid : BitVec 32) :
    ((new clock).active uid clock').Fed frames [] := by
  have hcache : ((new clock).active uid clock').cache.frames =
      (VideoCache.new clock.rtt clock.rttVar).frames := rfl
  have hempty : ∀ slot, ¬((new clock).active uid clock').cache.Holds slot :=
    fun slot hslot => Nat.lt_irrefl 0 hslot
  have htype : (0 : BitVec 8) ≠ 1 := by decide
  refine ⟨⟨[], fun _ hseg => absurd hseg List.not_mem_nil, fun more => ?_⟩, ?_, ?_, ?_⟩
  · exact fed_blank hempty (fun slot => htype) rfl rfl
  · exact Nat.zero_le _
  · exact seqsIn_of_empty hempty (Nat.zero_le _)
  · exact fun _ => ⟨rfl, ⟨hempty, rfl⟩, rfl⟩

/-- A reset does no harm before the first segment. -/
theorem Fed.reset (h : r.Fed frames played) (hunused : r.maxSeq = 0) (uid : BitVec 32)
    (clock' : Clock) : ((r.reset clock).active uid clock').Fed frames played := by
  obtain ⟨-, hidle, rfl⟩ := h.unused hunused
  obtain ⟨es, -, hordered⟩ := h.ordered
  have halike : (r.reset clock).cache.Alike ((r.reset clock).active uid clock').cache :=
    alike_active uid
  have hframes : ((r.reset clock).active uid clock').cache.frames = r.cache.frames :=
    halike.frames.trans (hidle.reset clock)
  have hempty : ∀ slot, ¬((r.reset clock).active uid clock').cache.Holds slot := by
    intro slot hslot
    rw [VideoCache.Holds, hframes] at hslot
    exact hidle.empty slot hslot
  have hmin : ((r.reset clock).active uid clock').cache.minSeq = 0 := halike.minSeq
  have hbase : ((r.reset clock).active uid clock').baseSeq = 0 := by
    rw [active]
    split <;> rfl
  refine ⟨⟨[], fun _ hseg => absurd hseg List.not_mem_nil, fun more => ?_⟩, ?_, ?_, ?_⟩
  · refine fed_blank hempty (fun slot => ?_) halike.minFid halike.maxFid
    rw [hframes]
    exact (hordered []).window.placed.cleared slot (hidle.empty slot)
  · rw [hbase]
    exact Nat.zero_le _
  · refine seqsIn_of_empty hempty ?_
    rw [hmin]
    exact Nat.zero_le _
  · exact fun _ => ⟨hbase, ⟨hempty, hmin⟩, rfl⟩

/-! ## Acks -/

theorem ackBase_toNat (r : Receiver) :
    r.ackBase.toNat = max r.baseSeq.toNat r.cache.minSeq.toNat := by
  rw [ackBase, suMax]
  split
  · rename_i hlt
    rw [BitVec.lt_def] at hlt
    omega
  · rename_i hnot
    rw [BitVec.lt_def] at hnot
    omega

theorem baseSeq_videoRealAck {hb : Bool} {seq : BitVec 32} {ack : Option SegmentAck}
    (h : r.videoRealAck clock hb seq = some (r', ack)) :
    (r'.baseSeq = r.baseSeq ∨ r'.baseSeq = r.ackBase) ∧ r'.maxSeq = r.maxSeq := by
  rcases videoRealAck_cases h with ⟨-, rfl, -⟩ | ⟨-, r₁, scan, -, -, -, hbase, hmax, -⟩
  · exact ⟨.inl rfl, rfl⟩
  · exact ⟨.inr hbase, hmax⟩

/-- An ack keeps a receiver fed, and its base does not go back. -/
theorem Fed.videoRealAck (h : r.Fed frames played) {hb : Bool} {seq : BitVec 32}
    {ack : Option SegmentAck} (hack : r.videoRealAck clock hb seq = some (r', ack)) :
    r'.Fed frames played ∧ r.baseSeq.toNat ≤ r'.baseSeq.toNat := by
  have halike := alike_videoRealAck hack
  have hackBase := ackBase_toNat r
  obtain ⟨hbase, hmax⟩ := baseSeq_videoRealAck hack
  obtain ⟨es, hcut, hordered⟩ := h.ordered
  have hbounds : r.baseSeq.toNat ≤ r'.baseSeq.toNat ∧ r'.baseSeq.toNat ≤ packetCount frames := by
    have hold := h.baseSeq
    have hmin := h.seqs.minSeq
    rcases hbase with hbase | hbase
    · rw [hbase]
      exact ⟨Nat.le_refl _, hold⟩
    · rw [hbase]
      omega
  refine ⟨⟨⟨es, hcut, fun more => (hordered more).alike halike⟩, hbounds.2,
    VideoCache.stable_seqsIn.alike _ _ halike h.seqs, fun hunused => ?_⟩, hbounds.1⟩
  rw [hmax] at hunused
  obtain ⟨hzero, hidle, hplayed⟩ := h.unused hunused
  refine ⟨?_, VideoCache.stable_idle.alike _ _ halike hidle, hplayed⟩
  apply BitVec.eq_of_toNat_eq
  rw [hidle.minSeq, hzero] at hackBase
  rcases hbase with hbase | hbase
  · rw [hbase, hzero]
  · rw [hbase, hackBase]
    rfl

theorem lowerWait_eq (nowTs : BitVec 64) (r : Receiver) :
    (r.lowerWait clock nowTs).baseSeq = r.baseSeq ∧
      (r.lowerWait clock nowTs).maxSeq = r.maxSeq := by
  rw [lowerWait]
  split <;> exact ⟨rfl, rfl⟩

/-- What leaves the numbers and the frames keeps a receiver fed. -/
theorem Fed.congr (h : r.Fed frames played) (halike : r.cache.Alike r'.cache)
    (hbase : r'.baseSeq = r.baseSeq) (hmax : r'.maxSeq = r.maxSeq) : r'.Fed frames played := by
  obtain ⟨es, hcut, hordered⟩ := h.ordered
  refine ⟨⟨es, hcut, fun more => (hordered more).alike halike⟩, ?_,
    VideoCache.stable_seqsIn.alike _ _ halike h.seqs, fun hunused => ?_⟩
  · rw [hbase]
    exact h.baseSeq
  · rw [hmax] at hunused
    obtain ⟨hzero, hidle, hplayed⟩ := h.unused hunused
    exact ⟨hbase.trans hzero, VideoCache.stable_idle.alike _ _ halike hidle, hplayed⟩

theorem Fed.timer (h : r.Fed frames played) {nowTs : BitVec 64} {ack : Option SegmentAck}
    (htimer : r.timer clock nowTs = some (r', ack)) :
    r'.Fed frames played ∧ r.baseSeq.toNat ≤ r'.baseSeq.toNat := by
  obtain ⟨⟨r₁, out⟩, hack, hresult⟩ := Option.map_eq_some_iff.mp htimer
  obtain ⟨rfl, -⟩ := Prod.mk.inj hresult
  obtain ⟨hfed, hle⟩ := h.videoRealAck hack
  obtain ⟨hbase, hmax⟩ := @lowerWait_eq clock nowTs r₁
  refine ⟨hfed.congr (alike_lowerWait nowTs) hbase hmax, ?_⟩
  dsimp only
  rw [hbase]
  exact hle

/-! ## Segments -/

/-- The first segment sets the base to the packet before its frame. -/
theorem Fed.start (h : r.Fed frames played) (hcut : Cut frames seg) :
    r.baseSeq.toNat ≤ (r.start seg).baseSeq.toNat ∧
      (r.start seg).baseSeq.toNat ≤ packetCount frames ∧
      ((r.start seg).maxSeq = 0 → r.maxSeq = 0 ∧ (r.start seg).baseSeq = 0) := by
  have hpacket := hcut.packetId_le
  have hlow := hcut.packetId_bounds.1
  rw [Receiver.start]
  split
  · rename_i hfirst
    obtain ⟨hzero, -, -⟩ := h.unused hfirst.1
    have hbase : (seg.packetId - seg.index.setWidth 32 - 1).toNat =
        seg.packetId.toNat - seg.index.toNat - 1 := by
      have hlt := seg.packetId.isLt
      have hone : (1 : BitVec 32).toNat = 1 := rfl
      simp only [BitVec.toNat_sub, BitVec.toNat_setWidth, hone]
      omega
    refine ⟨?_, ?_, fun hmax => ⟨hfirst.1, hmax⟩⟩
    · rw [hzero]
      exact Nat.zero_le _
    · dsimp only
      rw [hbase]
      omega
  · exact ⟨Nat.le_refl _, h.baseSeq, fun hmax => ⟨hmax, (h.unused hmax).1⟩⟩

/-- The cache is fed with one more segment. -/
theorem Fed.ordered_put (h : r.Fed frames played) (hcut : Cut frames seg)
    (hframes : frames.length < 2 ^ 31) (hfits : r.cache.Fits seg.fid) {cache : VideoCache}
    {taken : Bool} (hput : r.cache.put seg = .ok (cache, taken)) :
    ∃ es, (∀ seg, .put seg ∈ es → Cut frames seg) ∧ ∀ more,
      Playback.Ordered (frameTotal (frames ++ more)) es ⟨cache, played⟩ := by
  obtain ⟨es, hes, hordered⟩ := h.ordered
  refine ⟨es ++ [.put seg], ?_, fun more => ?_⟩
  · intro other hother
    rcases List.mem_append.mp hother with hold | hnew
    · exact hes other hold
    · obtain rfl := Playback.Input.put.inj (List.mem_singleton.mp hnew)
      exact hcut
  · have hcall : Playback.call Playback.unscaled ⟨r.cache, played⟩ (.put seg) =
        .ok ⟨cache, played⟩ := by
      rw [Playback.call, hput]
      rfl
    have hfid := hcut.fid_le
    refine (hordered more).put hcall ⟨hcut.index_lt, ?_, ?_, hcut.dataSize_le⟩ hfits
    · exact (hcut.mono (List.prefix_append _ _)).total_eq
    · omega

/-- The counters follow a segment that the cache has taken. -/
theorem Fed.follow (hcut : Cut frames seg)
    (hordered : ∃ es, (∀ seg, .put seg ∈ es → Cut frames seg) ∧ ∀ more,
      Playback.Ordered (frameTotal (frames ++ more)) es ⟨r.cache, played⟩)
    (hbase : r.baseSeq.toNat ≤ packetCount frames)
    (hseqs : r.cache.SeqsIn fun seq => seq.toNat ≤ packetCount frames)
    (hr' : r' = { r with
      baseSeq := if seg.packetId = r.baseSeq + 1 then seg.packetId else r.baseSeq
      maxSeq := suMax r.maxSeq seg.packetId }) :
    r'.Fed frames played ∧ r.baseSeq.toNat ≤ r'.baseSeq.toNat := by
  subst hr'
  have hpacket := hcut.packetId_le
  have hpos := hcut.packetId_bounds.1
  refine ⟨⟨hordered, ?_, hseqs, fun hunused => ?_⟩, ?_⟩
  · dsimp only
    split
    · exact hpacket
    · exact hbase
  · -- no packet has the number zero
    have hmax : suMax r.maxSeq seg.packetId = 0 := hunused
    rw [suMax] at hmax
    split at hmax
    · rename_i hlt
      rw [hmax, BitVec.lt_def] at hlt
      exact absurd hlt (Nat.not_lt_zero _)
    · rw [hmax] at hpos
      exact absurd hpos (Nat.not_lt_zero _)
  · dsimp only
    split
    · rename_i heq
      have hsum := congrArg BitVec.toNat heq
      have hone : (1 : BitVec 32).toNat = 1 := rfl
      have hlt := r.baseSeq.isLt
      rw [BitVec.toNat_add, hone] at hsum
      omega
    · exact Nat.le_refl _

theorem Fed.put (h : r.Fed frames played) (hcut : Cut frames seg)
    (hframes : frames.length < 2 ^ 31) (hfits : r.cache.Fits seg.fid)
    {ack : Option SegmentAck} (hcall : r.put clock seg = .ok (r', ack)) :
    r'.Fed frames played ∧ r.baseSeq.toNat ≤ r'.baseSeq.toNat := by
  obtain ⟨hup, hbase, hstart⟩ := h.start hcut
  have hpacket := hcut.packetId_le
  have hpos := hcut.packetId_bounds.1
  have hresult := put_result clock r seg
  rw [hcall] at hresult
  generalize hout : (Except.ok (r', ack) : Except Fault _) = out at hresult
  cases hresult with
  | ignored =>
      obtain ⟨rfl, -⟩ := Prod.mk.inj (Except.ok.inj hout)
      exact ⟨h, Nat.le_refl _⟩
  | fault => cases hout
  | endless => cases hout
  | @rejected r₁ cache _ hloss hput =>
      obtain ⟨rfl, -⟩ := Prod.mk.inj (Except.ok.inj hout)
      rw [updateLoss_eq hloss]
      refine ⟨⟨h.ordered_put hcut hframes hfits hput, hbase, h.seqs.put hcut.frameEnd_le hput,
        fun hunused => ?_⟩, hup⟩
      obtain ⟨hmax, hzero⟩ := hstart hunused
      obtain ⟨-, hidle, hplayed⟩ := h.unused hmax
      refine ⟨hzero, ?_, hplayed⟩
      rw [hidle.put hput]
      exact hidle
  | @taken r₁ cache result _ hloss hput htaken =>
      obtain rfl := Except.ok.inj hout
      rw [Receiver.taken, updateLoss_eq hloss] at htaken
      have hfollow := @Fed.follow frames seg { r.start seg with loss := r₁.loss, cache } _ played
        hcut (h.ordered_put hcut hframes hfits hput) hbase (h.seqs.put hcut.frameEnd_le hput) rfl
      obtain ⟨hfed, hle⟩ := hfollow.1.videoRealAck htaken
      exact ⟨hfed, Nat.le_trans hup (Nat.le_trans hfollow.2 hle)⟩

/-! ## Playing -/

/-- Segments with their pieces claim no more bytes than the pieces have. -/
theorem sum_dataSize_le {segments : List (Option SimSegment)} {pieces : List (List UInt8)}
    (h : ∀ (k : Nat) (seg : SimSegment), segments[k]? = some (some seg) →
      ∃ piece, pieces[k]? = some piece ∧ seg.dataSize.toNat ≤ piece.length) :
    ((segments.filterMap id).map (·.dataSize.toNat)).sum ≤ pieces.flatten.length := by
  induction segments generalizing pieces with
  | nil => exact Nat.zero_le _
  | cons first rest ih =>
      have hrest := @ih pieces.tail fun k seg hk => by
        rw [List.getElem?_tail]
        exact h (k + 1) seg hk
      have hlen : pieces.flatten.length =
          (pieces.headD []).length + pieces.tail.flatten.length := by
        cases pieces <;> simp
      rw [hlen]
      cases first with
      | none =>
          rw [List.filterMap_cons_none rfl]
          omega
      | some seg =>
          obtain ⟨piece, hpiece, hle⟩ := h 0 seg rfl
          have hfilter : (some seg :: rest).filterMap id = seg :: rest.filterMap id := rfl
          rw [hfilter, List.map_cons, List.sum_cons]
          have hhead : pieces.headD [] = piece := by
            rw [List.headD_eq_head?_getD, List.head?_eq_getElem?, hpiece]
            rfl
          rw [hhead]
          exact Nat.add_le_add hle hrest

/-- A buffer with room for every frame that was given has room for every frame of the cache. -/
theorem Fed.room (h : r.Fed frames played) {bufferSize : Nat}
    (hroom : ∀ data ∈ frames, data.length ≤ bufferSize) (slot : Fin cacheSize) :
    (r.cache.frames slot).bytes ≤ bufferSize := by
  obtain ⟨es, hes, hordered⟩ := h.ordered
  have hframes := hordered []
  rw [List.append_nil] at hframes
  by_cases hheld : r.cache.Holds slot
  · have hfilled := hframes.filled slot hheld
    have hpieces : ∀ (k : Nat) (seg : SimSegment),
        (r.cache.frames slot).segments[k]? = some (some seg) →
        ∃ piece, (framePieces (frames.getD ((r.cache.frames slot).fid.toNat - 1) []))[k]? =
          some piece ∧ seg.dataSize.toNat ≤ piece.length := by
      intro k seg hk
      obtain ⟨hput, hfid, rfl⟩ := hfilled.own k seg hk
      have hcut := hes seg hput
      obtain ⟨data, hdata⟩ := hcut.exists_frame
      have hpos := hcut.fid_pos
      have hsize := hcut.dataSize_le
      refine ⟨payload seg, ?_, ?_⟩
      · rw [← hfid, List.getD_eq_getElem?_getD, hdata]
        exact hcut.piece_eq (by omega) hdata
      · simp [payload, hsize]
    refine Nat.le_trans (sum_dataSize_le hpieces) ?_
    rw [flatten_framePieces, List.getD_eq_getElem?_getD]
    cases hdata : frames[(r.cache.frames slot).fid.toNat - 1]? with
    | none => exact Nat.zero_le _
    | some data => exact hroom data (List.mem_of_getElem? hdata)
  · have hempty : (r.cache.frames slot).segments = [] :=
      List.eq_nil_of_length_eq_zero (Nat.eq_zero_of_not_pos hheld)
    rw [Frame.bytes, hempty]
    exact Nat.zero_le _

theorem Fed.get (h : r.Fed frames played) {scaled : Speed → BitVec 64 → BitVec 32}
    {now : BitVec 64} {bufferSize : Nat} {out : Option VideoCache.Delivery}
    (hroom : ∀ slot, (r.cache.frames slot).bytes ≤ bufferSize)
    (hcall : r.get scaled now bufferSize = .ok (r', out)) :
    r'.Fed frames (played ++ out.toList) ∧ r'.baseSeq = r.baseSeq := by
  rw [Receiver.get] at hcall
  split at hcall
  · obtain ⟨⟨cache, delivery⟩, hget, hresult⟩ := map_eq_ok hcall
    obtain ⟨rfl, rfl⟩ := Prod.mk.inj hresult
    obtain ⟨es, hes, hordered⟩ := h.ordered
    refine ⟨⟨⟨es ++ [.get now bufferSize], ?_, fun more => ?_⟩, h.baseSeq,
      VideoCache.stable_seqsIn.get h.seqs hget, fun hunused => ?_⟩, rfl⟩
    · intro seg hseg
      rcases List.mem_append.mp hseg with hold | hnew
      · exact hes seg hold
      · cases List.mem_singleton.mp hnew
    · have hplay : Playback.call scaled ⟨r.cache, played⟩ (.get now bufferSize) =
          .ok ⟨cache, played ++ delivery.toList⟩ := by
        rw [Playback.call, hget]
        rfl
      exact (hordered more).get hplay hroom
    · obtain ⟨hzero, hidle, hplayed⟩ := h.unused hunused
      refine ⟨hzero, VideoCache.stable_idle.get hidle hget, ?_⟩
      -- nothing is held that could be played
      have hplays := ((hordered []).window.get hget).plays
      cases delivery with
      | none => rw [hplayed]; rfl
      | some d =>
          obtain ⟨slot, hheld, -⟩ := (hplays d rfl).frame
          exact absurd hheld (hidle.empty slot)
  · obtain ⟨rfl, rfl⟩ := Prod.mk.inj (Except.ok.inj hcall)
    rw [Option.toList_none, List.append_nil]
    exact ⟨h, rfl⟩

end Receiver

end SimTransport

end Razor
