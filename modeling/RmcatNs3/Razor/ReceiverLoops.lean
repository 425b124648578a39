import RmcatNs3.Razor.CacheBounds

/-!
# The loops of the receiver

The loops of `evict_gop_frame` and `sim_receiver_update_loss` are tested with `<`, and end
from any state. The first loop of `real_video_evict_frame` and the one of `video_real_ack`
are tested with `<=`, against the id of a new frame and against `min_seq`. A frame id comes
from the wire; `min_seq` is the last packet id of a frame that has been cleaned, which is
computed from three numbers of the wire.
-/

namespace Razor

namespace SimTransport

open CountedLoop Runs SimProto

namespace VideoCache

/-! ## The packet ids of the cache -/

/-- `min_seq`, and what it may become, is not the largest packet id. -/
structure EndsBelow (c : VideoCache) : Prop where
  minSeq : c.minSeq ≠ BitVec.allOnes 32
  frameEnd : ∀ slot seg, some seg ∈ (c.frames slot).segments →
    frameEnd seg ≠ BitVec.allOnes 32

variable {c c' : VideoCache} {seg : SimSegment}

/-- The cleaned frame sets `min_seq` to the end of one of its segments. -/
theorem foldl_minSeq_ne {segments : List (Option SimSegment)} {minSeq : BitVec 32}
    (hmin : minSeq ≠ BitVec.allOnes 32)
    (hends : ∀ seg, some seg ∈ segments → SimTransport.frameEnd seg ≠ BitVec.allOnes 32) :
    segments.foldl (fun minSeq seg => (seg.map SimTransport.frameEnd).getD minSeq) minSeq ≠
      BitVec.allOnes 32 := by
  induction segments generalizing minSeq with
  | nil => exact hmin
  | cons first rest ih =>
      refine ih ?_ fun seg hseg => hends seg (List.mem_cons_of_mem _ hseg)
      cases first with
      | none => exact hmin
      | some seg => exact hends seg List.mem_cons_self

theorem stable_endsBelow : Stable EndsBelow where
  alike c c' h hc := by
    refine ⟨?_, ?_⟩
    · rw [h.minSeq]
      exact hc.minSeq
    · rw [h.frames]
      exact hc.frameEnd
  clean c slot hc := by
    by_cases hheld : c.Holds slot
    · refine ⟨?_, ?_⟩
      · rw [clean, if_neg (Nat.pos_iff_ne_zero.mp hheld)]
        exact foldl_minSeq_ne hc.minSeq (hc.frameEnd slot)
      · intro other seg hseg
        by_cases hne : other = slot
        · subst hne
          rw [clean_frames_self hheld] at hseg
          cases hseg
        · rw [clean_frames_of_ne hne] at hseg
          exact hc.frameEnd other seg hseg
    · rwa [clean_of_not_holds hheld]

theorem EndsBelow.reset (clock : Clock) (c : VideoCache) : (c.reset clock).EndsBelow := by
  have hzero : (0 : BitVec 32) ≠ BitVec.allOnes 32 := by decide
  refine ⟨hzero, fun slot seg hseg => ?_⟩
  have hempty : ¬(c.reset clock).Holds slot := by
    rw [VideoCache.reset, holds_restart]
    exact not_holds_cleanAll
  exact absurd (List.length_pos_of_mem hseg) hempty

/-- Room is made for a frame above `max_fid`. -/
theorem EndsBelow.advance (hc : c.EndsBelow) (h : c.advance seg = some c') : c'.EndsBelow := by
  rw [VideoCache.advance] at h
  split at h
  · obtain ⟨c₁, hroom, rfl⟩ := Option.map_eq_some_iff.mp h
    rw [makeRoom] at hroom
    have hc₁ : c₁.EndsBelow := by
      split at hroom
      · exact stable_endsBelow.evictFrame hc hroom
      · split at hroom
        · obtain rfl := Option.some.inj hroom
          exact ⟨hc.minSeq, hc.frameEnd⟩
        · obtain rfl := Option.some.inj hroom
          exact hc
    exact ⟨hc₁.minSeq, hc₁.frameEnd⟩
  · obtain rfl := Option.some.inj h
    exact hc

theorem EndsBelow.put (hc : c.EndsBelow) (hseg : SimTransport.frameEnd seg ≠ BitVec.allOnes 32)
    {taken : Bool} (h : c.put seg = .ok (c', taken)) : c'.EndsBelow := by
  rcases put_ok_cases h with rfl | ⟨c₁, _, hadvance, hfile⟩
  · exact hc
  · have hc₁ := hc.advance hadvance
    obtain ⟨segments, rfl, hmem⟩ := mem_of_fileSegment hfile
    refine ⟨hc₁.minSeq, ?_⟩
    intro slot other hother
    by_cases hne : slot = index seg.fid
    · rw [hne, setFrame_self] at hother
      rcases hmem other hother with rfl | hold
      · exact hseg
      · exact hc₁.frameEnd _ other hold
    · rw [setFrame_of_ne hne] at hother
      exact hc₁.frameEnd slot other hother

theorem fileSegment_ne_endless : c.fileSegment seg ≠ .error .endless := by
  intro hendless
  by_cases hheld : c.Holds (index seg.fid)
  · rcases fileSegment_of_holds hheld with ⟨⟨r, hr⟩, _⟩ | ⟨hbounds, _⟩
    · rw [hr] at hendless
      cases hendless
    · rw [hbounds] at hendless
      cases hendless
  · obtain ⟨r, hr⟩ := fileSegment_of_not_holds hheld
    rw [hr] at hendless
    cases hendless

/-- **The loops of `real_video_cache_put`** end unless the largest frame id comes above a
frame. -/
theorem put_endless_iff : c.put seg = .error .endless ↔
    seg.index < seg.total ∧ c.minFid < seg.fid ∧ 0 < c.maxFid ∧ c.maxFid < seg.fid ∧
      seg.fid = BitVec.allOnes 32 := by
  have hok : ∀ {r : VideoCache × Bool}, (Except.ok r : Except Fault _) ≠ .error .endless :=
    fun h => by cases h
  rw [VideoCache.put]
  by_cases hindex : seg.total ≤ seg.index
  · rw [if_pos hindex]
    exact iff_of_false (fun h => by cases h) fun h => BitVec.not_lt.mpr hindex h.1
  · rw [if_neg hindex]
    have hlt := BitVec.not_le.mp hindex
    by_cases hmin : seg.fid ≤ c.minFid
    · rw [if_pos hmin]
      exact iff_of_false hok fun h => BitVec.not_lt.mpr hmin h.2.1
    · rw [if_neg hmin]
      have habove := BitVec.not_le.mp hmin
      cases hadvance : c.advance seg with
      | none =>
          have hends : ¬(c.advance seg).isSome := by simp [hadvance]
          rw [advance_isSome_iff, not_not] at hends
          exact iff_of_true rfl ⟨hlt, habove, hends⟩
      | some c₁ =>
          have hends : (c.advance seg).isSome := by simp [hadvance]
          rw [advance_isSome_iff] at hends
          exact iff_of_false fileSegment_ne_endless fun h => hends h.2.2

end VideoCache

namespace Receiver

variable {scaled : Speed → BitVec 64 → BitVec 32} {clock : Clock} {r r' : Receiver}

/-! ## The loops of one call -/

/-- **The loop of `video_real_ack`** ends unless `min_seq` is the largest packet id. -/
theorem advanceBase_isSome_iff : r.advanceBase.isSome ↔
    ¬(r.baseSeq < r.cache.minSeq ∧ r.cache.minSeq = BitVec.allOnes 32) := by
  rw [advanceBase]
  split
  · rename_i hlt
    rw [Option.isSome_map, forLoop_le_isSome_iff]
    have hbegins : ¬r.cache.minSeq < r.baseSeq + 1 := by
      rw [BitVec.lt_def, toNat_succ_of_lt hlt]
      rw [BitVec.lt_def] at hlt
      omega
    rw [or_iff_right hbegins]
    exact not_congr (and_iff_right hlt).symm
  · rename_i hnot
    exact iff_of_true rfl fun h => hnot h.1

theorem videoRealAck_isSome_iff {hb : Bool} {seq : BitVec 32} :
    (r.videoRealAck clock hb seq).isSome ↔ ¬(r.ackDue clock hb = true ∧
      r.baseSeq < r.cache.minSeq ∧ r.cache.minSeq = BitVec.allOnes 32) := by
  rw [videoRealAck]
  split
  · rename_i hdue
    rw [and_iff_right hdue, ← advanceBase_isSome_iff]
    cases r.advanceBase with
    | none => rfl
    | some r₁ => exact iff_of_true rfl rfl
  · rename_i hdue
    exact iff_of_true rfl fun h => hdue h.1

theorem timer_isSome_iff {nowTs : BitVec 64} : (r.timer clock nowTs).isSome ↔
    ¬(r.ackDue clock true = true ∧ r.baseSeq < r.cache.minSeq ∧
      r.cache.minSeq = BitVec.allOnes 32) := by
  rw [timer, Option.isSome_map, videoRealAck_isSome_iff]

/-- The largest frame id comes above a frame. -/
def TopFrame (r : Receiver) (seg : SimSegment) : Prop :=
  r.ignores seg = false ∧ seg.index < seg.total ∧ r.cache.minFid < seg.fid ∧
    0 < r.cache.maxFid ∧ r.cache.maxFid < seg.fid ∧ seg.fid = BitVec.allOnes 32

/-- A fault of the cache is one of `sim_receiver_put`. -/
theorem put_of_cache_error {seg : SimSegment} {fault : Fault} (hignores : r.ignores seg = false)
    (hput : r.cache.put seg = .error fault) : r.put clock seg = .error fault := by
  have hresult := put_result clock r seg
  generalize r.put clock seg = result at hresult
  cases hresult with
  | ignored h => exact absurd (hignores.symm.trans h) Bool.false_ne_true
  | fault _ h => exact congrArg _ (Except.error.inj (h.symm.trans hput))
  | rejected _ _ h => cases h.symm.trans hput
  | endless _ h => cases h.symm.trans hput
  | taken _ _ h => cases h.symm.trans hput

theorem topFrame_iff {seg : SimSegment} :
    r.TopFrame seg ↔ r.ignores seg = false ∧ r.cache.put seg = .error .endless := by
  rw [TopFrame, VideoCache.put_endless_iff]

/-- The loops of `sim_receiver_put`, with a cache whose packet ids stay below the largest
one. -/
theorem put_endless_iff (hc : r.cache.EndsBelow) {seg : SimSegment}
    (hseg : r.ignores seg = true ∨ frameEnd seg ≠ BitVec.allOnes 32) :
    r.put clock seg = .error .endless ↔ r.TopFrame seg := by
  rw [topFrame_iff]
  have hresult := put_result clock r seg
  generalize r.put clock seg = result at hresult
  cases hresult with
  | ignored hignores =>
      rw [hignores]
      exact iff_of_false (fun h => by cases h) fun h => absurd h.1 (by decide)
  | fault hignores hput =>
      rw [hput, and_iff_right hignores]
      simp
  | rejected _ _ hput =>
      rw [hput]
      exact iff_of_false (fun h => by cases h) fun h => by cases h.2
  | @endless r₁ cache hignores hput htaken =>
      -- an ack loop without end needs a `min_seq` that no frame of this cache can set
      have hc' := hc.put (hseg.resolve_left (by rw [hignores]; decide)) hput
      have hends : ({ r₁ with cache }.taken clock seg.packetId).isSome :=
        videoRealAck_isSome_iff.mpr fun h => hc'.minSeq h.2.2
      rw [htaken] at hends
      cases hends
  | taken _ _ hput =>
      rw [hput]
      exact iff_of_false (fun h => by cases h) fun h => by cases h.2

/-! ## Runs -/

/-- The frames of the segments do not end with the largest packet id. -/
def Input.EndsBelow (r : Receiver) : Input → Prop
  | .put _ seg => r.ignores seg = true ∨ frameEnd seg ≠ BitVec.allOnes 32
  | _ => True

instance (r : Receiver) : (e : Input) → Decidable (e.EndsBelow r)
  | .put _ _ => inferInstanceAs (Decidable (_ ∨ _))
  | .get _ _ | .timer _ _ | .active _ _ | .reset _ => inferInstanceAs (Decidable True)

/-- The loops of a call end: those of `sim_receiver_update_loss`, `real_video_evict_frame` and
`video_real_ack` in `sim_receiver_put`, the one of `video_real_ack` in the timer, and those of
`evict_gop_frame` when a frame is asked for. -/
def LoopsEnd (r : Receiver) : Input → Prop
  | .put clock seg => r.put clock seg ≠ .error .endless
  | .timer clock nowTs => (r.timer clock nowTs).isSome
  | .get _ _ => ∀ c, r.cache.Alike c → c.evictGopFrame.isSome
  | _ => True

/-- The largest frame id does not come above a frame. -/
def Input.NoTopFrame (r : Receiver) : Input → Prop
  | .put _ seg => ¬r.TopFrame seg
  | _ => True

theorem loopsEnd_iff (hc : r.cache.EndsBelow) {e : Input} (he : e.EndsBelow r) :
    r.LoopsEnd e ↔ e.NoTopFrame r := by
  cases e with
  | put clock seg => exact not_congr (put_endless_iff hc he)
  | get now bufferSize => exact iff_of_true (fun c _ => c.evictGopFrame_isSome) trivial
  | timer clock nowTs => exact iff_of_true (timer_isSome_iff.mpr fun h => hc.minSeq h.2.2) trivial
  | active uid clock => exact Iff.rfl
  | reset clock => exact Iff.rfl

theorem endsBelow_of_step {e : Input} (hc : r.cache.EndsBelow) (h : Step scaled r e r')
    (he : e.EndsBelow r) : r'.cache.EndsBelow := by
  refine stable_step VideoCache.stable_endsBelow hc ?_ (fun clock => .reset clock r.cache) h
  rintro clock seg c taken rfl hignores hfiled
  have hseg : frameEnd seg ≠ BitVec.allOnes 32 :=
    he.resolve_left (by rw [hignores]; decide)
  exact hc.put hseg hfiled

/-- **The loops of the receiver end**: in every state that is reached with no frame that ends
with the largest packet id, those of a call with such a frame end exactly if the largest
frame id does not come above a frame. -/
theorem loops_end_iff_of_run {start : Clock} {es : List Input}
    (h : Run (fun r e r' => Step scaled r e r' ∧ e.EndsBelow r) (.new start) es r) (e : Input)
    (he : e.EndsBelow r) : r.LoopsEnd e ↔ e.NoTopFrame r := by
  have hnew : (new start).cache.EndsBelow := by
    have hzero : (0 : BitVec 32) ≠ BitVec.allOnes 32 := by decide
    refine ⟨hzero, fun slot seg hseg => ?_⟩
    cases hseg
  have hends : r.cache.EndsBelow := h.stateInvariant (I := fun r => r.cache.EndsBelow) hnew
    fun _ _ _ hc hstep => endsBelow_of_step hc hstep.1 hstep.2
  exact loopsEnd_iff hends he

/-- A segment of another frame. -/
def segmentFrom (fid timestamp packetId : BitVec 32) (total : BitVec 16) : SimSegment :=
  { segmentOf packetId 0 total with fid, timestamp }

/-- After the first segment, one of the next frame. -/
theorem loops_end_nextFrame :
    ∃ r, Run (fun r e r' => Step (fun _ elapsed => elapsed.setWidth 32) r e r' ∧ e.EndsBelow r)
        (.new ⟨0, 10, 10⟩) firstSegment r ∧
      r.cache.maxFid = 1 ∧ r.LoopsEnd (.put ⟨40, 10, 10⟩ (segmentFrom 2 40 5 1)) := by
  have hlast : (firstSegment.foldlM (fun r e => if Input.EndsBelow r e then
      step? (fun _ elapsed => elapsed.setWidth 32) r e else none) (new ⟨0, 10, 10⟩)).map
        (fun r => r.cache.maxFid) = some 1 := by
    decide +kernel
  obtain ⟨r, hr, hmax⟩ := Option.map_eq_some_iff.mp hlast
  have hrun : Run (fun r e r' => Step (fun _ elapsed => elapsed.setWidth 32) r e r' ∧
      e.EndsBelow r) (.new ⟨0, 10, 10⟩) firstSegment r :=
    (Run.of_foldlM_guarded hr).mono fun _ _ _ hstep => ⟨step_of_step? hstep.1, hstep.2⟩
  have hend : frameEnd (segmentFrom 2 40 5 1) ≠ BitVec.allOnes 32 := by decide
  have hfid : (segmentFrom 2 40 5 1).fid ≠ BitVec.allOnes 32 := by decide
  have hiff := loops_end_iff_of_run hrun (.put ⟨40, 10, 10⟩ (segmentFrom 2 40 5 1)) (.inr hend)
  exact ⟨r, hrun, hmax, hiff.mpr fun htop => hfid htop.2.2.2.2.2⟩

/-- The first of four segments of a frame that ends with the largest packet id, a later key
frame, one more, and a call that evicts the first frame. -/
def topPacket : List Input :=
  [.active 0 ⟨1, 10, 10⟩, .put ⟨2, 10, 10⟩ (segmentFrom 1 0 0xfffffffc 4),
    .put ⟨3, 10, 10⟩ (segmentFrom 3 6000 0xfffffffe 1),
    .put ⟨4, 10, 10⟩ (segmentFrom 4 6040 0xfffffffe 1), .get 5 100]

/-- Two loops that do not end: the one of the eviction for the largest frame id, and the one of
an ack that moves the base up to the largest packet id. -/
theorem not_loops_end :
    (∃ r, Run (Step fun _ elapsed => elapsed.setWidth 32) (.new ⟨0, 10, 10⟩) firstSegment r ∧
      ¬Ends (fun pos _ => decide (pos ≤ 0xffffffff))
        (fun pos (c : VideoCache) => c.clean (index pos)) (r.cache.maxFid + 1) r.cache ∧
      ¬r.LoopsEnd (.put ⟨3, 10, 10⟩ (segmentFrom 0xffffffff 40 5 1))) ∧
    ∃ r, Run (Step fun _ elapsed => elapsed.setWidth 32) (.new ⟨0, 10, 10⟩) topPacket r ∧
      ¬Ends (fun key _ => decide (key ≤ r.cache.minSeq))
        (fun key (loss : SortedMap Nat SimLoss) => loss.erase key.toNat) (r.baseSeq + 1) r.loss ∧
      ¬r.LoopsEnd (.timer ⟨300, 10, 10⟩ 300) := by
  have hfirst : (firstSegment.foldlM (step? fun _ elapsed => elapsed.setWidth 32)
      (new ⟨0, 10, 10⟩)).map (fun r => (r.ignores (segmentFrom 0xffffffff 40 5 1),
        r.cache.minFid, r.cache.maxFid)) = some (false, 0, 1) := by
    decide +kernel
  have hlast : (topPacket.foldlM (step? fun _ elapsed => elapsed.setWidth 32)
      (new ⟨0, 10, 10⟩)).map (fun r => (r.ackDue ⟨300, 10, 10⟩ true, r.baseSeq,
        r.cache.minSeq)) = some (true, 0xfffffffc, 0xffffffff) := by
    decide +kernel
  constructor
  · obtain ⟨r, hr, hview⟩ := Option.map_eq_some_iff.mp hfirst
    simp only [Prod.mk.injEq] at hview
    obtain ⟨hignores, hmin, hmax⟩ := hview
    refine ⟨r, run_of_foldlM hr, ?_, fun hends => hends ?_⟩
    · rw [ends_le_iff, hmax]
      decide
    · refine put_of_cache_error hignores (VideoCache.put_endless_iff.mpr ?_)
      rw [hmin, hmax]
      decide
  · obtain ⟨r, hr, hview⟩ := Option.map_eq_some_iff.mp hlast
    simp only [Prod.mk.injEq] at hview
    obtain ⟨hdue, hbase, hmin⟩ := hview
    refine ⟨r, run_of_foldlM hr, ?_, fun hends => ?_⟩
    · rw [ends_le_iff, hbase, hmin]
      decide
    · refine timer_isSome_iff.mp hends ⟨hdue, ?_⟩
      rw [hbase, hmin]
      decide

end Receiver

end SimTransport

end Razor
