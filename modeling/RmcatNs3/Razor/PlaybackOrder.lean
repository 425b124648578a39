import Mathlib.Algebra.Ring.Nat
import RmcatNs3.Lib.Runs
import RmcatNs3.Razor.CacheWindow

/-!
# The order of playback

Segments come in any order, and `real_video_cache_get` asks for the next frame at any time.
As long as the eviction for a new frame brings the window up to it, the frames come out with
rising ids and with their own bytes. It does not always: the search for a key frame stops at
the newest frame and at the first key frame, also if they are too old for the ring. The frame
behind `min_fid` then shares its slot with a later one, which a key frame lets it stand in
for.
-/

namespace Razor

namespace SimTransport

open CountedLoop Runs SimProto

/-- The bytes that a segment carries. -/
def payload (seg : SimSegment) : List UInt8 := seg.data.toList.take seg.dataSize.toNat

/-- The bytes that the segments of a frame claim to carry. -/
def Frame.bytes (frame : Frame) : Nat :=
  ((frame.segments.filterMap id).map (·.dataSize.toNat)).sum

/-- A video cache and what has been played from it. -/
structure Playback where
  cache : VideoCache
  played : List VideoCache.Delivery

namespace Playback

def new (rtt rttVar : BitVec 32) : Playback := ⟨.new rtt rttVar, []⟩

/-- A segment that comes in, or a call for the next frame. -/
inductive Input where
  | put (seg : SimSegment)
  | get (now : BitVec 64) (bufferSize : Nat)

def call (scaled : Speed → BitVec 64 → BitVec 32) (p : Playback) : Input → Except Fault Playback
  | .put seg => (p.cache.put seg).map fun r => { p with cache := r.1 }
  | .get now bufferSize => (p.cache.get scaled now bufferSize).map fun r =>
      ⟨r.1, p.played ++ r.2.toList⟩

/-- The segments of a frame agree on their number, and the buffer has room for every frame
of the cache. -/
def Input.Sound (total : BitVec 32 → BitVec 16) (c : VideoCache) : Input → Prop
  | .put seg => seg.index < seg.total ∧ seg.total = total seg.fid ∧ seg.fid.toNat < 2 ^ 31 ∧
      seg.dataSize.toNat ≤ simVideoSize
  | .get _ bufferSize => ∀ slot, (c.frames slot).bytes ≤ bufferSize

/-- The window can follow the input. -/
def Input.Fits (c : VideoCache) : Input → Prop
  | .put seg => c.Fits seg.fid
  | .get _ _ => True

instance (total : BitVec 32 → BitVec 16) (c : VideoCache) :
    (e : Input) → Decidable (e.Sound total c)
  | .put _ => inferInstanceAs (Decidable (_ ∧ _ ∧ _ ∧ _))
  | .get _ _ => inferInstanceAs (Decidable (∀ _, _))

instance (c : VideoCache) : (e : Input) → Decidable (e.Fits c)
  | .put seg => inferInstanceAs (Decidable (c.Fits seg.fid))
  | .get _ _ => inferInstanceAs (Decidable True)

end Playback

/-- A frame with its own segments, one after the other. -/
def VideoCache.Delivery.Assembled (total : BitVec 32 → BitVec 16) (es : List Playback.Input)
    (d : VideoCache.Delivery) : Prop :=
  ∃ segs : List SimSegment, segs.length = (total d.fid).toNat ∧
    (∀ k seg, segs[k]? = some seg → .put seg ∈ es ∧ seg.fid = d.fid ∧ seg.index.toNat = k) ∧
    d.data = (segs.map payload).flatten

/-! ## Segments in their places -/

/-- The segments of a frame are its own, each in its place. -/
structure Frame.Filled (total : BitVec 32 → BitVec 16) (es : List Playback.Input)
    (frame : Frame) : Prop where
  size : frame.segNumber = (total frame.fid).toNat
  own : ∀ k seg, frame.segments[k]? = some (some seg) →
    .put seg ∈ es ∧ seg.fid = frame.fid ∧ seg.index.toNat = k

variable {total : BitVec 32 → BitVec 16} {es es' : List Playback.Input} {seg : SimSegment}

theorem Frame.Filled.mono {frame : Frame} (h : frame.Filled total es) (hle : es ⊆ es') :
    frame.Filled total es' :=
  ⟨h.size, fun k seg hk => ⟨hle (h.own k seg hk).1, (h.own k seg hk).2⟩⟩

theorem VideoCache.Delivery.Assembled.mono {d : VideoCache.Delivery} (h : d.Assembled total es)
    (hle : es ⊆ es') : d.Assembled total es' := by
  obtain ⟨segs, hlen, hown, hdata⟩ := h
  exact ⟨segs, hlen, fun k seg hk => ⟨hle (hown k seg hk).1, (hown k seg hk).2⟩, hdata⟩

/-- One more segment in its place. -/
theorem Frame.Filled.set {segments : List (Option SimSegment)} {ts ts' : BitVec 32}
    {frameType frameType' : BitVec 8}
    (h : Frame.Filled total es ⟨seg.fid, ts, frameType, segments⟩) (hseg : .put seg ∈ es) :
    Frame.Filled total es
      ⟨seg.fid, ts', frameType', segments.set seg.index.toNat (some seg)⟩ where
  size := (List.length_set ..).trans h.size
  own k other hk := by
    by_cases heq : seg.index.toNat = k
    · subst heq
      obtain ⟨_, hsome⟩ := List.getElem?_eq_some_iff.mp hk
      rw [List.getElem_set_self] at hsome
      obtain rfl := Option.some.inj hsome
      exact ⟨hseg, rfl, rfl⟩
    · rw [List.getElem?_set_ne heq] at hk
      exact h.own k other hk

theorem Frame.filled_replicate (fid ts : BitVec 32) (frameType : BitVec 8) :
    Frame.Filled total es ⟨fid, ts, frameType, List.replicate (total fid).toNat none⟩ where
  size := List.length_replicate
  own k seg hk := by
    rw [List.getElem?_replicate] at hk
    split at hk
    · cases Option.some.inj hk
    · cases hk

/-- The segments of a full frame. -/
theorem Frame.segments_of_isFull {frame : Frame} (h : frame.isFull = true) :
    0 < frame.segNumber ∧ frame.segments = (frame.segments.filterMap id).map some := by
  obtain ⟨hpos, hall⟩ := Bool.and_eq_true_iff.mp h
  refine ⟨of_decide_eq_true hpos, ?_⟩
  have hsome : ∀ seg ∈ frame.segments, seg.isSome = true := List.all_eq_true.mp hall
  generalize frame.segments = segments at hsome ⊢
  induction segments with
  | nil => rfl
  | cons seg rest ih =>
      obtain ⟨seg, rfl⟩ := Option.isSome_iff_exists.mp (hsome seg List.mem_cons_self)
      have hrest := ih fun seg hseg => hsome seg (List.mem_cons_of_mem _ hseg)
      exact congrArg (some seg :: ·) hrest

/-- With room for all of them, the segments are copied one after the other. -/
theorem VideoCache.copySegments_eq {bufferSize : Nat} {segs : List SimSegment}
    {out : List UInt8 × BitVec 8} (hsize : ∀ seg ∈ segs, seg.dataSize.toNat ≤ simVideoSize)
    (hroom : out.1.length + (segs.map (·.dataSize.toNat)).sum ≤ bufferSize) :
    (copySegments bufferSize segs out).1 = out.1 ++ (segs.map payload).flatten := by
  induction segs generalizing out with
  | nil => simp [copySegments]
  | cons seg rest ih =>
      have hseg := hsize seg List.mem_cons_self
      have hlen : (payload seg).length = seg.dataSize.toNat := by
        simpa [payload] using hseg
      rw [List.map_cons, List.sum_cons] at hroom
      rw [copySegments, if_pos ⟨by omega, hseg⟩, List.map_cons, List.flatten_cons,
        ← List.append_assoc]
      refine ih (fun seg hmem => hsize seg (List.mem_cons_of_mem _ hmem)) ?_
      have hout : (out.1 ++ payload seg).length = out.1.length + seg.dataSize.toNat := by
        rw [List.length_append, hlen]
      refine Nat.le_trans (Nat.le_of_eq (congrArg (· + _) hout)) ?_
      omega

/-! ## One call -/

namespace VideoCache

variable {c c' : VideoCache} {scaled : Speed → BitVec 64 → BitVec 32}

/-- A segment that is filed leaves the segments of its frame in their places. -/
theorem Admits.filled {c₁ : VideoCache} {segments : List (Option SimSegment)}
    (hadmits : c.Admits seg c₁)
    (hfilled : ∀ slot, c.Holds slot → (c.frames slot).Filled total es)
    (hseg : .put seg ∈ es) (htotal : seg.total = total seg.fid)
    (hfresh : ¬c₁.Holds (index seg.fid) →
      segments = (List.replicate seg.total.toNat none).set seg.index.toNat (some seg))
    (hfull : c₁.Holds (index seg.fid) → segments = (c₁.frames (index seg.fid)).segments ∨
      segments = (c₁.frames (index seg.fid)).segments.set seg.index.toNat (some seg)) :
    Frame.Filled total es ⟨seg.fid, seg.timestamp, seg.ftype, segments⟩ := by
  by_cases hheld : c₁.Holds (index seg.fid)
  · have hsame := hadmits.kept _ hheld
    have hown : (c₁.frames (index seg.fid)).Filled total es := by
      rw [hsame]
      refine hfilled _ ?_
      rwa [Holds, ← hsame]
    have heq := hadmits.window.fid_eq hadmits.above hadmits.below hheld
    generalize hold : c₁.frames (index seg.fid) = old at hown heq hfull
    obtain ⟨fid, ts, frameType, oldSegments⟩ := old
    obtain rfl : fid = seg.fid := heq
    rcases hfull hheld with rfl | rfl
    · exact ⟨hown.size, hown.own⟩
    · exact hown.set hseg
  · rw [hfresh hheld, htotal]
    exact (Frame.filled_replicate seg.fid 0 0).set hseg

/-- What `real_video_cache_put` keeps: the window, and the segments in their places. -/
theorem Window.put (hw : c.Window) {taken : Bool}
    (hfilled : ∀ slot, c.Holds slot → (c.frames slot).Filled total es)
    (hseg : .put seg ∈ es) (hsound : Playback.Input.Sound total c (.put seg))
    (hfits : c.Fits seg.fid) (h : c.put seg = .ok (c', taken)) :
    c'.Window ∧ c.minFid ≤ c'.minFid ∧
      ∀ slot, c'.Holds slot → (c'.frames slot).Filled total es := by
  obtain ⟨hindex, htotal, hfid, _⟩ := hsound
  rcases put_ok_cases h with rfl | ⟨c₁, hmin, hadvance, hfile⟩
  · exact ⟨hw, BitVec.le_refl _, hfilled⟩
  · have hadmits := hw.advance hmin hfid hfits hadvance
    obtain ⟨segments, rfl, hfresh, hfull⟩ := fileSegment_spec hfile
    have hframe := hadmits.filled hfilled hseg htotal hfresh hfull
    have hpos : 0 < Frame.segNumber ⟨seg.fid, seg.timestamp, seg.ftype, segments⟩ := by
      rw [hframe.size, ← htotal]
      exact Nat.lt_of_le_of_lt (Nat.zero_le _) (BitVec.lt_def.mp hindex)
    refine ⟨hadmits.window.setFrame hadmits.above hadmits.below hpos, hadmits.min_le, ?_⟩
    intro slot hslot
    by_cases hne : slot = index seg.fid
    · rw [hne, setFrame_self]
      exact hframe
    · rw [Holds, setFrame_of_ne hne] at hslot
      have hsame := hadmits.kept slot hslot
      rw [setFrame_of_ne hne, hsame]
      refine hfilled slot ?_
      rwa [Holds, ← hsame]

/-- A segment of a frame in the window has its place. -/
theorem Window.put_returns (hw : c.Window)
    (hfilled : ∀ slot, c.Holds slot → (c.frames slot).Filled total es)
    (hsound : Playback.Input.Sound total c (.put seg)) (hfits : c.Fits seg.fid) :
    ∃ r, c.put seg = .ok r := by
  obtain ⟨hindex, htotal, hfid, _⟩ := hsound
  rw [VideoCache.put, if_neg (BitVec.not_le.mpr hindex)]
  split
  · exact ⟨_, rfl⟩
  · rename_i hmin
    have hends : (c.advance seg).isSome := by
      rw [advance_isSome_iff]
      -- only an id of `2 ^ 32 - 1` keeps the first loop of the eviction from its end
      intro hall
      rw [hall.2.2] at hfid
      exact absurd hfid (by decide)
    obtain ⟨c₁, hadvance⟩ := Option.isSome_iff_exists.mp hends
    have hadmits := hw.advance (BitVec.not_le.mp hmin) hfid hfits hadvance
    rw [hadvance]
    by_cases hheld : c₁.Holds (index seg.fid)
    · have hsame := hadmits.kept _ hheld
      have hsize := (hfilled (index seg.fid) (by rwa [Holds, ← hsame])).size
      have heq := hadmits.window.fid_eq hadmits.above hadmits.below hheld
      rw [← hsame, heq, ← htotal] at hsize
      rcases fileSegment_of_holds hheld with ⟨hok, _⟩ | ⟨_, hle⟩
      · exact hok
      · rw [BitVec.lt_def] at hindex
        omega
    · exact fileSegment_of_not_holds hheld

/-- A frame that is played is the one behind `min_fid`. -/
structure Plays (bufferSize : Nat) (c : VideoCache) (d : Delivery) (c' : VideoCache) :
    Prop where
  next : c.minFid < d.fid
  behind : d.fid ≤ c'.minFid
  frame : ∃ slot, c.Holds slot ∧ (c.frames slot).fid = d.fid ∧
    (c.frames slot).isFull = true ∧
    d.data = (copySegments bufferSize ((c.frames slot).segments.filterMap id) ([], 0)).1

/-- A call that keeps the window and plays a frame of it, or none. -/
structure Continues (bufferSize : Nat) (c c' : VideoCache) (out : Option Delivery) : Prop where
  window : c'.Window
  evicts : c.Evicts c'
  plays : ∀ d ∈ out, Plays bufferSize c d c'

theorem Window.idle (hw : c.Window) (bufferSize : Nat) (halike : c.Alike c') :
    Continues bufferSize c c' none :=
  ⟨hw.alike halike, halike.evicts, fun _ hd => by cases hd⟩

/-- The slot behind `min_fid` holds the next frame. -/
theorem Window.next_fid (hw : c.Window) (hheld : c.Holds (index (c.minFid + 1))) :
    (c.frames (index (c.minFid + 1))).fid = c.minFid + 1 ∧
      (c.minFid + 1).toNat = c.minFid.toNat + 1 := by
  have habove := BitVec.lt_def.mp (hw.placed.above _ hheld)
  have hbelow := BitVec.le_def.mp (hw.placed.below _ hheld)
  have hsmall := hw.small
  have hsucc : (c.minFid + 1).toNat = c.minFid.toNat + 1 := toNat_add_one (by omega)
  refine ⟨hw.fid_eq ?_ ?_ hheld, hsucc⟩
  · rw [BitVec.lt_def]
    omega
  · rw [BitVec.le_def]
    omega

/-- The next frame is the oldest one. -/
theorem Window.next_oldest (hw : c.Window) (hheld : c.Holds (index (c.minFid + 1)))
    {other : Fin cacheSize} (hne : other ≠ index (c.minFid + 1)) (hother : c.Holds other) :
    (c.frames (index (c.minFid + 1))).fid < (c.frames other).fid := by
  obtain ⟨hfid, hsucc⟩ := hw.next_fid hheld
  have hlate := BitVec.lt_def.mp (hw.placed.above other hother)
  have hother_ne : (c.frames other).fid ≠ c.minFid + 1 := by
    intro heq
    refine hne ?_
    rw [← hw.placed.index_fid other hother, heq]
  have hnat : (c.frames other).fid.toNat ≠ (c.minFid + 1).toNat := fun h =>
    hother_ne (BitVec.eq_of_toNat_eq h)
  rw [hfid, BitVec.lt_def]
  omega

/-- The frame behind `min_fid` is played and cleaned. -/
theorem Window.plays (hw : c.Window) {c₁ : VideoCache} (halike : c.Alike c₁) {d : Delivery}
    {bufferSize : Nat} (hisFull : (c.frames (index (c.minFid + 1))).isFull = true)
    (hd : (c.frames (index (c.minFid + 1))).fid = d.fid)
    (hdata : d.data = (copySegments bufferSize
      ((c.frames (index (c.minFid + 1))).segments.filterMap id) ([], 0)).1) :
    Continues bufferSize c (c₁.clean (index (c.minFid + 1))) (some d) := by
  have hheld : c.Holds (index (c.minFid + 1)) := (Frame.segments_of_isFull hisFull).1
  have hheld₁ : c₁.Holds (index (c.minFid + 1)) := by rwa [Holds, halike.frames]
  have holdest : ∀ other, other ≠ index (c.minFid + 1) → c₁.Holds (index (c.minFid + 1)) →
      c₁.Holds other → (c₁.frames (index (c.minFid + 1))).fid < (c₁.frames other).fid := by
    intro other hne _ hother
    rw [Holds, halike.frames] at hother
    rw [halike.frames]
    exact hw.next_oldest hheld hne hother
  have hplaced := (hw.placed.alike halike).clean holdest
  have hevicts : c.Evicts (c₁.clean (index (c.minFid + 1))) :=
    halike.evicts.trans (hw.placed.alike halike).evicts_clean
  refine ⟨hw.evicts hplaced hevicts, hevicts, ?_⟩
  intro d' hd'
  obtain rfl := Option.mem_some_iff.mp hd'
  refine ⟨?_, ?_, _, hheld, hd, hisFull, hdata⟩
  · rw [← hd]
    exact hw.placed.above _ hheld
  · rw [clean_minFid hheld₁, halike.frames, hd]
    exact BitVec.le_refl _

/-- The end of `real_video_cache_get` keeps the window, and plays the next frame of it. -/
theorem Window.playFrame (hw : c.Window) {bufferSize : Nat} {out : Option Delivery}
    (h : c.playFrame bufferSize = .ok (c', out)) :
    Continues bufferSize c c' out := by
  simp only [VideoCache.playFrame] at h
  split at h
  · rename_i hready
    obtain ⟨_, hisFull⟩ := hready
    split at h
    · cases h
    · split at h
      · obtain ⟨rfl, rfl⟩ := Prod.mk.inj (Except.ok.inj h)
        exact hw.idle bufferSize ⟨rfl, rfl, rfl, rfl⟩
      · split at h
        · obtain ⟨rfl, rfl⟩ := Prod.mk.inj (Except.ok.inj h)
          refine hw.plays ?_ hisFull ?_ ?_
          · exact ⟨rfl, rfl, rfl, rfl⟩
          · rfl
          · rfl
        · obtain ⟨rfl, rfl⟩ := Prod.mk.inj (Except.ok.inj h)
          exact hw.idle bufferSize ⟨rfl, rfl, rfl, rfl⟩
  · obtain ⟨rfl, rfl⟩ := Prod.mk.inj (Except.ok.inj h)
    exact hw.idle bufferSize ⟨rfl, rfl, rfl, rfl⟩

theorem Continues.of_evicts {c₁ : VideoCache} {bufferSize : Nat} {out : Option Delivery}
    (hevicts : c.Evicts c₁) (h : Continues bufferSize c₁ c' out) :
    Continues bufferSize c c' out := by
  refine ⟨h.window, hevicts.trans h.evicts, ?_⟩
  intro d hd
  obtain ⟨hnext, hbehind, slot, hheld, hframe⟩ := h.plays d hd
  have hsame := hevicts.kept slot hheld
  rw [hsame] at hframe
  refine ⟨Nat.lt_of_le_of_lt hevicts.min_le hnext, hbehind, slot, ?_, hframe⟩
  rwa [Holds, ← hsame]

/-- **What `real_video_cache_get` does**: it keeps the window, and plays the next frame
of it or none. -/
theorem Window.get (hw : c.Window) {now : BitVec 64} {bufferSize : Nat} {out : Option Delivery}
    (h : c.get scaled now bufferSize = .ok (c', out)) :
    Continues bufferSize c c' out := by
  rcases get_cases scaled c now bufferSize with ⟨c₁, halike, hidle⟩ | ⟨c₁, c₂, halike, hgop, hplay⟩
  · rw [hidle] at h
    obtain ⟨rfl, rfl⟩ := Prod.mk.inj (Except.ok.inj h)
    exact hw.idle bufferSize halike
  · obtain ⟨hw₂, hevicts⟩ := (hw.alike halike).evictLate hgop
    rw [hplay] at h
    exact .of_evicts (halike.evicts.trans hevicts) (hw₂.playFrame h)

theorem Window.readyMs_isSome (hw : c.Window) : c.readyMs.isSome := by
  refine VideoCache.readyMs_isSome fun hmax => ?_
  have hsmall := hw.small
  rw [hmax] at hsmall
  exact absurd hsmall (by decide)

theorem Window.playFrame_returns (hw : c.Window) (bufferSize : Nat) :
    ∃ r, c.playFrame bufferSize = .ok r := by
  obtain ⟨playReadyTs, hready⟩ := Option.isSome_iff_exists.mp hw.readyMs_isSome
  simp only [VideoCache.playFrame, hready]
  split
  · split
    · exact ⟨_, rfl⟩
    · split <;> exact ⟨_, rfl⟩
  · exact ⟨_, rfl⟩

theorem Window.get_returns (hw : c.Window) (scaled : Speed → BitVec 64 → BitVec 32)
    (now : BitVec 64) (bufferSize : Nat) :
    ∃ r, c.get scaled now bufferSize = .ok r := by
  rcases get_cases scaled c now bufferSize with ⟨c₁, _, hidle⟩ | ⟨c₁, c₂, halike, hgop, hplay⟩
  · exact ⟨_, hidle⟩
  · rw [hplay]
    exact ((hw.alike halike).evictLate hgop).1.playFrame_returns bufferSize

end VideoCache

/-! ## Runs -/

namespace Playback

variable {scaled : Speed → BitVec 64 → BitVec 32} {p p' : Playback}

/-- What holds as long as the window follows. -/
structure Ordered (total : BitVec 32 → BitVec 16) (es : List Input) (p : Playback) : Prop where
  window : p.cache.Window
  filled : ∀ slot, p.cache.Holds slot → (p.cache.frames slot).Filled total es
  small : ∀ seg, .put seg ∈ es → seg.dataSize.toNat ≤ simVideoSize
  increasing : p.played.Pairwise (·.fid < ·.fid)
  behind : ∀ d ∈ p.played, d.fid ≤ p.cache.minFid
  assembled : ∀ d ∈ p.played, d.Assembled total es

theorem ordered_new (rtt rttVar : BitVec 32) : Ordered total [] (.new rtt rttVar) where
  window := by
    have hnone : ∀ slot, ¬(VideoCache.new rtt rttVar).Holds slot :=
      fun slot hslot => Nat.lt_irrefl 0 hslot
    have htype : (0 : BitVec 8) ≠ 1 := by decide
    refine ⟨⟨fun slot hslot => absurd hslot (hnone slot),
      fun slot hslot => absurd hslot (hnone slot), fun slot hslot => absurd hslot (hnone slot),
      fun slot _ => htype⟩, BitVec.le_refl _, ?_, ?_⟩
    · exact Nat.zero_le _
    · exact Nat.two_pow_pos 31
  filled slot hslot := absurd hslot (Nat.lt_irrefl 0)
  small seg hseg := by cases hseg
  increasing := List.Pairwise.nil
  behind d hd := by cases hd
  assembled d hd := by cases hd

theorem call_put {seg : SimSegment} (h : p.call scaled (.put seg) = .ok p') :
    ∃ taken, p.cache.put seg = .ok (p'.cache, taken) ∧ p'.played = p.played := by
  obtain ⟨r, hput, rfl⟩ := map_eq_ok h
  exact ⟨r.2, hput, rfl⟩

theorem call_get {now : BitVec 64} {bufferSize : Nat}
    (h : p.call scaled (.get now bufferSize) = .ok p') :
    ∃ out, p.cache.get scaled now bufferSize = .ok (p'.cache, out) ∧
      p'.played = p.played ++ out.toList := by
  obtain ⟨r, hget, rfl⟩ := map_eq_ok h
  exact ⟨r.2, hget, rfl⟩

theorem Ordered.put (h : Ordered total es p) {seg : SimSegment}
    (hcall : p.call scaled (.put seg) = .ok p')
    (hsound : Input.Sound total p.cache (.put seg)) (hfits : p.cache.Fits seg.fid) :
    Ordered total (es ++ [.put seg]) p' := by
  have hle : es ⊆ es ++ [.put seg] := List.subset_append_left es _
  obtain ⟨taken, hput, hplayed⟩ := call_put hcall
  obtain ⟨hwindow, hmin, hfilled⟩ := h.window.put
    (fun slot hslot => (h.filled slot hslot).mono hle) List.mem_concat_self hsound hfits hput
  refine ⟨hwindow, hfilled, ?_, ?_, ?_, ?_⟩
  · intro other hother
    rcases List.mem_append.mp hother with hold | hnew
    · exact h.small other hold
    · obtain rfl := Input.put.inj (List.mem_singleton.mp hnew)
      exact hsound.2.2.2
  · rw [hplayed]
    exact h.increasing
  · rw [hplayed]
    exact fun d hd => BitVec.le_trans (h.behind d hd) hmin
  · rw [hplayed]
    exact fun d hd => (h.assembled d hd).mono hle

/-- A full frame of the cache is played with its own bytes. -/
theorem Ordered.assembles (h : Ordered total es p) {slot : Fin cacheSize} {bufferSize : Nat}
    {d : VideoCache.Delivery} (hroom : (p.cache.frames slot).bytes ≤ bufferSize)
    (hheld : p.cache.Holds slot) (hfid : (p.cache.frames slot).fid = d.fid)
    (hisFull : (p.cache.frames slot).isFull = true)
    (hdata : d.data = (VideoCache.copySegments bufferSize
      ((p.cache.frames slot).segments.filterMap id) ([], 0)).1) : d.Assembled total es := by
  have hfilled := h.filled slot hheld
  obtain ⟨_, hsegments⟩ := Frame.segments_of_isFull hisFull
  have hown : ∀ k seg, ((p.cache.frames slot).segments.filterMap id)[k]? = some seg →
      .put seg ∈ es ∧ seg.fid = d.fid ∧ seg.index.toNat = k := by
    intro k seg hk
    rw [← hfid]
    refine hfilled.own k seg ?_
    rw [hsegments, List.getElem?_map, hk]
    rfl
  refine ⟨(p.cache.frames slot).segments.filterMap id, ?_, hown, ?_⟩
  · rw [← hfid, ← hfilled.size, Frame.segNumber]
    conv_rhs => rw [hsegments]
    exact (List.length_map some).symm
  · have hsize : ∀ seg ∈ (p.cache.frames slot).segments.filterMap id,
        seg.dataSize.toNat ≤ simVideoSize := by
      intro seg hseg
      obtain ⟨k, hk⟩ := List.mem_iff_getElem?.mp hseg
      exact h.small seg (hown k seg hk).1
    rw [hdata]
    exact VideoCache.copySegments_eq hsize (by rw [List.length_nil, Nat.zero_add]; exact hroom)

theorem Ordered.get (h : Ordered total es p) {now : BitVec 64} {bufferSize : Nat}
    (hcall : p.call scaled (.get now bufferSize) = .ok p')
    (hsound : Input.Sound total p.cache (.get now bufferSize)) :
    Ordered total (es ++ [.get now bufferSize]) p' := by
  have hle : es ⊆ es ++ [.get now bufferSize] := List.subset_append_left es _
  obtain ⟨out, hget, hplayed⟩ := call_get hcall
  obtain ⟨hwindow, hevicts, hplays⟩ := h.window.get hget
  refine ⟨hwindow, ?_, ?_, ?_, ?_, ?_⟩
  · intro slot hslot
    have hsame := hevicts.kept slot hslot
    rw [hsame]
    refine (h.filled slot ?_).mono hle
    rwa [VideoCache.Holds, ← hsame]
  · intro seg hseg
    rcases List.mem_append.mp hseg with hold | hnew
    · exact h.small seg hold
    · cases List.mem_singleton.mp hnew
  · -- what was played is at or below `min_fid`, and what is played now is above it
    rw [hplayed, List.pairwise_append]
    refine ⟨h.increasing, ?_, ?_⟩
    · cases out with
      | none => exact List.Pairwise.nil
      | some d => exact List.pairwise_singleton _ d
    · intro d hd d' hd'
      exact Nat.lt_of_le_of_lt (h.behind d hd) (hplays d' (Option.mem_toList.mp hd')).next
  · intro d hd
    rw [hplayed] at hd
    rcases List.mem_append.mp hd with hold | hnew
    · exact BitVec.le_trans (h.behind d hold) hevicts.min_le
    · exact (hplays d (Option.mem_toList.mp hnew)).behind
  · intro d hd
    rw [hplayed] at hd
    rcases List.mem_append.mp hd with hold | hnew
    · exact (h.assembled d hold).mono hle
    · obtain ⟨slot, hheld, hfid, hisFull, hdata⟩ := (hplays d (Option.mem_toList.mp hnew)).frame
      exact (h.assembles (hsound slot) hheld hfid hisFull hdata).mono hle

/-- No call with a sound input comes to a fault. -/
theorem Ordered.returns (h : Ordered total es p) {e : Input} (hsound : e.Sound total p.cache)
    (hfits : e.Fits p.cache) : ∃ p', p.call scaled e = .ok p' := by
  cases e with
  | put seg =>
      have hput : ∃ r, p.cache.put seg = .ok r := h.window.put_returns h.filled hsound hfits
      obtain ⟨r, hr⟩ := hput
      exact ⟨_, by rw [call, hr]; rfl⟩
  | get now bufferSize =>
      obtain ⟨r, hr⟩ := h.window.get_returns scaled now bufferSize
      exact ⟨_, by rw [call, hr]; rfl⟩

/-- A call with a sound input. -/
def SoundStep (scaled : Speed → BitVec 64 → BitVec 32) (total : BitVec 32 → BitVec 16)
    (p : Playback) (e : Input) (p' : Playback) : Prop :=
  p.call scaled e = .ok p' ∧ e.Sound total p.cache

/-- The window can follow the input of the call. -/
def FittingStep (scaled : Speed → BitVec 64 → BitVec 32) (total : BitVec 32 → BitVec 16)
    (p : Playback) (e : Input) (p' : Playback) : Prop :=
  SoundStep scaled total p e p' ∧ e.Fits p.cache

theorem ordered_of_run {rtt rttVar : BitVec 32}
    (h : Run (FittingStep scaled total) (.new rtt rttVar) es p) : Ordered total es p := by
  refine h.invariant (ordered_new rtt rttVar) ?_
  intro es p e p' _ hordered hstep
  obtain ⟨⟨hcall, hsound⟩, hfits⟩ := hstep
  cases e with
  | put seg => exact hordered.put hcall hsound hfits
  | get now bufferSize => exact hordered.get hcall hsound

/-- **Frames are played in order**: in every run whose eviction always brings the window up
to the new frame, the ids of the frames that are played rise, each frame has the bytes of
its own segments, and the next such call returns. -/
theorem played_inOrder_of_run {rtt rttVar : BitVec 32}
    (h : Run (FittingStep scaled total) (.new rtt rttVar) es p) :
    p.played.Pairwise (·.fid < ·.fid) ∧ (∀ d ∈ p.played, d.Assembled total es) ∧
      ∀ e : Input, e.Sound total p.cache → e.Fits p.cache → ∃ p', p.call scaled e = .ok p' :=
  ⟨(ordered_of_run h).increasing, (ordered_of_run h).assembled,
    fun _ hsound hfits => (ordered_of_run h).returns hsound hfits⟩

/-- A segment with one byte. -/
def videoSegment (fid timestamp : BitVec 32) (ftype : BitVec 8) (index total : BitVec 16)
    (byte : UInt8) : SimSegment where
  packetId := fid
  fid := fid
  timestamp := timestamp
  index := index
  total := total
  ftype := ftype
  payloadType := 0
  remb := 0
  sendTs := 0
  transportSeq := 0
  dataSize := 1
  data := Vector.replicate simVideoSize byte

/-- The product of a time with the speed one. -/
def unscaled (_ : Speed) (elapsed : BitVec 64) : BitVec 32 := elapsed.setWidth 32

/-- The segments of the first frame in the wrong order, one of them twice, and a third frame
before the second. -/
def reorderedFrames : List Input :=
  [.put (videoSegment 1 100 1 1 2 11), .put (videoSegment 1 100 1 0 2 10),
    .put (videoSegment 1 100 1 1 2 11), .put (videoSegment 3 300 0 0 1 30),
    .put (videoSegment 2 140 0 0 1 20), .get 1 8, .get 400 8, .get 500 8]

/-- The first frame has two segments, every other one has one. -/
def reorderedTotal (fid : BitVec 32) : BitVec 16 := if fid = 1 then 2 else 1

theorem played_inOrder_reorderedFrames :
    ∃ p, Run (FittingStep unscaled reorderedTotal) (.new 10 10) reorderedFrames p ∧
      p.played.map (·.fid) = [1, 2] ∧ p.played.Pairwise (·.fid < ·.fid) ∧
      (∀ d ∈ p.played, d.Assembled reorderedTotal reorderedFrames) ∧
      ∀ e : Input, e.Sound reorderedTotal p.cache → e.Fits p.cache →
        ∃ p', p.call unscaled e = .ok p' := by
  have hlast : (reorderedFrames.foldlM (fun p e =>
      if Input.Sound reorderedTotal p.cache e ∧ Input.Fits p.cache e then
        (call unscaled p e).toOption else none) (new 10 10)).map (fun p => p.played.map (·.fid)) =
          some [1, 2] := by
    decide +kernel
  obtain ⟨p, hp, hplayed⟩ := Option.map_eq_some_iff.mp hlast
  have hrun : Run (FittingStep unscaled reorderedTotal) (.new 10 10) reorderedFrames p :=
    (Run.of_foldlM_guarded hp).mono fun p e p' hstep =>
      ⟨⟨ok_of_toOption hstep.1, hstep.2.1⟩, hstep.2.2⟩
  exact ⟨p, hrun, hplayed, played_inOrder_of_run hrun⟩

/-- The first frame is cleaned when frame 1030 comes, and the search stops at the key frame
300: `min_fid` stays at 1. Frame 1026 gets the slot of frame 2, and is played first. Frame
1031 then cleans frame 7, which brings `min_fid` back to it. -/
def staleFrames : List Input :=
  [.put (videoSegment 1 0 1 0 1 1), .put (videoSegment 300 100 1 0 1 2),
    .put (videoSegment 600 200 0 0 1 3), .put (videoSegment 900 300 0 0 1 4),
    .put (videoSegment 1030 1000 0 0 1 5), .put (videoSegment 7 500 0 0 1 6),
    .put (videoSegment 8 600 1 0 1 7), .put (videoSegment 1026 900 1 0 1 8), .get 1 8,
    .get 5000 8, .put (videoSegment 1031 1100 0 0 1 9), .get 5001 8, .get 6000 8]

/-- Frame 8 is played after frame 1026. -/
theorem not_inOrder_staleFrames :
    ∃ p, Run (SoundStep unscaled fun _ => 1) (.new 10 10) staleFrames p ∧
      p.played.map (·.fid) = [1026, 8] ∧ ¬p.played.Pairwise (·.fid < ·.fid) := by
  have hlast : (staleFrames.foldlM (fun p e =>
      if Input.Sound (fun _ => 1) p.cache e then (call unscaled p e).toOption else none)
        (new 10 10)).map (fun p => p.played.map (·.fid)) = some [1026, 8] := by
    decide +kernel
  obtain ⟨p, hp, hplayed⟩ := Option.map_eq_some_iff.mp hlast
  have hrun : Run (SoundStep unscaled fun _ => 1) (.new 10 10) staleFrames p :=
    (Run.of_foldlM_guarded hp).mono fun p e p' hstep => ⟨ok_of_toOption hstep.1, hstep.2⟩
  have hnot : ¬[(1026 : BitVec 32), 8].Pairwise (· < ·) := by decide
  refine ⟨p, hrun, hplayed, fun hpairwise => hnot ?_⟩
  rw [← hplayed, List.pairwise_map]
  exact hpairwise

end Playback

end SimTransport

end Razor
