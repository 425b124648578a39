import Mathlib.Logic.Function.Basic
import RmcatNs3.Lib.CountedLoop
import RmcatNs3.Razor.SimProto

/-!
# The video cache of the receiver

The cache of `sim_transport/sim_receiver.c`: frames that are put together from segments wait
in a ring of `CACHE_SIZE` slots until they are played. A frame is found under its id modulo
the size, so a slot may hold another frame than the one that is looked for. All counters are
32 bits wide and wrap as they do there. A call comes to a `Fault` where the source fails an
assertion, leaves the segments of a frame, or loops without end. The product of a time with
the playback speed, a `float`, is a parameter.
-/

namespace Razor

namespace SimTransport

open CountedLoop SimProto

/-- `CACHE_SIZE`. -/
def cacheSize : Nat := 1024

/-- `MAX_VIDEO_DELAY_MS`. -/
def maxVideoDelayMs : BitVec 32 := 5000

/-- `SU_MAX`. -/
def suMax (a b : BitVec 32) : BitVec 32 := if b < a then a else b

/-- What a call comes to instead of returning. -/
inductive Fault where
  | assertion
  | bounds
  | endless
  deriving DecidableEq, Repr

theorem map_eq_ok {α β : Type} {f : α → β} {x : Except Fault α} {b : β}
    (h : x.map f = .ok b) : ∃ a, x = .ok a ∧ f a = b := by
  cases x with
  | error fault => cases h
  | ok a => exact ⟨a, rfl, Except.ok.inj h⟩

/-- `sim_frame_t`. Its segments were allocated for `seg_number`. -/
structure Frame where
  fid : BitVec 32
  ts : BitVec 32
  frameType : BitVec 8
  segments : List (Option SimSegment)

namespace Frame

/-- A frame of an array that `calloc` made. -/
def empty : Frame := ⟨0, 0, 0, []⟩

def segNumber (frame : Frame) : Nat := frame.segments.length

/-- `real_video_cache_check_frame_full`. -/
def isFull (frame : Frame) : Bool :=
  decide (0 < frame.segNumber) && frame.segments.all (·.isSome)

end Frame

/-- The last packet id of the frame of a segment. -/
def frameEnd (seg : SimSegment) : BitVec 32 :=
  seg.packetId - seg.index.setWidth 32 + seg.total.setWidth 32 - 1

/-- The values of the `float` `f`: `1.0f`, `0.6f`, `1.2f` and `1.6f`. -/
inductive Speed where
  | normal
  | slow
  | fast
  | faster
  deriving DecidableEq, Repr

/-- `sim_frame_cache_t`. -/
structure VideoCache where
  minSeq : BitVec 32
  minFid : BitVec 32
  maxFid : BitVec 32
  playFrameTs : BitVec 32
  maxTs : BitVec 32
  frameTs : BitVec 32
  playTs : BitVec 64
  frameTimer : BitVec 32
  waitTimer : BitVec 32
  playing : Bool
  f : Speed
  frames : Fin cacheSize → Frame

/-- `INDEX`. -/
def index (i : BitVec 32) : Fin cacheSize := ⟨i.toNat % cacheSize, Nat.mod_lt _ (by decide)⟩

namespace VideoCache

/-- `open_real_video_cache`, for these estimates of the session. -/
def new (rtt rttVar : BitVec 32) : VideoCache where
  minSeq := 0
  minFid := 0
  maxFid := 0
  playFrameTs := 0
  maxTs := 0
  frameTs := 0
  playTs := 0
  frameTimer := 100
  waitTimer := rtt + 2 * rttVar
  playing := false
  f := .normal
  frames := fun _ => .empty

def setFrame (c : VideoCache) (slot : Fin cacheSize) (frame : Frame) : VideoCache :=
  { c with frames := Function.update c.frames slot frame }

/-! ## Eviction -/

/-- `real_video_clean_frame`. -/
def clean (c : VideoCache) (slot : Fin cacheSize) : VideoCache :=
  let frame := c.frames slot
  if frame.segNumber = 0 then c
  else
    { c.setFrame slot { frame with ts := 0, frameType := 0, segments := [] } with
      minSeq := frame.segments.foldl
        (fun minSeq seg => (seg.map frameEnd).getD minSeq) c.minSeq
      playFrameTs := frame.ts
      minFid := frame.fid }

/-- The loops that clean the frames of some counters. -/
def cleanWhile (more : BitVec 32 → Bool) (i : BitVec 32) (c : VideoCache) :
    Option VideoCache :=
  (forLoop (fun i _ => more i) (fun i (c : VideoCache) => c.clean (index i)) i c).map (·.2)

/-- The loops that look for a key frame before `max_fid`. -/
def findKey (c : VideoCache) (i : BitVec 32) : Option (BitVec 32) :=
  (forLoop (fun i _ => decide (i < c.maxFid) && decide ((c.frames (index i)).frameType ≠ 1))
    (fun _ => id) i ()).map (·.1)

/-- `real_video_evict_frame`. -/
def evictFrame (c : VideoCache) (fid : BitVec 32) : Option VideoCache := do
  let c ← c.cleanWhile (fun pos => decide (pos ≤ fid)) (c.maxFid + 1)
  if fid < c.minFid + BitVec.ofNat 32 cacheSize then some c
  else do
    let pos ← c.findKey (c.minFid + 1)
    c.cleanWhile (fun i => decide (i < pos)) (c.minFid + 1)

/-- `evict_gop_frame`. -/
def evictGopFrame (c : VideoCache) : Option VideoCache := do
  let i ← c.findKey (c.minFid + 2)
  let keyFrameId := if i < c.maxFid then i else 0
  if keyFrameId = 0 then some c
  else
    (forLoop (fun i _ => decide (i < keyFrameId))
      (fun i (c : VideoCache) =>
        { c with frameTs := (c.frames (index i)).ts }.clean (index i)) (c.minFid + 1) c).map (·.2)

/-! ## Segments -/

/-- The time between two frames, kept between 20 and 200. -/
def frameInterval (c : VideoCache) (seg : SimSegment) : BitVec 32 :=
  let interval := (seg.timestamp - c.maxTs) / (seg.fid - c.maxFid)
  if interval < 20 then 20 else if 200 < interval then 200 else interval

/-- The room that `real_video_cache_put` makes for a frame above `max_fid`. -/
def makeRoom (c : VideoCache) (seg : SimSegment) : Option VideoCache :=
  if 0 < c.maxFid then c.evictFrame seg.fid
  else if c.minFid = 0 then
    some { c with minFid := seg.fid - 1, playFrameTs := seg.timestamp }
  else some c

/-- The counters and the timer follow a frame above `max_fid`. -/
def follow (c : VideoCache) (seg : SimSegment) : VideoCache :=
  { c with
    frameTimer := if c.maxFid < seg.fid ∧ c.maxTs < seg.timestamp then c.frameInterval seg
      else c.frameTimer
    maxTs := seg.timestamp
    maxFid := seg.fid }

/-- The part of `real_video_cache_put` for a frame above `max_fid`. -/
def advance (c : VideoCache) (seg : SimSegment) : Option VideoCache :=
  if c.maxFid < seg.fid then (c.makeRoom seg).map (·.follow seg) else some c

/-- The end of `real_video_cache_put`, and whether the segment was taken. -/
def fileSegment (c : VideoCache) (seg : SimSegment) : Except Fault (VideoCache × Bool) :=
  let slot := index seg.fid
  let frame := { c.frames slot with
    fid := seg.fid, frameType := seg.ftype, ts := seg.timestamp }
  if frame.segNumber = 0 then
    let segments := (List.replicate seg.total.toNat none).set seg.index.toNat (some seg)
    .ok (c.setFrame slot { frame with segments }, true)
  else
    match frame.segments[seg.index.toNat]? with
    | none => .error .bounds
    | some none =>
        let segments := frame.segments.set seg.index.toNat (some seg)
        .ok (c.setFrame slot { frame with segments }, true)
    | some (some _) => .ok (c.setFrame slot frame, false)

/-- `real_video_cache_put`, and whether it returned zero. -/
def put (c : VideoCache) (seg : SimSegment) : Except Fault (VideoCache × Bool) :=
  if seg.total ≤ seg.index then .error .assertion
  else if seg.fid ≤ c.minFid then .ok (c, false)
  else
    match c.advance seg with
    | none => .error .endless
    | some c => c.fileSegment seg

/-! ## Playing -/

def space (c : VideoCache) : BitVec 32 := suMax c.waitTimer c.frameTimer

/-- `real_video_cache_check_playing`. -/
def checkPlaying (c : VideoCache) (now : BitVec 64) : VideoCache :=
  if c.minFid < c.maxFid ∧ c.playFrameTs + c.space ≤ c.maxTs ∧ c.minFid + 1 ≤ c.maxFid then
    { c with
      playing := true
      playTs := now
      frameTs := c.maxTs - c.frameTimer * (c.maxFid - c.minFid - 1) }
  else c

/-- The playback speed for the time in the cache. -/
def speed (c : VideoCache) : Speed :=
  if c.maxTs < c.playFrameTs + c.space then .slow
  else if c.playFrameTs + c.space * 2 < c.maxTs then .faster
  else if c.playFrameTs + c.space * 3 / 2 < c.maxTs then .fast
  else .normal

/-- `real_video_cache_sync_timestamp`, with the product `elapsed * f`. -/
def syncTimestamp (scaled : Speed → BitVec 64 → BitVec 32) (c : VideoCache)
    (now : BitVec 64) : VideoCache :=
  if c.playTs < now then
    { c with frameTs := scaled c.f (now - c.playTs) + c.frameTs, playTs := now }
  else c

/-- `real_video_ready_ms`. -/
def readyMs (c : VideoCache) : Option (BitVec 32) := do
  let (_, minReadyTs, maxReadyTs) ← forLoop
    (fun i _ => decide (i ≤ c.maxFid) && (c.frames (index i)).isFull)
    (fun i (ready : BitVec 32 × BitVec 32) =>
      let ts := (c.frames (index i)).ts
      (if ready.1 = 0 then ts else ready.1, ts)) (c.minFid + 1) (0, 0)
  some (if 0 < minReadyTs then maxReadyTs - minReadyTs + c.frameTimer else 0)

/-- The loop of `real_video_cache_get` that copies the segments of a full frame. -/
def copySegments (bufferSize : Nat) :
    List SimSegment → List UInt8 × BitVec 8 → List UInt8 × BitVec 8
  | [], out => out
  | seg :: rest, out =>
      if out.1.length + seg.dataSize.toNat ≤ bufferSize ∧ seg.dataSize.toNat ≤ simVideoSize then
        copySegments bufferSize rest
          (out.1 ++ seg.data.toList.take seg.dataSize.toNat, seg.payloadType)
      else ([], out.2)

/-- A frame that `real_video_cache_get` returns. -/
structure Delivery where
  fid : BitVec 32
  data : List UInt8
  payloadType : BitVec 8
  deriving DecidableEq, Repr

/-- The end of `real_video_cache_get`, for the frame in the slot behind `min_fid`. -/
def playFrame (c : VideoCache) (bufferSize : Nat) :
    Except Fault (VideoCache × Option Delivery) :=
  let slot := index (c.minFid + 1)
  let frame := c.frames slot
  if (c.minFid + 1 = frame.fid ∨ frame.frameType = 1) ∧ frame.isFull = true then
    match c.readyMs with
    | none => .error .endless
    | some playReadyTs =>
        if c.frameTs + 2 * c.space < frame.ts ∧ c.space < playReadyTs then
          .ok ({ c with frameTs := frame.ts - c.space }, none)
        else if frame.ts ≤ c.frameTs then
          -- every segment of a full frame is there
          let out := copySegments bufferSize (frame.segments.filterMap id) ([], 0)
          let c := { c with
            frameTs := if c.space < playReadyTs then frame.ts + 2 else frame.ts
            playFrameTs := frame.ts }
          .ok (c.clean slot, some ⟨frame.fid, out.1, out.2⟩)
        else .ok (c, none)
  else .ok (c, none)

/-- `real_video_cache_get`: the frame, if it returned zero. -/
def get (scaled : Speed → BitVec 64 → BitVec 32) (c : VideoCache) (now : BitVec 64)
    (bufferSize : Nat) : Except Fault (VideoCache × Option Delivery) :=
  let c := if c.playing then c else c.checkPlaying now
  if c.playing = false ∨ c.minFid = c.maxFid then .ok (c, none)
  else
    let c := { c with f := c.speed }.syncTimestamp scaled now
    match (if c.playFrameTs + suMax maxVideoDelayMs (4 * c.waitTimer) < c.maxTs then
        c.evictGopFrame else some c) with
    | none => .error .endless
    | some c => c.playFrame bufferSize

end VideoCache

end SimTransport

end Razor
