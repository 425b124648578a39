import RmcatNs3.Razor.VideoCache

/-!
# The loops of the video cache

Most loops of the cache are tested with `<`, which ends them at any counters. Two are tested
with `<=`: the first one of `real_video_evict_frame`, against the id of the new frame, and
the one of `real_video_ready_ms`, against `max_fid`.
-/

namespace Razor

namespace SimTransport

open CountedLoop SimProto

namespace VideoCache

variable {c : VideoCache}

theorem findKey_isSome (c : VideoCache) (i : BitVec 32) : (c.findKey i).isSome := by
  rw [findKey, Option.isSome_map]
  exact forLoop_isSome_of_lt
    (fun _ _ hmore => of_decide_eq_true (Bool.and_eq_true_iff.mp hmore).1) i ()

theorem cleanWhile_lt_isSome (c : VideoCache) (i pos : BitVec 32) :
    (c.cleanWhile (fun i => decide (i < pos)) i).isSome := by
  rw [cleanWhile, Option.isSome_map]
  exact forLoop_isSome_of_lt (fun i _ hmore => of_decide_eq_true hmore) i c

theorem cleanWhile_le_isSome_iff {i fid : BitVec 32} :
    (c.cleanWhile (fun i => decide (i ≤ fid)) i).isSome ↔
      fid < i ∨ fid ≠ BitVec.allOnes 32 := by
  rw [cleanWhile, Option.isSome_map]
  exact forLoop_le_isSome_iff

/-- The first loop of `real_video_evict_frame` decides whether it returns. -/
theorem evictFrame_isSome_iff {fid : BitVec 32} :
    (c.evictFrame fid).isSome ↔ fid < c.maxFid + 1 ∨ fid ≠ BitVec.allOnes 32 := by
  rw [← cleanWhile_le_isSome_iff (c := c), evictFrame]
  cases hfirst : c.cleanWhile (fun pos => decide (pos ≤ fid)) (c.maxFid + 1) with
  | none => simp
  | some c₁ =>
      refine iff_of_true ?_ rfl
      rw [Option.bind_eq_bind, Option.bind_some]
      split
      · rfl
      · obtain ⟨pos, hpos⟩ := Option.isSome_iff_exists.mp (c₁.findKey_isSome (c₁.minFid + 1))
        rw [hpos, Option.bind_eq_bind, Option.bind_some]
        exact c₁.cleanWhile_lt_isSome _ pos

theorem evictGopFrame_isSome (c : VideoCache) : c.evictGopFrame.isSome := by
  obtain ⟨i, hi⟩ := Option.isSome_iff_exists.mp (c.findKey_isSome (c.minFid + 2))
  rw [evictGopFrame, hi, Option.bind_eq_bind, Option.bind_some]
  generalize (if i < c.maxFid then i else 0) = keyFrameId
  dsimp only
  split
  · rfl
  · rw [Option.isSome_map]
    exact forLoop_isSome_of_lt (fun i _ hmore => of_decide_eq_true hmore) _ c

theorem advance_isSome_iff {seg : SimSegment} : (c.advance seg).isSome ↔
    ¬(0 < c.maxFid ∧ c.maxFid < seg.fid ∧ seg.fid = BitVec.allOnes 32) := by
  rw [advance]
  split
  · rename_i habove
    have hsucc := toNat_succ_of_lt habove
    rw [Option.isSome_map, makeRoom]
    split
    · rename_i hpos
      have hbegins : ¬seg.fid < c.maxFid + 1 := by
        rw [BitVec.lt_def] at habove ⊢
        omega
      rw [evictFrame_isSome_iff]
      constructor
      · exact fun hor hall => hor.resolve_left hbegins hall.2.2
      · exact fun hnot => .inr fun heq => hnot ⟨hpos, habove, heq⟩
    · rename_i hpos
      have hsome : (if c.minFid = 0 then
          some { c with minFid := seg.fid - 1, playFrameTs := seg.timestamp } else
          some c).isSome := by
        split <;> rfl
      exact iff_of_true hsome fun hall => hpos hall.1
  · rename_i habove
    exact iff_of_true rfl fun hall => habove hall.2.1

theorem readyMs_isSome (hmax : c.maxFid ≠ BitVec.allOnes 32) : c.readyMs.isSome := by
  rw [readyMs]
  have hends : (forLoop (fun i (_ : BitVec 32 × BitVec 32) =>
      decide (i ≤ c.maxFid) && (c.frames (index i)).isFull)
      (fun i ready =>
        (if ready.1 = 0 then (c.frames (index i)).ts else ready.1, (c.frames (index i)).ts))
      (c.minFid + 1) (0, 0)).isSome :=
    forLoop_isSome_of_lt (fun i _ hmore =>
      (le_iff_lt_succ hmax).mp (of_decide_eq_true (Bool.and_eq_true_iff.mp hmore).1)) _ _
  obtain ⟨r, hr⟩ := Option.isSome_iff_exists.mp hends
  rw [hr]
  rfl

end VideoCache

end SimTransport

end Razor
