import RmcatNs3.Razor.CacheLoops

/-!
# The window of the video cache

While no counter of a frame is more than the size of the ring above `min_fid`, a slot holds the
frame that is looked for in it or none. The loops that clean frames keep the order of the
frames that they leave: each of them goes up from a counter below which nothing is held, so
what it cleans next is the oldest frame of all.
-/

namespace Razor

namespace SimTransport

open CountedLoop SimProto

theorem index_eq_iff {i j : BitVec 32} :
    index i = index j ↔ i.toNat % cacheSize = j.toNat % cacheSize :=
  Fin.mk.injEq .. ▸ Iff.rfl

namespace VideoCache

/-- The slot has a frame with segments. -/
def Holds (c : VideoCache) (slot : Fin cacheSize) : Prop := 0 < (c.frames slot).segNumber

instance (c : VideoCache) (slot : Fin cacheSize) : Decidable (c.Holds slot) :=
  inferInstanceAs (Decidable (0 < _))

/-- Every frame is in its slot, between the counters, and a slot without one has no
frame type. -/
structure Placed (c : VideoCache) : Prop where
  index_fid : ∀ slot, c.Holds slot → index (c.frames slot).fid = slot
  above : ∀ slot, c.Holds slot → c.minFid < (c.frames slot).fid
  below : ∀ slot, c.Holds slot → (c.frames slot).fid ≤ c.maxFid
  cleared : ∀ slot, ¬c.Holds slot → (c.frames slot).frameType ≠ 1

/-- Two caches with the same frames between the same counters. -/
structure Alike (c c' : VideoCache) : Prop where
  frames : c'.frames = c.frames
  minSeq : c'.minSeq = c.minSeq
  minFid : c'.minFid = c.minFid
  maxFid : c'.maxFid = c.maxFid

/-- Frames have only left the cache, and those that did are at or below `min_fid`. -/
structure Evicts (c c' : VideoCache) : Prop where
  maxFid_eq : c'.maxFid = c.maxFid
  min_le : c.minFid ≤ c'.minFid
  min_or : c'.minFid = c.minFid ∨ c'.minFid ≤ c.maxFid
  kept : ∀ slot, c'.Holds slot → c'.frames slot = c.frames slot
  gone : ∀ slot, c.Holds slot → c'.Holds slot ∨ (c.frames slot).fid ≤ c'.minFid

/-- A higher `max_fid` leaves every frame where it is. -/
theorem Placed.raise {c c' : VideoCache} (hp : c.Placed) (hframes : c'.frames = c.frames)
    (hmin : c'.minFid = c.minFid) (hmax : c.maxFid ≤ c'.maxFid) : c'.Placed where
  index_fid slot hslot := by
    rw [Holds, hframes] at hslot
    rw [hframes]
    exact hp.index_fid slot hslot
  above slot hslot := by
    rw [Holds, hframes] at hslot
    rw [hframes, hmin]
    exact hp.above slot hslot
  below slot hslot := by
    rw [Holds, hframes] at hslot
    rw [hframes]
    exact BitVec.le_trans (hp.below slot hslot) hmax
  cleared slot hslot := by
    rw [Holds, hframes] at hslot
    rw [hframes]
    exact hp.cleared slot hslot

theorem Placed.alike {c c' : VideoCache} (hp : c.Placed) (h : c.Alike c') : c'.Placed :=
  hp.raise h.frames h.minFid (by rw [h.maxFid]; exact BitVec.le_refl _)

theorem Alike.evicts {c c' : VideoCache} (h : c.Alike c') : c.Evicts c' where
  maxFid_eq := h.maxFid
  min_le := by rw [h.minFid]; exact BitVec.le_refl _
  min_or := .inl h.minFid
  kept slot _ := by rw [h.frames]
  gone slot hslot := .inl (by rwa [Holds, h.frames])

theorem Evicts.refl (c : VideoCache) : c.Evicts c :=
  Alike.evicts ⟨rfl, rfl, rfl, rfl⟩

theorem Evicts.trans {c₁ c₂ c₃ : VideoCache} (h : c₁.Evicts c₂) (h' : c₂.Evicts c₃) :
    c₁.Evicts c₃ where
  maxFid_eq := h'.maxFid_eq.trans h.maxFid_eq
  min_le := BitVec.le_trans h.min_le h'.min_le
  min_or := by
    rcases h'.min_or with heq | hle
    · rw [heq]
      exact h.min_or
    · rw [h.maxFid_eq] at hle
      exact .inr hle
  kept slot hslot := by
    have hmid := h'.kept slot hslot
    rw [hmid]
    refine h.kept slot ?_
    rwa [Holds, ← hmid]
  gone slot hslot := by
    rcases h.gone slot hslot with hheld | hle
    · rw [← h.kept slot hheld]
      exact h'.gone slot hheld
    · exact .inr (BitVec.le_trans hle h'.min_le)

theorem Alike.trans {c₁ c₂ c₃ : VideoCache} (h : c₁.Alike c₂) (h' : c₂.Alike c₃) :
    c₁.Alike c₃ :=
  ⟨h'.frames.trans h.frames, h'.minSeq.trans h.minSeq, h'.minFid.trans h.minFid,
    h'.maxFid.trans h.maxFid⟩

/-! ## Cleaning -/

variable {c c' : VideoCache} {slot other : Fin cacheSize}

@[simp] theorem setFrame_self {frame : Frame} : (c.setFrame slot frame).frames slot = frame :=
  Function.update_self _ _ _

theorem setFrame_of_ne {frame : Frame} (h : other ≠ slot) :
    (c.setFrame slot frame).frames other = c.frames other :=
  Function.update_of_ne h _ _

theorem clean_of_not_holds (h : ¬c.Holds slot) : c.clean slot = c :=
  if_pos (Nat.eq_zero_of_not_pos h)

theorem clean_minFid (h : c.Holds slot) : (c.clean slot).minFid = (c.frames slot).fid := by
  rw [clean, if_neg (Nat.pos_iff_ne_zero.mp h)]

@[simp] theorem clean_maxFid : (c.clean slot).maxFid = c.maxFid := by
  rw [clean]
  split <;> rfl

theorem clean_frames_of_ne (h : other ≠ slot) : (c.clean slot).frames other = c.frames other := by
  rw [clean]
  split
  · rfl
  · exact setFrame_of_ne h

theorem clean_frames_self (h : c.Holds slot) : (c.clean slot).frames slot =
    { c.frames slot with ts := 0, frameType := 0, segments := [] } := by
  rw [clean, if_neg (Nat.pos_iff_ne_zero.mp h)]
  exact setFrame_self

theorem not_holds_clean : ¬(c.clean slot).Holds slot := by
  by_cases h : c.Holds slot
  · rw [Holds, clean_frames_self h]
    exact Nat.lt_irrefl 0
  · rwa [clean_of_not_holds h]

theorem holds_clean_iff : (c.clean slot).Holds other ↔ other ≠ slot ∧ c.Holds other := by
  by_cases h : other = slot
  · subst h
    simp [not_holds_clean]
  · simp [Holds, clean_frames_of_ne h, h]

theorem Placed.evicts_clean (hp : c.Placed) : c.Evicts (c.clean slot) := by
  by_cases h : c.Holds slot
  · constructor
    · exact clean_maxFid
    · rw [clean_minFid h]
      exact BitVec.le_of_lt (hp.above slot h)
    · rw [clean_minFid h]
      exact .inr (hp.below slot h)
    · intro other hother
      exact clean_frames_of_ne (holds_clean_iff.mp hother).1
    · intro other hother
      by_cases hne : other = slot
      · subst hne
        rw [clean_minFid h]
        exact .inr (BitVec.le_refl _)
      · exact .inl (holds_clean_iff.mpr ⟨hne, hother⟩)
  · rw [clean_of_not_holds h]
    exact .refl c

/-- The frame in a slot is cleaned that is older than all others. -/
theorem Placed.clean (hp : c.Placed)
    (holdest : ∀ other, other ≠ slot → c.Holds slot → c.Holds other →
      (c.frames slot).fid < (c.frames other).fid) : (c.clean slot).Placed := by
  by_cases h : c.Holds slot
  · constructor
    · intro other hother
      obtain ⟨hne, hheld⟩ := holds_clean_iff.mp hother
      rw [clean_frames_of_ne hne]
      exact hp.index_fid other hheld
    · intro other hother
      obtain ⟨hne, hheld⟩ := holds_clean_iff.mp hother
      rw [clean_frames_of_ne hne, clean_minFid h]
      exact holdest other hne h hheld
    · intro other hother
      obtain ⟨hne, hheld⟩ := holds_clean_iff.mp hother
      rw [clean_frames_of_ne hne, clean_maxFid]
      exact hp.below other hheld
    · intro other hother
      by_cases hne : other = slot
      · subst hne
        have hcleared : (0 : BitVec 8) ≠ 1 := by decide
        rw [clean_frames_self h]
        exact hcleared
      · rw [clean_frames_of_ne hne]
        exact hp.cleared other fun hheld => hother (holds_clean_iff.mpr ⟨hne, hheld⟩)
  · rwa [clean_of_not_holds h]

/-! ## The loops -/

/-- A loop that has come to counter `n`, `k` above the frames that it cleans. -/
structure Cleaning (k n : Nat) (c₀ c : VideoCache) : Prop where
  placed : c.Placed
  evicts : c₀.Evicts c
  ahead : ∀ slot, c.Holds slot → n ≤ (c.frames slot).fid.toNat + k

/-- What the slot of a counter holds is the frame `k` below it. -/
theorem Cleaning.fid_eq {k : Nat} {c₀ : VideoCache} {i : BitVec 32}
    (h : Cleaning k i.toNat c₀ c) (hk : k % cacheSize = 0)
    (hgap : c.maxFid.toNat + k < i.toNat + cacheSize) (hheld : c.Holds (index i)) :
    (c.frames (index i)).fid.toNat + k = i.toNat := by
  have hindex := index_eq_iff.mp (h.placed.index_fid _ hheld)
  have hahead := h.ahead _ hheld
  have hbelow := BitVec.le_def.mp (h.placed.below _ hheld)
  rw [cacheSize] at *
  omega

/-- Each turn cleans the oldest frame, or none. -/
theorem Cleaning.turn {k : Nat} {c₀ : VideoCache} {i : BitVec 32}
    (h : Cleaning k i.toNat c₀ c) (hk : k % cacheSize = 0)
    (hgap : c.maxFid.toNat + k < i.toNat + cacheSize) :
    Cleaning k (i.toNat + 1) c₀ (c.clean (index i)) := by
  have hnext : ∀ other, other ≠ index i → c.Holds other →
      i.toNat < (c.frames other).fid.toNat + k := by
    intro other hne hheld
    have hahead := h.ahead other hheld
    have hindex : index (c.frames other).fid ≠ index i := by
      rwa [h.placed.index_fid other hheld]
    rw [Ne, index_eq_iff] at hindex
    rw [cacheSize] at *
    omega
  have holdest : ∀ other, other ≠ index i → c.Holds (index i) → c.Holds other →
      (c.frames (index i)).fid < (c.frames other).fid := by
    intro other hne hi hheld
    have heq := h.fid_eq hk hgap hi
    have hlt := hnext other hne hheld
    rw [BitVec.lt_def]
    omega
  refine ⟨h.placed.clean holdest, h.evicts.trans h.placed.evicts_clean, ?_⟩
  intro other hother
  obtain ⟨hne, hheld⟩ := holds_clean_iff.mp hother
  rw [clean_frames_of_ne hne]
  exact hnext other hne hheld

/-- **What a cleaning loop does**: at its last counter, everything more than `k` below
it is gone. -/
theorem cleaning_forLoop {k : Nat} {i j : BitVec 32} {more : BitVec 32 → VideoCache → Bool}
    {body : BitVec 32 → VideoCache → VideoCache} (h0 : Cleaning k i.toNat c c)
    (hk : k % cacheSize = 0) (hgap : c.maxFid.toNat + k < i.toNat + cacheSize)
    (hmore : ∀ i c, more i c = true → i.toNat + 1 < 2 ^ 32)
    (hbody : ∀ i c, ∃ c₁, Alike c c₁ ∧ body i c = c₁.clean (index i))
    (h : forLoop more body i c = some (j, c')) :
    Cleaning k j.toNat c c' ∧ ¬more j c' = true := by
  have hrun := loop_invariant (I := fun j c' => Cleaning k j.toNat c c' ∧ i.toNat ≤ j.toNat)
    ⟨h0, Nat.le_refl _⟩ ?_ h
  · exact ⟨hrun.1.1, hrun.2⟩
  · intro j c' ⟨hcleaning, hle⟩ hj
    obtain ⟨c₁, halike, heq⟩ := hbody j c'
    have hmax : c₁.maxFid = c.maxFid := halike.maxFid.trans hcleaning.evicts.maxFid_eq
    have hcleaning₁ : Cleaning k j.toNat c c₁ := by
      refine ⟨hcleaning.placed.alike halike, hcleaning.evicts.trans halike.evicts, ?_⟩
      intro slot hslot
      rw [Holds, halike.frames] at hslot
      rw [halike.frames]
      exact hcleaning.ahead slot hslot
    rw [heq, toNat_add_one (hmore j c' hj)]
    refine ⟨hcleaning₁.turn hk ?_, Nat.le_succ_of_le hle⟩
    rw [hmax]
    omega

/-- The counter that the search for a key frame ends with. -/
theorem findKey_spec {i pos : BitVec 32} (h : c.findKey i = some pos) :
    i ≤ pos ∧ (pos = i ∨ pos ≤ c.maxFid) ∧
      (pos < c.maxFid → (c.frames (index pos)).frameType = 1) ∧
      ∀ j, i ≤ j → j < pos → (c.frames (index j)).frameType ≠ 1 := by
  obtain ⟨r, hloop, rfl⟩ := Option.map_eq_some_iff.mp h
  have hrun := loop_invariant (I := fun pos _ => i ≤ pos ∧ (pos = i ∨ pos ≤ c.maxFid) ∧
      ∀ j, i ≤ j → j < pos → (c.frames (index j)).frameType ≠ 1)
    ⟨BitVec.le_refl i, .inl rfl, fun j hle hlt => absurd hlt (BitVec.not_lt.mpr hle)⟩ ?_
    (j := r.1) hloop
  · obtain ⟨⟨hle, hor, hbefore⟩, hend⟩ := hrun
    exact ⟨hle, hor, fun hlt => by simpa [hlt] using hend, hbefore⟩
  · intro pos _ ⟨hle, _, hbefore⟩ hmore
    obtain ⟨hlt, hkey⟩ := Bool.and_eq_true_iff.mp hmore
    have hlt : pos < c.maxFid := of_decide_eq_true hlt
    have hnext := toNat_succ_of_lt hlt
    rw [BitVec.lt_def] at hlt
    refine ⟨?_, .inr ?_, ?_⟩
    · rw [BitVec.le_def] at hle ⊢
      omega
    · rw [BitVec.le_def]
      omega
    · intro j hij hj
      rw [BitVec.lt_def, hnext] at hj
      by_cases hjpos : j = pos
      · rw [hjpos]
        exact of_decide_eq_true hkey
      · have hne : j.toNat ≠ pos.toNat := fun h => hjpos (BitVec.eq_of_toNat_eq h)
        refine hbefore j hij ?_
        rw [BitVec.lt_def]
        omega

/-! ## The window -/

/-- The counters of the frames that may come are in reach of the ring. -/
structure Window (c : VideoCache) : Prop where
  placed : c.Placed
  min_le_max : c.minFid ≤ c.maxFid
  narrow : c.maxFid.toNat ≤ c.minFid.toNat + cacheSize
  small : c.maxFid.toNat < 2 ^ 31

/-- In the window a slot holds the frame that is looked for in it. -/
theorem Window.fid_eq (hw : c.Window) {fid : BitVec 32} (hmin : c.minFid < fid)
    (hmax : fid ≤ c.maxFid) (hheld : c.Holds (index fid)) :
    (c.frames (index fid)).fid = fid := by
  have hindex := index_eq_iff.mp (hw.placed.index_fid _ hheld)
  have habove := BitVec.lt_def.mp (hw.placed.above _ hheld)
  have hbelow := BitVec.le_def.mp (hw.placed.below _ hheld)
  have hnarrow := hw.narrow
  rw [BitVec.lt_def] at hmin
  rw [BitVec.le_def] at hmax
  refine BitVec.eq_of_toNat_eq ?_
  rw [cacheSize] at *
  omega

/-- A loop behind `min_fid` begins with nothing below it. -/
theorem Window.cleaning_min (hw : c.Window) : Cleaning 0 (c.minFid + 1).toNat c c := by
  have hle := BitVec.le_def.mp hw.min_le_max
  have hsmall := hw.small
  refine ⟨hw.placed, .refl c, fun slot hslot => ?_⟩
  have habove := BitVec.lt_def.mp (hw.placed.above slot hslot)
  rw [toNat_add_one (by omega)]
  omega

/-- A loop behind `max_fid` begins with nothing a whole ring below it. -/
theorem Window.cleaning_max (hw : c.Window) :
    Cleaning cacheSize (c.maxFid + 1).toNat c c := by
  have hnarrow := hw.narrow
  have hsmall := hw.small
  refine ⟨hw.placed, .refl c, fun slot hslot => ?_⟩
  have habove := BitVec.lt_def.mp (hw.placed.above slot hslot)
  rw [toNat_add_one (by omega)]
  omega

theorem Window.evicts (hw : c.Window) (hplaced : c'.Placed) (h : c.Evicts c') :
    c'.Window := by
  have hle := BitVec.le_def.mp hw.min_le_max
  have hmin := BitVec.le_def.mp h.min_le
  have hnarrow := hw.narrow
  refine ⟨hplaced, ?_, ?_, ?_⟩
  · rw [h.maxFid_eq]
    rcases h.min_or with heq | hmax
    · rw [heq]
      exact hw.min_le_max
    · exact hmax
  · rw [h.maxFid_eq]
    omega
  · rw [h.maxFid_eq]
    exact hw.small

theorem Window.alike (hw : c.Window) (h : c.Alike c') : c'.Window :=
  hw.evicts (hw.placed.alike h) h.evicts

/-- The loops that clean what is behind `min_fid`, up to a counter. -/
theorem Window.cleanBelow (hw : c.Window) {pos j : BitVec 32}
    {body : BitVec 32 → VideoCache → VideoCache}
    (hbody : ∀ i c, ∃ c₁, Alike c c₁ ∧ body i c = c₁.clean (index i))
    (h : forLoop (fun i _ => decide (i < pos)) body (c.minFid + 1) c = some (j, c')) :
    Cleaning 0 pos.toNat c c' := by
  have hle := BitVec.le_def.mp hw.min_le_max
  have hnarrow := hw.narrow
  have hsmall := hw.small
  have hsucc : (c.minFid + 1).toNat = c.minFid.toNat + 1 := toNat_add_one (by omega)
  have hmore : ∀ (i : BitVec 32) (_ : VideoCache), decide (i < pos) = true →
      i.toNat + 1 < 2 ^ 32 := by
    intro i _ hi
    have hlt := BitVec.lt_def.mp (of_decide_eq_true hi)
    have hpos := pos.isLt
    omega
  obtain ⟨hcleaning, hend⟩ := cleaning_forLoop hw.cleaning_min rfl (by omega) hmore hbody h
  have hj : pos.toNat ≤ j.toNat := by
    simpa [BitVec.le_def] using hend
  exact ⟨hcleaning.placed, hcleaning.evicts, fun slot hslot =>
    Nat.le_trans hj (hcleaning.ahead slot hslot)⟩

/-! ## Eviction for a new frame -/

/-- The eviction for a new frame brings the window up to it: the first frame that is not
too old for the ring is as old as it may be, or the search for a key frame goes past it. -/
def Fits (c : VideoCache) (fid : BitVec 32) : Prop :=
  0 < c.maxFid → c.maxFid < fid → c.minFid.toNat + cacheSize < fid.toNat →
    ∃ slot, c.Holds slot ∧ fid.toNat ≤ (c.frames slot).fid.toNat + cacheSize ∧
      (∀ other, c.Holds other → fid.toNat ≤ (c.frames other).fid.toNat + cacheSize →
        (c.frames slot).fid ≤ (c.frames other).fid) ∧
      ((c.frames slot).fid.toNat + cacheSize = fid.toNat ∨
        (c.frames slot).fid ≠ c.maxFid ∧ (c.frames slot).frameType ≠ 1)

instance (c : VideoCache) (fid : BitVec 32) : Decidable (c.Fits fid) :=
  show Decidable (_ → _ → _ → ∃ _, _) from inferInstance

/-- The search for a key frame goes past a first frame that is none. -/
theorem Window.lt_findKey (hw : c.Window) {pos : BitVec 32}
    (h : c.findKey (c.minFid + 1) = some pos) (hheld : c.Holds slot)
    (hfirst : ∀ other, c.Holds other → (c.frames slot).fid ≤ (c.frames other).fid)
    (hmax : (c.frames slot).fid ≠ c.maxFid) (hkey : (c.frames slot).frameType ≠ 1) :
    (c.frames slot).fid < pos := by
  obtain ⟨hle, _, hat, _⟩ := findKey_spec h
  by_contra hnot
  have hbelow := BitVec.le_def.mp (hw.placed.below slot hheld)
  have hne : (c.frames slot).fid.toNat ≠ c.maxFid.toNat := fun h =>
    hmax (BitVec.eq_of_toNat_eq h)
  have hminmax := BitVec.le_def.mp hw.min_le_max
  have hsmall := hw.small
  have hsucc : (c.minFid + 1).toNat = c.minFid.toNat + 1 := toNat_add_one (by omega)
  rw [BitVec.le_def, hsucc] at hle
  rw [BitVec.lt_def] at hnot
  -- stopped below `max_fid`, the search is at a key frame, which can only be the first frame
  have hlt : pos < c.maxFid := by
    rw [BitVec.lt_def]
    omega
  have htype := hat hlt
  have hthere : c.Holds (index pos) := by
    by_contra hempty
    exact hw.placed.cleared _ hempty htype
  have hpos := hw.fid_eq (BitVec.lt_def.mpr hle) (BitVec.le_of_lt hlt) hthere
  have hslot := BitVec.le_def.mp (hfirst _ hthere)
  rw [hpos] at hslot
  have heq : (c.frames slot).fid = pos := BitVec.eq_of_toNat_eq (by omega)
  refine hkey ?_
  rw [← hw.placed.index_fid slot hheld, heq]
  exact htype

theorem cleanWhile_eq {more : BitVec 32 → Bool} {i : BitVec 32}
    (h : c.cleanWhile more i = some c') :
    ∃ j, forLoop (fun i _ => more i) (fun i (c : VideoCache) => c.clean (index i)) i c =
      some (j, c') := by
  obtain ⟨r, hloop, rfl⟩ := Option.map_eq_some_iff.mp h
  exact ⟨r.1, hloop⟩

/-- The turns of the loops that only clean. -/
theorem clean_turn (i : BitVec 32) (c : VideoCache) :
    ∃ c₁, Alike c c₁ ∧ c.clean (index i) = c₁.clean (index i) :=
  ⟨c, ⟨rfl, rfl, rfl, rfl⟩, rfl⟩

/-- The first loop of `real_video_evict_frame`. -/
theorem Window.cleanUpTo (hw : c.Window) {fid : BitVec 32} (hfid : fid.toNat < 2 ^ 31)
    (h : c.cleanWhile (fun pos => decide (pos ≤ fid)) (c.maxFid + 1) = some c') :
    Cleaning cacheSize (fid.toNat + 1) c c' := by
  obtain ⟨j, hloop⟩ := cleanWhile_eq h
  have hsmall := hw.small
  have hsucc : (c.maxFid + 1).toNat = c.maxFid.toNat + 1 := toNat_add_one (by omega)
  have hmore : ∀ (i : BitVec 32) (_ : VideoCache), decide (i ≤ fid) = true →
      i.toNat + 1 < 2 ^ 32 := by
    intro i _ hi
    have hle := BitVec.le_def.mp (of_decide_eq_true hi)
    omega
  obtain ⟨hcleaning, hend⟩ :=
    cleaning_forLoop hw.cleaning_max (Nat.mod_self _) (by omega) hmore clean_turn hloop
  have hj : fid.toNat < j.toNat := by
    simpa [BitVec.lt_def] using hend
  exact ⟨hcleaning.placed, hcleaning.evicts, fun slot hslot =>
    Nat.le_trans hj (hcleaning.ahead slot hslot)⟩

/-- The frame that `Fits` speaks of is gone after both loops of `real_video_evict_frame`. -/
theorem Window.reach_of_first {c₁ : VideoCache} (hw₁ : c₁.Window) {fid pos : BitVec 32}
    (hcleaning : Cleaning cacheSize (fid.toNat + 1) c c₁)
    (hkey : c₁.findKey (c₁.minFid + 1) = some pos) (hrest : Cleaning 0 pos.toNat c₁ c')
    (hheld : c.Holds slot) (hreach : fid.toNat ≤ (c.frames slot).fid.toNat + cacheSize)
    (holdest : ∀ other, c.Holds other → fid.toNat ≤ (c.frames other).fid.toNat + cacheSize →
      (c.frames slot).fid ≤ (c.frames other).fid)
    (hor : (c.frames slot).fid.toNat + cacheSize = fid.toNat ∨
      (c.frames slot).fid ≠ c.maxFid ∧ (c.frames slot).frameType ≠ 1) :
    fid.toNat ≤ c'.minFid.toNat + cacheSize := by
  have hmin := BitVec.le_def.mp hrest.evicts.min_le
  rcases hcleaning.evicts.gone slot hheld with hheld₁ | hgone
  · -- the first loop leaves the frame, so that it is less than a whole ring below
    have hahead := hcleaning.ahead slot hheld₁
    have hsame := hcleaning.evicts.kept slot hheld₁
    rw [hsame] at hahead
    obtain ⟨hmax, htype⟩ := hor.resolve_left (by omega)
    have hfirst : ∀ other, c₁.Holds other → (c₁.frames slot).fid ≤ (c₁.frames other).fid := by
      intro other hother
      have hreach' := hcleaning.ahead other hother
      have hsame' := hcleaning.evicts.kept other hother
      have hother₀ : c.Holds other := by rwa [Holds, ← hsame']
      rw [hsame, hsame']
      rw [hsame'] at hreach'
      exact holdest other hother₀ (by omega)
    have hpast : (c₁.frames slot).fid < pos := by
      refine hw₁.lt_findKey hkey hheld₁ hfirst ?_ ?_
      · rwa [hsame, hcleaning.evicts.maxFid_eq]
      · rwa [hsame]
    rw [hsame, BitVec.lt_def] at hpast
    rcases hrest.evicts.gone slot hheld₁ with hheld₂ | hgone
    · have hlate := hrest.ahead slot hheld₂
      rw [hrest.evicts.kept slot hheld₂, hsame] at hlate
      omega
    · rw [hsame, BitVec.le_def] at hgone
      omega
  · rw [BitVec.le_def] at hgone
    omega

/-- **What `real_video_evict_frame` does**: the window reaches up to the new frame. -/
theorem Window.evictFrame (hw : c.Window) {fid : BitVec 32} (hfid : fid.toNat < 2 ^ 31)
    (hpos : 0 < c.maxFid) (hlt : c.maxFid < fid) (hfits : c.Fits fid)
    (h : c.evictFrame fid = some c') :
    c'.Window ∧ c.Evicts c' ∧ fid.toNat ≤ c'.minFid.toNat + cacheSize := by
  obtain ⟨c₁, hfirst, h⟩ := Option.bind_eq_some_iff.mp h
  have hcleaning := hw.cleanUpTo hfid hfirst
  have hw₁ := hw.evicts hcleaning.placed hcleaning.evicts
  have hminmax := BitVec.le_def.mp hw₁.min_le_max
  have hsmall := hw₁.small
  have hsize : (c₁.minFid + BitVec.ofNat 32 cacheSize).toNat = c₁.minFid.toNat + cacheSize := by
    rw [BitVec.toNat_add, BitVec.toNat_ofNat, cacheSize]
    omega
  by_cases hnear : fid < c₁.minFid + BitVec.ofNat 32 cacheSize
  · -- the first loop was enough, and the second one does not run
    rw [if_pos hnear] at h
    obtain rfl := Option.some.inj h
    rw [BitVec.lt_def, hsize] at hnear
    exact ⟨hw₁, hcleaning.evicts, Nat.le_of_lt hnear⟩
  · rw [if_neg hnear] at h
    obtain ⟨pos, hkey, h⟩ := Option.bind_eq_some_iff.mp h
    obtain ⟨j, hloop⟩ := cleanWhile_eq h
    have hrest := hw₁.cleanBelow clean_turn hloop
    refine ⟨hw₁.evicts hrest.placed hrest.evicts, hcleaning.evicts.trans hrest.evicts, ?_⟩
    by_cases hfar : c.minFid.toNat + cacheSize < fid.toNat
    · obtain ⟨slot, hheld, hreach, holdest, hor⟩ := hfits hpos hlt hfar
      exact hw₁.reach_of_first hcleaning hkey hrest hheld hreach holdest hor
    · have hmin := BitVec.le_def.mp (hcleaning.evicts.trans hrest.evicts).min_le
      omega

/-- **What `evict_gop_frame` does**: the window only shrinks. -/
theorem Window.evictGopFrame (hw : c.Window) (h : c.evictGopFrame = some c') :
    c'.Window ∧ c.Evicts c' := by
  obtain ⟨i, _, h⟩ := Option.bind_eq_some_iff.mp h
  by_cases hkey : (if i < c.maxFid then i else 0) = 0
  · rw [if_pos hkey] at h
    obtain rfl := Option.some.inj h
    exact ⟨hw, .refl c⟩
  · rw [if_neg hkey] at h
    obtain ⟨r, hloop, rfl⟩ := Option.map_eq_some_iff.mp h
    have hbody : ∀ (i : BitVec 32) (c : VideoCache), ∃ c₁, Alike c c₁ ∧
        { c with frameTs := (c.frames (index i)).ts }.clean (index i) = c₁.clean (index i) :=
      fun i c => ⟨{ c with frameTs := (c.frames (index i)).ts }, ⟨rfl, rfl, rfl, rfl⟩, rfl⟩
    have hcleaning := hw.cleanBelow (j := r.1) hbody hloop
    exact ⟨hw.evicts hcleaning.placed hcleaning.evicts, hcleaning.evicts⟩

/-! ## Asking for a frame -/

theorem alike_checkPlaying (c : VideoCache) (now : BitVec 64) :
    c.Alike (c.checkPlaying now) := by
  rw [checkPlaying]
  split <;> exact ⟨rfl, rfl, rfl, rfl⟩

theorem alike_syncTimestamp {scaled : Speed → BitVec 64 → BitVec 32} (c : VideoCache)
    (now : BitVec 64) : c.Alike (c.syncTimestamp scaled now) := by
  rw [syncTimestamp]
  split <;> exact ⟨rfl, rfl, rfl, rfl⟩

/-- `real_video_cache_get` does nothing to the frames, or comes to the end of it, with or
without an eviction. -/
theorem get_cases (scaled : Speed → BitVec 64 → BitVec 32) (c : VideoCache) (now : BitVec 64)
    (bufferSize : Nat) :
    (∃ c₁, c.Alike c₁ ∧ c.get scaled now bufferSize = .ok (c₁, none)) ∨
      ∃ c₁ c₂, c.Alike c₁ ∧ (c₂ = c₁ ∨ c₁.evictGopFrame = some c₂) ∧
        c.get scaled now bufferSize = c₂.playFrame bufferSize := by
  have hplaying : c.Alike (if c.playing then c else c.checkPlaying now) := by
    split
    · exact ⟨rfl, rfl, rfl, rfl⟩
    · exact alike_checkPlaying c now
  simp only [VideoCache.get]
  generalize (if c.playing then c else c.checkPlaying now) = c₁ at hplaying
  split
  · exact .inl ⟨c₁, hplaying, rfl⟩
  · have hspeed : c.Alike { c₁ with f := c₁.speed } :=
      ⟨hplaying.frames, hplaying.minSeq, hplaying.minFid, hplaying.maxFid⟩
    have hsync : c.Alike ({ c₁ with f := c₁.speed }.syncTimestamp scaled now) :=
      hspeed.trans (alike_syncTimestamp _ now)
    generalize { c₁ with f := c₁.speed }.syncTimestamp scaled now = c₂ at hsync
    obtain ⟨c₃, hgop⟩ := Option.isSome_iff_exists.mp c₂.evictGopFrame_isSome
    by_cases hlate : c₂.playFrameTs + suMax maxVideoDelayMs (4 * c₂.waitTimer) < c₂.maxTs
    · refine .inr ⟨c₂, c₃, hsync, .inr hgop, ?_⟩
      rw [if_pos hlate, hgop]
    · refine .inr ⟨c₂, c₂, hsync, .inl rfl, ?_⟩
      rw [if_neg hlate]

/-- The eviction of frames that are too late. -/
theorem Window.evictLate (hw : c.Window) (h : c' = c ∨ c.evictGopFrame = some c') :
    c'.Window ∧ c.Evicts c' := by
  rcases h with rfl | hgop
  · exact ⟨hw, .refl c'⟩
  · exact hw.evictGopFrame hgop

/-! ## Taking a segment -/

/-- With no frame seen so far, nothing is held. -/
theorem Placed.not_holds (hp : c.Placed) (hzero : c.maxFid = 0) : ¬c.Holds slot := by
  intro hheld
  have habove := BitVec.lt_def.mp (hp.above slot hheld)
  have hbelow := BitVec.le_def.mp (hp.below slot hheld)
  rw [hzero] at hbelow
  exact absurd (Nat.lt_of_lt_of_le habove hbelow) (Nat.not_lt_zero _)

/-- The cache before a segment is filed: its frame is in the window, and the frames that
are left are the ones from before. -/
structure Admits (c : VideoCache) (seg : SimSegment) (c' : VideoCache) : Prop where
  window : c'.Window
  above : c'.minFid < seg.fid
  below : seg.fid ≤ c'.maxFid
  min_le : c.minFid ≤ c'.minFid
  kept : ∀ slot, c'.Holds slot → c'.frames slot = c.frames slot

/-- A frame above `max_fid`, for which `c₁` has made room. -/
theorem Admits.follow {c₁ : VideoCache} {seg : SimSegment} (hplaced : c₁.Placed)
    (hfid : seg.fid.toNat < 2 ^ 31) (hle : c₁.maxFid ≤ seg.fid) (hlt : c₁.minFid < seg.fid)
    (hreach : seg.fid.toNat ≤ c₁.minFid.toNat + cacheSize) (hmin_le : c.minFid ≤ c₁.minFid)
    (hkept : ∀ slot, c₁.Holds slot → c₁.frames slot = c.frames slot) :
    c.Admits seg (c₁.follow seg) where
  window := ⟨hplaced.raise rfl rfl hle, BitVec.le_of_lt hlt, hreach, hfid⟩
  above := hlt
  below := BitVec.le_refl _
  min_le := hmin_le
  kept := hkept

theorem Window.minFid_eq_zero (hw : c.Window) (hzero : c.maxFid = 0) : c.minFid = 0 := by
  have hle := hw.min_le_max
  rw [hzero] at hle
  simpa using hle

/-- The first frame of all is the next one to be played. -/
theorem Window.firstFrame (hw : c.Window) {seg : SimSegment} (hzero : c.maxFid = 0)
    (hfid : seg.fid.toNat < 2 ^ 31) (habove : c.maxFid < seg.fid) :
    c.Admits seg ({ c with
      minFid := seg.fid - 1, playFrameTs := seg.timestamp }.follow seg) := by
  have hnone : ∀ slot, ¬c.Holds slot := fun slot => hw.placed.not_holds hzero
  have hpos : 0 < seg.fid.toNat := by
    rw [hzero] at habove
    exact BitVec.lt_def.mp habove
  have hpred : (seg.fid - 1).toNat = seg.fid.toNat - 1 := by
    have hone : (1 : BitVec 32).toNat = 1 := rfl
    rw [BitVec.toNat_sub]
    omega
  refine .follow ?_ hfid (BitVec.le_of_lt habove) ?_ ?_ ?_ fun slot _ => rfl
  · exact ⟨fun slot hslot => absurd hslot (hnone slot),
      fun slot hslot => absurd hslot (hnone slot),
      fun slot hslot => absurd hslot (hnone slot), hw.placed.cleared⟩
  · rw [BitVec.lt_def, hpred]
    omega
  · rw [hpred, cacheSize]
    omega
  · -- `min_fid` is still zero, so it does not go back
    rw [hw.minFid_eq_zero hzero]
    exact Nat.zero_le _

/-- The part of `real_video_cache_put` for a new frame keeps the window. -/
theorem Window.advance (hw : c.Window) {seg : SimSegment} (hmin : c.minFid < seg.fid)
    (hfid : seg.fid.toNat < 2 ^ 31) (hfits : c.Fits seg.fid) (h : c.advance seg = some c') :
    c.Admits seg c' := by
  by_cases habove : c.maxFid < seg.fid
  · rw [VideoCache.advance, if_pos habove] at h
    obtain ⟨c₁, hroom, rfl⟩ := Option.map_eq_some_iff.mp h
    -- only the first frame of all comes in without an eviction
    by_cases hpos : 0 < c.maxFid
    · rw [makeRoom, if_pos hpos] at hroom
      obtain ⟨hw₁, hevicts, hreach⟩ := hw.evictFrame hfid hpos habove hfits hroom
      have hle : c₁.maxFid < seg.fid := by rwa [hevicts.maxFid_eq]
      exact .follow hw₁.placed hfid (BitVec.le_of_lt hle)
        (Nat.lt_of_le_of_lt hw₁.min_le_max hle) hreach hevicts.min_le hevicts.kept
    · have hzero : c.maxFid = 0 := by
        simpa using hpos
      rw [makeRoom, if_neg hpos, if_pos (hw.minFid_eq_zero hzero)] at hroom
      obtain rfl := Option.some.inj hroom
      exact hw.firstFrame hzero hfid habove
  · rw [VideoCache.advance, if_neg habove] at h
    obtain rfl := Option.some.inj h
    exact ⟨hw, hmin, BitVec.not_lt.mp habove, BitVec.le_refl _, fun slot _ => rfl⟩

/-- What the frame of a segment becomes when the segment is filed. -/
theorem fileSegment_spec {seg : SimSegment} {taken : Bool}
    (h : c.fileSegment seg = .ok (c', taken)) :
    ∃ segments, c' = c.setFrame (index seg.fid)
        ⟨seg.fid, seg.timestamp, seg.ftype, segments⟩ ∧
      (¬c.Holds (index seg.fid) →
        segments = (List.replicate seg.total.toNat none).set seg.index.toNat (some seg)) ∧
      (c.Holds (index seg.fid) →
        segments = (c.frames (index seg.fid)).segments ∨
        segments = (c.frames (index seg.fid)).segments.set seg.index.toNat (some seg)) := by
  simp only [fileSegment] at h
  split at h
  · rename_i hzero
    obtain ⟨rfl, _⟩ := Prod.mk.inj (Except.ok.inj h)
    have hnot : ¬c.Holds (index seg.fid) := fun hheld => Nat.ne_of_gt hheld hzero
    exact ⟨_, rfl, fun _ => rfl, fun hheld => absurd hheld hnot⟩
  · rename_i hne
    have hheld : c.Holds (index seg.fid) := Nat.pos_of_ne_zero hne
    split at h
    · cases h
    · obtain ⟨rfl, _⟩ := Prod.mk.inj (Except.ok.inj h)
      exact ⟨_, rfl, fun hnot => absurd hheld hnot, fun _ => .inr rfl⟩
    · obtain ⟨rfl, _⟩ := Prod.mk.inj (Except.ok.inj h)
      exact ⟨_, rfl, fun hnot => absurd hheld hnot, fun _ => .inl rfl⟩

/-- The segments of the frame are then those from before and the new one. -/
theorem mem_of_fileSegment {seg : SimSegment} {taken : Bool}
    (h : c.fileSegment seg = .ok (c', taken)) :
    ∃ segments, c' = c.setFrame (index seg.fid)
        ⟨seg.fid, seg.timestamp, seg.ftype, segments⟩ ∧
      ∀ other, some other ∈ segments →
        other = seg ∨ some other ∈ (c.frames (index seg.fid)).segments := by
  obtain ⟨segments, hc', hfresh, hfull⟩ := fileSegment_spec h
  refine ⟨segments, hc', fun other hother => ?_⟩
  by_cases hheld : c.Holds (index seg.fid)
  · rcases hfull hheld with rfl | rfl
    · exact .inr hother
    · rcases List.mem_or_eq_of_mem_set hother with hold | heq
      · exact .inr hold
      · exact .inl (Option.some.inj heq)
  · rw [hfresh hheld] at hother
    rcases List.mem_or_eq_of_mem_set hother with hold | heq
    · cases List.eq_of_mem_replicate hold
    · exact .inl (Option.some.inj heq)

/-- After the room for a frame is made, its id is at most `max_fid`. -/
theorem fid_le_of_advance {seg : SimSegment} (h : c.advance seg = some c') :
    seg.fid ≤ c'.maxFid := by
  rw [advance] at h
  split at h
  · obtain ⟨c₁, _, rfl⟩ := Option.map_eq_some_iff.mp h
    exact BitVec.le_refl _
  · obtain rfl := Option.some.inj h
    exact BitVec.not_lt.mp ‹_›

/-- A call of `real_video_cache_put` that returns leaves the cache as it is, or files the
segment. -/
theorem put_ok_cases {seg : SimSegment} {taken : Bool} (h : c.put seg = .ok (c', taken)) :
    c' = c ∨ ∃ c₁, c.minFid < seg.fid ∧ c.advance seg = some c₁ ∧
      c₁.fileSegment seg = .ok (c', taken) := by
  rw [VideoCache.put] at h
  split at h
  · cases h
  · split at h
    · obtain ⟨rfl, _⟩ := Prod.mk.inj (Except.ok.inj h)
      exact .inl rfl
    · rename_i hmin
      split at h
      · cases h
      · exact .inr ⟨_, BitVec.not_le.mp hmin, ‹_›, h⟩

/-- A segment of a frame that is held is filed in the segments of it. -/
theorem fileSegment_of_holds {seg : SimSegment} (hheld : c.Holds (index seg.fid)) :
    (∃ r, c.fileSegment seg = .ok r) ∧ seg.index.toNat < (c.frames (index seg.fid)).segNumber ∨
      c.fileSegment seg = .error .bounds ∧
        (c.frames (index seg.fid)).segNumber ≤ seg.index.toNat := by
  have hne : ¬(c.frames (index seg.fid)).segNumber = 0 := Nat.pos_iff_ne_zero.mp hheld
  simp only [fileSegment]
  split
  · exact absurd ‹_› hne
  · split
    · rename_i hnone
      exact .inr ⟨rfl, List.getElem?_eq_none_iff.mp hnone⟩
    · rename_i hsome
      exact .inl ⟨⟨_, rfl⟩, (List.getElem?_eq_some_iff.mp hsome).1⟩
    · rename_i hsome
      exact .inl ⟨⟨_, rfl⟩, (List.getElem?_eq_some_iff.mp hsome).1⟩

theorem fileSegment_of_not_holds {seg : SimSegment} (hnot : ¬c.Holds (index seg.fid)) :
    ∃ r, c.fileSegment seg = .ok r := by
  have hzero : (c.frames (index seg.fid)).segNumber = 0 := Nat.eq_zero_of_not_pos hnot
  simp only [fileSegment]
  split
  · exact ⟨_, rfl⟩
  · exact absurd hzero ‹_›

/-- A frame of the window that is put into its slot. -/
theorem Window.setFrame (hw : c.Window) {frame : Frame} (hmin : c.minFid < frame.fid)
    (hmax : frame.fid ≤ c.maxFid) (hpos : 0 < frame.segNumber) :
    (c.setFrame (index frame.fid) frame).Window := by
  refine ⟨⟨?_, ?_, ?_, ?_⟩, hw.min_le_max, hw.narrow, hw.small⟩
  · intro slot hslot
    by_cases hne : slot = index frame.fid
    · rw [hne, setFrame_self]
    · rw [Holds, setFrame_of_ne hne] at hslot
      rw [setFrame_of_ne hne]
      exact hw.placed.index_fid slot hslot
  · intro slot hslot
    by_cases hne : slot = index frame.fid
    · rw [hne, setFrame_self]
      exact hmin
    · rw [Holds, setFrame_of_ne hne] at hslot
      rw [setFrame_of_ne hne]
      exact hw.placed.above slot hslot
  · intro slot hslot
    by_cases hne : slot = index frame.fid
    · rw [hne, setFrame_self]
      exact hmax
    · rw [Holds, setFrame_of_ne hne] at hslot
      rw [setFrame_of_ne hne]
      exact hw.placed.below slot hslot
  · intro slot hslot
    by_cases hne : slot = index frame.fid
    · rw [Holds, hne, setFrame_self] at hslot
      exact absurd hpos hslot
    · rw [Holds, setFrame_of_ne hne] at hslot
      rw [setFrame_of_ne hne]
      exact hw.placed.cleared slot hslot

end VideoCache

end SimTransport

end Razor
