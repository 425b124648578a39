import RmcatNs3.Lib.BoundedArray
import RmcatNs3.Lib.CountedLoop
import RmcatNs3.Razor.FrameSegments

/-!
# Splitting a frame in place

`FrameSplit` as it is written, in `razor-ns3/model/sim_sender.cc`: the sizes of the segments
go to an array of `m_maxSplitPackets` entries, through counters and remainders of 16 bits.
A write outside the array and a division by zero are `none`. What it leaves in the array is
the list of `SimSender.frameSplit`.
-/

namespace Razor

open BoundedArray CountedLoop

/-- `uint16_t splits[m_maxSplitPackets]`. -/
abbrev Splits := Vector (BitVec 16) maxSplitPackets

/-- One turn of the loop over the full segments. -/
def storeFull (segmentSize : BitVec 32) (i : BitVec 16) (splits : Option Splits) :
    Option Splits := do
  let splits ← splits
  store splits i.toNat (segmentSize.setWidth 16)

/-- The loop over the full segments. -/
def fullSegments (segmentSize : BitVec 32) (ret : BitVec 16) (splits : Splits) :
    Option Splits := do
  let (_, splits) ← forLoop (fun i _ => decide (i < ret)) (storeFull segmentSize) 0 (some splits)
  splits

/-- What the three `FrameSplit` have in common. -/
def splitInto (segmentSize : BitVec 32) (splits : Splits) (size : BitVec 32) :
    Option (BitVec 16 × Splits) :=
  if size < segmentSize then do
    let splits ← store splits 0 (size.setWidth 16)
    some (1, splits)
  else if segmentSize = 0 then none
  else do
    let ret : BitVec 16 := (size / segmentSize).setWidth 16
    let splits ← fullSegments segmentSize ret splits
    let remainSize : BitVec 16 := (size % segmentSize).setWidth 16
    if remainSize > 0 then do
      let splits ← store splits ret.toNat remainSize
      some (ret + 1, splits)
    else some (ret, splits)

/-- `SimSender::FrameSplit`. -/
def SimSender.frameSplitInto (segmentSize : BitVec 32) (splits : Splits) (size : BitVec 32) :
    Option (BitVec 16 × Splits) :=
  splitInto segmentSize splits size

/-- These are the sizes of the segments of a frame of this size. -/
structure IsSplit (segmentSize size : Nat) (entries : List (BitVec 16)) : Prop where
  count : entries.length = Nat.max 1 ((size + (segmentSize - 1)) / segmentSize)
  sum : (entries.map (·.toNat)).sum = size
  empty : size = 0 → entries = [0]
  bounds : 0 < size → ∀ dataSize ∈ entries, 1 ≤ dataSize.toNat ∧ dataSize.toNat ≤ segmentSize

/-! ## The list of the sizes -/

namespace SimSender

variable {segmentSize size : Nat}

theorem frameSplit_of_lt (h : size < segmentSize) :
    frameSplit segmentSize size = [BitVec.ofNat 16 size] :=
  if_pos h

theorem frameSplit_of_le (h : segmentSize ≤ size) :
    frameSplit segmentSize size =
      List.replicate (size / segmentSize) (BitVec.ofNat 16 segmentSize) ++
        if 0 < size % segmentSize then [BitVec.ofNat 16 (size % segmentSize)] else [] := by
  unfold frameSplit
  rw [if_neg (by omega)]
  simp only
  split
  · rfl
  · rw [List.append_nil]

/-- The count is the quotient, rounded up, and an empty frame has one segment. -/
theorem length_frameSplit (hpos : 0 < segmentSize) :
    (frameSplit segmentSize size).length =
      Nat.max 1 ((size + (segmentSize - 1)) / segmentSize) := by
  have hdiv := Nat.div_add_mod size segmentSize
  have hmod := Nat.mod_lt size hpos
  rcases Nat.lt_or_ge size segmentSize with hlt | hge
  · have hle : (size + (segmentSize - 1)) / segmentSize ≤ 1 := by
      apply Nat.le_of_lt_succ
      rw [Nat.div_lt_iff_lt_mul hpos]
      omega
    rw [frameSplit_of_lt hlt, List.length_singleton]
    exact (Nat.max_eq_left hle).symm
  · have hone : 1 ≤ size / segmentSize := Nat.div_pos hge hpos
    -- the remainder decides whether the quotient is rounded
    have hceil : (size + (segmentSize - 1)) / segmentSize =
        size / segmentSize + if 0 < size % segmentSize then 1 else 0 := by
      split
      · apply Nat.div_eq_of_lt_le
        · rw [Nat.add_mul, Nat.mul_comm]
          omega
        · rw [Nat.add_mul, Nat.add_mul, Nat.mul_comm]
          omega
      · apply Nat.div_eq_of_lt_le
        · rw [Nat.add_zero, Nat.mul_comm]
          omega
        · rw [Nat.add_zero, Nat.add_mul, Nat.mul_comm]
          omega
    rw [frameSplit_of_le hge, hceil, List.length_append, List.length_replicate]
    have hmax := Nat.max_eq_right
      (show 1 ≤ size / segmentSize + if 0 < size % segmentSize then 1 else 0 by omega)
    refine Eq.trans ?_ hmax.symm
    split
    · rfl
    · rfl

/-- A segment is neither empty nor larger than the segment size. -/
theorem mem_frameSplit (hpos : 0 < segmentSize) (hfits : segmentSize < 2 ^ 16) (hsize : 0 < size)
    {dataSize : BitVec 16} (h : dataSize ∈ frameSplit segmentSize size) :
    1 ≤ dataSize.toNat ∧ dataSize.toNat ≤ segmentSize := by
  have hmod := Nat.mod_lt size hpos
  rcases Nat.lt_or_ge size segmentSize with hlt | hge
  · rw [frameSplit_of_lt hlt, List.mem_singleton] at h
    rw [h, BitVec.toNat_ofNat, Nat.mod_eq_of_lt (by omega)]
    omega
  · rw [frameSplit_of_le hge, List.mem_append] at h
    rcases h with hfull | hrest
    · rw [List.eq_of_mem_replicate hfull, BitVec.toNat_ofNat, Nat.mod_eq_of_lt hfits]
      omega
    · split at hrest
      · rw [List.mem_singleton] at hrest
        rw [hrest, BitVec.toNat_ofNat, Nat.mod_eq_of_lt (by omega)]
        omega
      · exact absurd hrest List.not_mem_nil

theorem isSplit_frameSplit (hpos : 0 < segmentSize) (hfits : segmentSize < 2 ^ 16) :
    IsSplit segmentSize size (frameSplit segmentSize size) where
  count := length_frameSplit hpos
  sum := sum_frameSplit hpos hfits
  empty := by
    rintro rfl
    exact frameSplit_of_lt hpos
  bounds hsize _ h := mem_frameSplit hpos hfits hsize h

end SimSender

/-! ## What is left in the array -/

section

variable {segmentSize size : BitVec 32} {splits : Splits}

/-- The entries below `k` have been written over these, and no write has failed. -/
def FilledBelow (segmentSize : BitVec 32) (splits : Splits) (k : Nat) (state : Option Splits) :
    Prop :=
  ∃ splits', state = some splits' ∧ ∀ j, load splits' j =
    if j < k then some (segmentSize.setWidth 16) else load splits j

/-- A turn writes the next entry. -/
theorem FilledBelow.storeFull {state : Option Splits} {i : BitVec 16}
    (h : FilledBelow segmentSize splits i.toNat state) (hi : i.toNat < maxSplitPackets) :
    FilledBelow segmentSize splits (i.toNat + 1) (storeFull segmentSize i state) := by
  obtain ⟨splits₁, rfl, hload⟩ := h
  obtain ⟨splits₂, hstore⟩ := store_isSome (a := splits₁) hi (segmentSize.setWidth 16)
  refine ⟨splits₂, hstore, fun j => ?_⟩
  rw [load_store hstore, hload]
  by_cases hj : j = i.toNat
  · rw [if_pos hj, if_pos (by omega)]
  · rw [if_neg hj]
    by_cases hji : j < i.toNat
    · rw [if_pos hji, if_pos (by omega)]
    · rw [if_neg hji, if_neg (by omega)]

/-- The loop writes the entries below its bound, which are inside the array. -/
theorem fullSegments_eq (splits : Splits) {ret : BitVec 16} (h : ret.toNat ≤ maxSplitPackets) :
    FilledBelow segmentSize splits ret.toNat (fullSegments segmentSize ret splits) := by
  have hstart : (0 : BitVec 16) ≤ ret ∧ FilledBelow segmentSize splits 0 (some splits) := by
    refine ⟨Nat.zero_le _, splits, rfl, fun j => ?_⟩
    rw [if_neg (Nat.not_lt_zero j)]
  have hturn : ∀ (i : BitVec 16) state,
      i ≤ ret ∧ FilledBelow segmentSize splits i.toNat state → decide (i < ret) = true →
      i + 1 ≤ ret ∧
        FilledBelow segmentSize splits (i + 1).toNat (storeFull segmentSize i state) := by
    rintro i state ⟨-, hfilled⟩ hmore
    have hlt : i.toNat < ret.toNat := of_decide_eq_true hmore
    have hsucc := toNat_succ_of_lt (show i < ret from hlt)
    refine ⟨by rw [BitVec.le_def]; omega, ?_⟩
    rw [hsucc]
    exact hfilled.storeFull (by omega)
  have hends : (forLoop (fun i _ => decide (i < ret)) (storeFull segmentSize) 0
      (some splits)).isSome :=
    forLoop_isSome_of_lt (fun _ _ hmore => of_decide_eq_true hmore) 0 (some splits)
  obtain ⟨⟨i, state⟩, hloop⟩ := Option.isSome_iff_exists.mp hends
  obtain ⟨⟨hle, hfilled⟩, hstop⟩ := loop_invariant hstart hturn hloop
  have hnot : ¬ i < ret := by simpa using hstop
  obtain rfl : i = ret := BitVec.le_antisymm hle (BitVec.not_lt.mp hnot)
  rw [fullSegments, hloop]
  exact hfilled

/-- The entries that the loop has written. -/
theorem FilledBelow.take {k : Nat} {splits' : Splits}
    (h : FilledBelow segmentSize splits k (some splits')) :
    splits'.toList.take k = List.replicate k (segmentSize.setWidth 16) := by
  obtain ⟨_, hsome, hload⟩ := h
  obtain rfl := Option.some.inj hsome
  refine take_toList_of_load List.length_replicate fun j hj => ?_
  rw [hload, if_pos hj, List.getElem?_replicate, if_pos hj]

/-- What the function leaves: the sizes of the segments, and how many there are. -/
def Leaves (segmentSize : BitVec 32) (splits : Splits) (size : BitVec 32) : Prop :=
  ∃ count splits', splitInto segmentSize splits size = some (count, splits') ∧
    count.toNat = (SimSender.frameSplit segmentSize.toNat size.toNat).length ∧
    splits'.toList.take count.toNat = SimSender.frameSplit segmentSize.toNat size.toNat

/-- A frame below the segment size is one segment. -/
theorem leaves_of_lt (hlt : size < segmentSize) (splits : Splits) :
    Leaves segmentSize splits size := by
  have hlist := SimSender.frameSplit_of_lt (show size.toNat < segmentSize.toNat from hlt)
  obtain ⟨splits', hstore⟩ := store_isSome (a := splits)
    (show 0 < maxSplitPackets by decide) (size.setWidth 16)
  refine ⟨1, splits', ?_, by rw [hlist]; rfl, ?_⟩
  · rw [splitInto, if_pos hlt, hstore]
    rfl
  · rw [hlist]
    exact take_toList_store hstore

/-- Once the full segments are written, what is left is the remainder. -/
theorem splitInto_of_le (hge : segmentSize.toNat ≤ size.toNat) (hpos : 0 < segmentSize.toNat)
    {ret rest : BitVec 16} (hret : ret = (size / segmentSize).setWidth 16)
    (hrest : rest = (size % segmentSize).setWidth 16) {splits₁ : Splits}
    (hfull : fullSegments segmentSize ret splits = some splits₁) :
    splitInto segmentSize splits size =
      if rest > 0 then (store splits₁ ret.toNat rest).bind fun splits => some (ret + 1, splits)
      else some (ret, splits₁) := by
  have hnot : ¬ size < segmentSize := by
    simpa [BitVec.lt_def] using hge
  have hne : segmentSize ≠ 0 := by
    rintro rfl
    exact absurd hpos (Nat.lt_irrefl 0)
  rw [splitInto, if_neg hnot, if_neg hne, ← hret, ← hrest]
  simp only [hfull, Option.bind_eq_bind, Option.bind_some]

theorem leaves_of_le (hge : segmentSize.toNat ≤ size.toNat) (hpos : 0 < segmentSize.toNat)
    (hfits : segmentSize.toNat < 2 ^ 16)
    (hsize : size.toNat / segmentSize.toNat < maxSplitPackets) (splits : Splits) :
    Leaves segmentSize splits size := by
  have hmod := Nat.mod_lt size.toNat hpos
  have hlist := SimSender.frameSplit_of_le hge
  -- the quotient and the remainder fit their sixteen bits
  obtain ⟨ret, hret⟩ : ∃ ret : BitVec 16, ret = (size / segmentSize).setWidth 16 := ⟨_, rfl⟩
  obtain ⟨rest, hrest⟩ : ∃ rest : BitVec 16, rest = (size % segmentSize).setWidth 16 := ⟨_, rfl⟩
  have hretNat : ret.toNat = size.toNat / segmentSize.toNat := by
    rw [hret, BitVec.toNat_setWidth, BitVec.toNat_udiv]
    exact Nat.mod_eq_of_lt (Nat.lt_trans hsize (by decide))
  have hrestNat : rest.toNat = size.toNat % segmentSize.toNat := by
    rw [hrest, BitVec.toNat_setWidth, BitVec.toNat_umod]
    exact Nat.mod_eq_of_lt (Nat.lt_trans hmod hfits)
  obtain ⟨splits₁, hfull, hload⟩ := @fullSegments_eq segmentSize splits ret (by omega)
  have hfilled : FilledBelow segmentSize splits ret.toNat (some splits₁) := ⟨splits₁, rfl, hload⟩
  have hsplit := splitInto_of_le hge hpos hret hrest hfull
  rw [← hretNat, ← hrestNat, BitVec.ofNat_toNat, ← hfilled.take] at hlist
  rw [← hretNat] at hsize
  have hlen : (splits₁.toList.take ret.toNat).length = ret.toNat := by
    rw [hfilled.take, List.length_replicate]
  unfold Leaves
  rw [hlist]
  by_cases hrest0 : 0 < rest.toNat
  · -- the remainder goes to the entry behind the full segments, at most the last one
    obtain ⟨splits₂, hstore⟩ := store_isSome (a := splits₁) hsize rest
    have hsucc : (ret + 1).toNat = ret.toNat + 1 := by
      apply toNat_add_one
      simp only [maxSplitPackets] at hsize
      omega
    rw [if_pos hrest0, BitVec.ofNat_toNat, BitVec.setWidth_eq]
    refine ⟨ret + 1, splits₂, ?_, ?_, ?_⟩
    · rw [hsplit, if_pos (show rest > 0 from hrest0), hstore, Option.bind_some]
    · rw [hsucc, List.length_append, hlen, List.length_singleton]
    · rw [hsucc, take_toList_store hstore]
  · rw [if_neg hrest0, List.append_nil]
    refine ⟨ret, splits₁, ?_, hlen.symm, rfl⟩
    rw [hsplit, if_neg (show ¬ rest > 0 from hrest0)]

/-- **The array holds the sizes of the segments**, and the count is how many there are. No
write is outside the array. -/
theorem splitInto_leaves (hpos : 0 < segmentSize.toNat) (hfits : segmentSize.toNat < 2 ^ 16)
    (hsize : size.toNat / segmentSize.toNat < maxSplitPackets) (splits : Splits) :
    Leaves segmentSize splits size := by
  rcases Nat.lt_or_ge size.toNat segmentSize.toNat with hlt | hge
  · exact leaves_of_lt hlt splits
  · exact leaves_of_le hge hpos hfits hsize splits

end

end Razor
