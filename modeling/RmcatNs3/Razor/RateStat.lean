import Mathlib.Data.Vector.Defs
import RmcatNs3.Lib.CircularBuffer
import RmcatNs3.Lib.MachineInt
import RmcatNs3.Lib.Runs

/-!
# Rates over a sliding window

`razor/estimator/rate_stat.{c,h}`, with a window of `n` milliseconds: a bucket for each
of them, in a circular buffer. An index outside of the buckets is `none`. The rate that
is computed in floating point is a function of the count and the width of the window.
-/

namespace Razor

open MachineInt BoundedArray CircularBuffer Runs

/-- `rate_bucket_t`. -/
structure RateBucket where
  sum : Int
  sample : Int
  deriving DecidableEq, Repr

/-- `rate_stat_t`, with a window of size `n`. -/
structure RateStat (n : Nat) where
  oldestTs : Int
  oldestIndex : Nat
  buckets : Vector RateBucket n
  accumulatedCount : Int
  sampleNum : Int
  deriving DecidableEq, Repr

namespace RateStat

variable {n : Nat}

/-- `rate_stat_init`. -/
def init (n : Nat) : RateStat n where
  oldestTs := -1
  oldestIndex := 0
  buckets := .replicate n ⟨0, 0⟩
  accumulatedCount := 0
  sampleNum := 0

/-- `rate_stat_reset`. -/
def reset (_ : RateStat n) : RateStat n := init n

/-- The loop of `rate_stat_erase`, with `k` milliseconds to the new origin. -/
def eraseLoop : Nat → RateStat n → Option (RateStat n)
  | 0, rate => some rate
  | k + 1, rate =>
      if rate.sampleNum > 0 then do
        let bucket ← load rate.buckets rate.oldestIndex
        let buckets ← store rate.buckets rate.oldestIndex ⟨0, 0⟩
        eraseLoop k { rate with
          sampleNum := toSigned 32 (rate.sampleNum - bucket.sample)
          accumulatedCount := toSigned 32 (rate.accumulatedCount - bucket.sum)
          buckets
          oldestIndex := next n rate.oldestIndex
          oldestTs := rate.oldestTs + 1 }
      else some rate

/-- `rate_stat_erase`. -/
def erase (rate : RateStat n) (nowTs : Int) : Option (RateStat n) :=
  if rate.oldestTs = -1 then some rate
  else
    let newOldestTs := toSigned 32 (nowTs - n + 1)
    if newOldestTs ≤ rate.oldestTs then some rate
    else do
      let rate ← eraseLoop (newOldestTs - rate.oldestTs).toNat rate
      some { rate with oldestTs := newOldestTs }

/-- The end of `rate_stat_update`: a sample is put into its bucket. -/
def put (rate : RateStat n) (count : Nat) (nowTs : Int) : Option (RateStat n) := do
  let tsOffset := toSigned 32 (nowTs - rate.oldestTs)
  let index := (toSigned 32 (rate.oldestIndex + tsOffset)).tmod n
  let bucket ← loadInt rate.buckets index
  let buckets ← storeInt rate.buckets index
    ⟨toSigned 32 (bucket.sum + count), toSigned 32 (bucket.sample + 1)⟩
  some { rate with
    buckets
    sampleNum := toSigned 32 (rate.sampleNum + 1)
    accumulatedCount := toSigned 32 (rate.accumulatedCount + count) }

/-- `rate_stat_update`. -/
def update (rate : RateStat n) (count : Nat) (nowTs : Int) : Option (RateStat n) :=
  if rate.oldestTs > nowTs then some rate
  else do
    let rate ← rate.erase nowTs
    let rate := if rate.oldestTs = -1 then { rate with oldestTs := nowTs } else rate
    rate.put count nowTs

/-- `rate_stat_rate`; the result is the one it returns. -/
def rate (measure : Int → Int → Int) (rate : RateStat n) (nowTs : Int) :
    Option (Int × RateStat n) := do
  let rate ← rate.erase nowTs
  let activeWndSize := toSigned 32 (nowTs - rate.oldestTs + 1)
  if rate.sampleNum = 0 ∨ activeWndSize ≤ 1 ∨
      rate.sampleNum = 1 ∧ activeWndSize ≤ n then
    some (-1, rate)
  else some (measure rate.accumulatedCount activeWndSize, rate)

/-! ## The value of a window -/

variable {stat stat' : RateStat n} {nowTs : Int}

/-- `active_wnd_size` of `rate_stat_rate`. -/
def activeWndSize (stat : RateStat n) (nowTs : Int) : Int :=
  toSigned 32 (nowTs - stat.oldestTs + 1)

/-- There are too few samples for `rate_stat_rate`, or only those of one millisecond. -/
def Unmeasured (stat : RateStat n) (nowTs : Int) : Prop :=
  stat.sampleNum = 0 ∨ stat.activeWndSize nowTs ≤ 1 ∨
    stat.sampleNum = 1 ∧ stat.activeWndSize nowTs ≤ n

instance (stat : RateStat n) (nowTs : Int) : Decidable (stat.Unmeasured nowTs) :=
  inferInstanceAs (Decidable (_ ∨ _))

/-- What `rate_stat_rate` returns for samples of which the old ones are erased. -/
def value (measure : Int → Int → Int) (stat : RateStat n) (nowTs : Int) : Int :=
  if stat.Unmeasured nowTs then -1
  else measure stat.accumulatedCount (stat.activeWndSize nowTs)

theorem rate_eq (measure : Int → Int → Int) (stat : RateStat n) (nowTs : Int) :
    stat.rate measure nowTs
      = (stat.erase nowTs).map fun stat => (stat.value measure nowTs, stat) := by
  unfold RateStat.rate
  cases stat.erase nowTs with
  | none => rfl
  | some stat =>
      by_cases hnone : stat.Unmeasured nowTs
      · exact (if_pos hnone).trans (by rw [Option.map_some, value, if_pos hnone])
      · exact (if_neg hnone).trans (by rw [Option.map_some, value, if_neg hnone]; rfl)

/-- **What is erased** stays so until time goes on. -/
theorem erase_erase (h : stat.erase nowTs = some stat') : stat'.erase nowTs = some stat' := by
  unfold RateStat.erase at h
  by_cases hunset : stat.oldestTs = -1
  · rw [if_pos hunset] at h
    obtain rfl := Option.some.inj h
    exact if_pos hunset
  · rw [if_neg hunset] at h
    by_cases hle : toSigned 32 (nowTs - n + 1) ≤ stat.oldestTs
    · simp only [if_pos hle] at h
      obtain rfl := Option.some.inj h
      exact (if_neg hunset).trans (if_pos hle)
    · simp only [if_neg hle] at h
      obtain ⟨stat₁, -, h⟩ := Option.bind_eq_some_iff.mp h
      obtain rfl := Option.some.inj h
      unfold RateStat.erase
      simp only
      split
      · rfl
      · rw [if_pos (Int.le_refl _)]

/-! ## Samples -/

/-- The updates that have been made: the time and the count of each, oldest first. -/
abbrev Samples := List (Int × Nat)

/-- What the samples at some times weigh together. -/
def weight (w : Nat → Nat) (p : Int → Bool) (hist : Samples) : Nat :=
  (hist.map fun x => if p x.1 then w x.2 else 0).sum

variable {w : Nat → Nat} {p q : Int → Bool} {hist : Samples}

theorem weight_append (t : Int) (count : Nat) :
    weight w p (hist ++ [(t, count)]) = weight w p hist + if p t then w count else 0 := by
  simp [weight]

theorem weight_congr (h : ∀ x ∈ hist, p x.1 = q x.1) : weight w p hist = weight w q hist := by
  unfold weight
  congr 1
  apply List.map_congr_left
  intro x hx
  rw [h x hx]

theorem weight_eq_zero (h : ∀ x ∈ hist, p x.1 = false) : weight w p hist = 0 := by
  rw [weight_congr (q := fun _ => false) h]
  simp [weight]

/-- The samples from a time on are those at that time and those after it. -/
theorem weight_since (w : Nat → Nat) (o : Int) (hist : Samples) :
    weight w (o ≤ ·) hist = weight w (· = o) hist + weight w (o + 1 ≤ ·) hist := by
  induction hist with
  | nil => rfl
  | cons x hist ih =>
      simp only [weight, List.map_cons, List.sum_cons, decide_eq_true_eq] at ih ⊢
      rw [ih]
      split_ifs <;> omega

theorem weight_le (w : Nat → Nat) (o : Int) (k : Nat) (hist : Samples) :
    weight w (· = o + k) hist ≤ weight w (o ≤ ·) hist := by
  induction hist with
  | nil => exact Nat.le_refl 0
  | cons x hist ih =>
      simp only [weight, List.map_cons, List.sum_cons, decide_eq_true_eq] at ih ⊢
      split_ifs <;> omega

/-- No samples are counted from `o` on: there are none. -/
theorem lt_of_weight_eq_zero {o : Int} (h : weight (fun _ => 1) (o ≤ ·) hist = 0) :
    ∀ x ∈ hist, x.1 < o := by
  intro x hx
  by_contra hge
  rw [weight, List.sum_eq_zero_iff_forall_eq_nat] at h
  have hone := h _ (List.mem_map_of_mem hx)
  simp only [decide_eq_true_eq, if_pos (Int.not_lt.mp hge)] at hone
  exact absurd hone Nat.one_ne_zero

/-- The weight of the samples that are filtered. -/
theorem sum_filter (p : Int → Bool) (hist : Samples) :
    ((hist.filter (p ·.1)).map (·.2)).sum = weight id p hist := by
  induction hist with
  | nil => rfl
  | cons x hist ih =>
      simp only [weight, List.map_cons, List.sum_cons, List.filter_cons] at ih ⊢
      split_ifs with hp
      · rw [List.map_cons, List.sum_cons, ih]
        rfl
      · rw [ih, Nat.zero_add]

theorem length_filter (p : Int → Bool) (hist : Samples) :
    (hist.filter (p ·.1)).length = weight (fun _ => 1) p hist := by
  induction hist with
  | nil => rfl
  | cons x hist ih =>
      simp only [weight, List.map_cons, List.sum_cons, List.filter_cons] at ih ⊢
      split_ifs with hp
      · rw [List.length_cons, ih, Nat.add_comm]
      · rw [ih, Nat.zero_add]

/-! ## What the buckets hold -/

/-- The bucket of a time. -/
def bucketAt (hist : Samples) (t : Int) : RateBucket :=
  ⟨weight id (· = t) hist, weight (fun _ => 1) (· = t) hist⟩

/-- The buckets and the totals are those of the samples since `oldestTs`, which are
within a window of it. -/
structure Core (rate : RateStat n) (hist : Samples) : Prop where
  nonneg : 0 ≤ rate.oldestTs
  index : rate.oldestIndex < n
  moved : ∀ x ∈ hist.head?, rate.oldestIndex + x.1 ≤ rate.oldestTs
  within : ∀ x ∈ hist, x.1 < rate.oldestTs + n
  shows : Shows rate.buckets rate.oldestIndex fun k => bucketAt hist (rate.oldestTs + k)
  accumulated : rate.accumulatedCount = weight id (rate.oldestTs ≤ ·) hist
  samples : rate.sampleNum = weight (fun _ => 1) (rate.oldestTs ≤ ·) hist
  sums : (rate.buckets.toList.map (·.sum)).sum = rate.accumulatedCount
  counts : (rate.buckets.toList.map (·.sample)).sum = rate.sampleNum
  fits : rate.accumulatedCount < 2 ^ 31 ∧ rate.sampleNum < 2 ^ 31

variable {rate : RateStat n}

/-- The first update of all sets the origin. -/
theorem Core.init {t : Int} (hn : 0 < n) (ht : 0 ≤ t) :
    Core { RateStat.init n with oldestTs := t } [] where
  nonneg := ht
  index := hn
  moved := nofun
  within := nofun
  shows := by
    intro k hk
    have hcell : (0 + k) % n < n := Nat.mod_lt _ hn
    simp only [RateStat.init, load, Vector.getElem?_eq_getElem hcell, Vector.getElem_replicate]
    rfl
  accumulated := rfl
  samples := rfl
  sums := by simp [RateStat.init]
  counts := by simp [RateStat.init]
  fits := by simp [RateStat.init]

/-- No sample is left: the origin may move on as it likes. -/
theorem Core.empty (h : Core rate hist) (hnone : rate.sampleNum ≤ 0) (k : Nat) :
    Core { rate with oldestTs := rate.oldestTs + k } hist := by
  have hone := h.samples
  have hlt : ∀ x ∈ hist, x.1 < rate.oldestTs := lt_of_weight_eq_zero (by omega)
  have hnever : ∀ w (j : Int), 0 ≤ j → weight w (rate.oldestTs + j ≤ ·) hist = 0 := by
    intro w j hj
    apply weight_eq_zero
    intro x hx
    have hx := hlt x hx
    simp only [decide_eq_false_iff_not]
    omega
  -- all buckets are empty, so it does not matter which of them is the oldest
  have hbucket : ∀ j : Int, 0 ≤ j → bucketAt hist (rate.oldestTs + j) = ⟨0, 0⟩ := by
    intro j hj
    have hzero : ∀ w, weight w (· = rate.oldestTs + j) hist = 0 := by
      intro w
      have hsplit := weight_since w (rate.oldestTs + j) hist
      rw [hnever w j hj] at hsplit
      omega
    simp [bucketAt, hzero]
  refine ⟨by have := h.nonneg; simp only; omega, h.index, ?_, ?_, ?_, ?_, ?_, h.sums, h.counts,
    h.fits⟩
  · intro x hx
    have hx := h.moved x hx
    simp only
    omega
  · intro x hx
    have hx := h.within x hx
    simp only
    omega
  · apply h.shows.congr
    intro j _
    rw [hbucket j (Int.natCast_nonneg j), Int.add_assoc,
      hbucket (k + j) (by omega)]
  · have hzero := hnever id 0 (Int.le_refl 0)
    rw [Int.add_zero] at hzero
    rw [h.accumulated, hnever id k (Int.natCast_nonneg k), hzero]
  · have hzero := hnever (fun _ => 1) 0 (Int.le_refl 0)
    rw [Int.add_zero] at hzero
    rw [h.samples, hnever _ k (Int.natCast_nonneg k), hzero]

/-- The oldest bucket is emptied and becomes the last one. -/
theorem Core.advance (h : Core rate hist) {bucket : RateBucket} {buckets : Vector RateBucket n}
    (hload : load rate.buckets rate.oldestIndex = some bucket)
    (hstore : store rate.buckets rate.oldestIndex ⟨0, 0⟩ = some buckets) :
    Core { rate with
      sampleNum := toSigned 32 (rate.sampleNum - bucket.sample)
      accumulatedCount := toSigned 32 (rate.accumulatedCount - bucket.sum)
      buckets
      oldestIndex := next n rate.oldestIndex
      oldestTs := rate.oldestTs + 1 } hist := by
  -- the bucket that is emptied is that of the first millisecond of the window
  have hbucket : bucket = bucketAt hist rate.oldestTs := by
    have hshown := h.shows 0 (by have := h.index; omega)
    rw [Nat.add_zero, Nat.mod_eq_of_lt h.index, hload, Option.some.injEq] at hshown
    simpa using hshown
  have hsum := weight_since id rate.oldestTs hist
  have hcount := weight_since (fun _ => 1) rate.oldestTs hist
  have haccumulated := h.accumulated
  have hsamples := h.samples
  obtain ⟨hfit, hfit'⟩ := h.fits
  have hnum : toSigned 32 (rate.sampleNum - bucket.sample)
      = weight (fun _ => 1) (rate.oldestTs + 1 ≤ ·) hist := by
    rw [hbucket, bucketAt, toSigned_of_bounds] <;> dsimp only <;> omega
  have hacc : toSigned 32 (rate.accumulatedCount - bucket.sum)
      = weight id (rate.oldestTs + 1 ≤ ·) hist := by
    rw [hbucket, bucketAt, toSigned_of_bounds] <;> dsimp only <;> omega
  have hfits : toSigned 32 (rate.accumulatedCount - bucket.sum) < 2 ^ 31 ∧
      toSigned 32 (rate.sampleNum - bucket.sample) < 2 ^ 31 := ⟨by omega, by omega⟩
  refine ⟨by have := h.nonneg; simp only; omega, next_lt h.index, ?_, ?_, ?_, hacc, hnum, ?_, ?_,
    hfits⟩
  · intro x hx
    have hx := h.moved x hx
    have hle : next n rate.oldestIndex ≤ rate.oldestIndex + 1 := by
      unfold next
      split <;> omega
    simp only
    omega
  · intro x hx
    have hx := h.within x hx
    simp only
    omega
  · apply (h.shows.advance h.index hstore).congr
    intro k _
    split
    · -- nothing is in the last millisecond of the window yet
      rename_i hlast
      have hzero : ∀ w, weight w (· = rate.oldestTs + 1 + k) hist = 0 := by
        intro w
        apply weight_eq_zero
        intro x hx
        have hx := h.within x hx
        simp only [decide_eq_false_iff_not]
        omega
      simp [bucketAt, hzero]
    · rw [Int.add_assoc, Int.natCast_add, Int.add_comm 1]
      rfl
  · rw [sum_store (·.sum) hload hstore, h.sums, hacc, hbucket, bucketAt]
    dsimp only
    omega
  · rw [sum_store (·.sample) hload hstore, h.counts, hnum, hbucket, bucketAt]
    dsimp only
    omega

/-- **The loop** stops early only when no sample is left. -/
theorem Core.eraseLoop (h : Core rate hist) (k : Nat) :
    ∃ rate', RateStat.eraseLoop k rate = some rate' ∧
      Core { rate' with oldestTs := rate.oldestTs + k } hist := by
  induction k generalizing rate with
  | zero =>
      refine ⟨rate, rfl, ?_⟩
      rw [Int.natCast_zero, Int.add_zero]
      exact h
  | succ k ih =>
      by_cases hsome : rate.sampleNum > 0
      · obtain ⟨bucket, hload⟩ := load_isSome (a := rate.buckets) h.index
        obtain ⟨buckets, hstore⟩ := store_isSome (a := rate.buckets) h.index ⟨0, 0⟩
        obtain ⟨rate', hloop, hcore⟩ := ih (h.advance hload hstore)
        refine ⟨rate', ?_, ?_⟩
        · simp only [RateStat.eraseLoop, if_pos hsome, hload, hstore, Option.bind_eq_bind,
            Option.bind_some, hloop]
        · rwa [Int.add_assoc, Int.add_comm 1, ← Int.natCast_add_one] at hcore
      · exact ⟨rate, if_neg hsome, h.empty (Int.not_lt.mp hsome) (k + 1)⟩

/-- The cell of the `j`-th time of the window is written. -/
theorem put_eq {bucket : RateBucket} {buckets : Vector RateBucket n} {count j : Nat}
    (hj : j < 2 ^ 31) (hindex : rate.oldestIndex + j < 2 ^ 31)
    (hload : load rate.buckets ((rate.oldestIndex + j) % n) = some bucket)
    (hstore : store rate.buckets ((rate.oldestIndex + j) % n)
      ⟨toSigned 32 (bucket.sum + count), toSigned 32 (bucket.sample + 1)⟩ = some buckets) :
    rate.put count (rate.oldestTs + j) = some { rate with
      buckets
      sampleNum := toSigned 32 (rate.sampleNum + 1)
      accumulatedCount := toSigned 32 (rate.accumulatedCount + count) } := by
  have hoffset : toSigned 32 (rate.oldestTs + j - rate.oldestTs) = j := by
    rw [toSigned_of_bounds] <;> omega
  have hcell : (toSigned 32 (rate.oldestIndex + (j : Int))).tmod n
      = ((rate.oldestIndex + j) % n : Nat) := by
    rw [toSigned_of_bounds (by omega) (by omega), Int.tmod_eq_emod_of_nonneg (by omega),
      Int.natCast_emod, Int.natCast_add]
  simp only [put, hoffset, hcell, loadInt, storeInt, Int.natCast_nonneg, if_true,
    Int.toNat_natCast, hload, Option.bind_eq_bind, Option.bind_some, hstore]

theorem bucketAt_append {count : Nat} {t : Int} :
    bucketAt (hist ++ [(t, count)]) t
      = ⟨(bucketAt hist t).sum + count, (bucketAt hist t).sample + 1⟩ := by
  simp only [bucketAt, weight_append, decide_true, if_true, id, Int.natCast_add]
  rfl

theorem bucketAt_append_ne {count : Nat} {t t' : Int} (hne : t ≠ t') :
    bucketAt (hist ++ [(t, count)]) t' = bucketAt hist t' := by
  simp [bucketAt, weight_append, hne]

/-- A sample of the window is put into its bucket. -/
theorem Core.put (h : Core rate hist) {count : Nat} {t : Int} (hlow : rate.oldestTs ≤ t)
    (hhigh : t < rate.oldestTs + n) (hn : n < 2 ^ 31)
    (hindex : rate.oldestIndex + (t - rate.oldestTs) < 2 ^ 31)
    (hfirst : hist = [] → rate.oldestIndex + t ≤ rate.oldestTs)
    (hacc : rate.accumulatedCount + count < 2 ^ 31) (hnum : rate.sampleNum + 1 < 2 ^ 31) :
    ∃ rate', rate.put count t = some rate' ∧ rate'.oldestTs = rate.oldestTs ∧
      Core rate' (hist ++ [(t, count)]) := by
  obtain ⟨j, rfl⟩ := Int.le.dest hlow
  have hjn : j < n := by omega
  have hpos : 0 < n := by omega
  have hload := h.shows j hjn
  obtain ⟨buckets, hstore⟩ := store_isSome (a := rate.buckets)
    (Nat.mod_lt (rate.oldestIndex + j) hpos)
    (bucketAt (hist ++ [(rate.oldestTs + j, count)]) (rate.oldestTs + j))
  have hsum := weight_le id rate.oldestTs j hist
  have hcount := weight_le (fun _ => 1) rate.oldestTs j hist
  have haccumulated := h.accumulated
  have hsamples := h.samples
  have hbucket : (⟨toSigned 32 ((bucketAt hist (rate.oldestTs + j)).sum + count),
      toSigned 32 ((bucketAt hist (rate.oldestTs + j)).sample + 1)⟩ : RateBucket)
      = bucketAt (hist ++ [(rate.oldestTs + j, count)]) (rate.oldestTs + j) := by
    rw [bucketAt_append, bucketAt, toSigned_of_bounds, toSigned_of_bounds] <;> dsimp only <;> omega
  have hacc' : toSigned 32 (rate.accumulatedCount + count) = rate.accumulatedCount + count := by
    rw [toSigned_of_bounds] <;> omega
  have hnum' : toSigned 32 (rate.sampleNum + 1) = rate.sampleNum + 1 := by
    rw [toSigned_of_bounds] <;> omega
  have hsince : ∀ w, weight w (rate.oldestTs ≤ ·) (hist ++ [(rate.oldestTs + j, count)])
      = weight w (rate.oldestTs ≤ ·) hist + w count := by
    intro w
    rw [weight_append, decide_eq_true hlow]
    rfl
  -- the sums of the bucket are at most the totals, so nothing overflows
  have hput : rate.put count (rate.oldestTs + j) = _ :=
    put_eq (by omega) (by omega) hload (hbucket ▸ hstore)
  rw [hacc', hnum'] at hput
  refine ⟨_, hput, rfl, h.nonneg, h.index, ?_, ?_, ?_, ?_, ?_, ?_, ?_, hacc, hnum⟩
  · intro x hx
    cases hist with
    | nil =>
        obtain rfl := Option.some.inj hx
        exact hfirst rfl
    | cons y hist => exact h.moved x hx
  · intro x hx
    rcases List.mem_append.mp hx with hx | hx
    · exact h.within x hx
    · rw [List.mem_singleton.mp hx]
      exact hhigh
  · apply (h.shows.store hjn hstore).congr
    intro k _
    split
    · rename_i hk
      rw [hk]
    · rename_i hk
      have hne : rate.oldestTs + j ≠ rate.oldestTs + k := by omega
      exact (bucketAt_append_ne hne).symm
  · rw [hsince, Int.natCast_add, ← haccumulated]
    rfl
  · rw [hsince, Int.natCast_add, ← hsamples]
    rfl
  · rw [sum_store (·.sum) hload hstore, h.sums, bucketAt_append]
    simp only
    omega
  · rw [sum_store (·.sample) hload hstore, h.counts, bucketAt_append]
    simp only
    omega

end RateStat

end Razor
