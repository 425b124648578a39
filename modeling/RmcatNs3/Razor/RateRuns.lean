import RmcatNs3.Lib.Runs
import RmcatNs3.Razor.RateStat

/-!
# Runs of the rate statistics

The totals are those of the updates in the window as long as the start of the window
fits in an `int`: `rate_stat_erase` cuts it to 32 bits.
-/

namespace Razor

open MachineInt Runs RateStat

/-- The statistics, the updates that have been made and the time of the last call. -/
structure StatRun (n : Nat) where
  stat : RateStat n
  hist : Samples
  now : Int
  deriving DecidableEq

inductive StatOp where
  | update (count : Nat) (nowTs : Int)
  | rate (nowTs : Int)

/-- The time of a call. -/
def StatOp.nowTs : StatOp → Int
  | .update _ nowTs => nowTs
  | .rate nowTs => nowTs

namespace StatRun

variable {n : Nat}

def init (n : Nat) : StatRun n := ⟨.init n, [], 0⟩

/-- One call; a bucket that does not exist is `none`. -/
def call (measure : Int → Int → Int) (c : StatRun n) : StatOp → Option (StatRun n)
  | .update count nowTs =>
      (c.stat.update count nowTs).map fun stat => ⟨stat, c.hist ++ [(nowTs, count)], nowTs⟩
  | .rate nowTs => (c.stat.rate measure nowTs).map fun result => ⟨result.2, c.hist, nowTs⟩

/-- Time does not go back. -/
def Step (measure : Int → Int → Int) (c : StatRun n) (op : StatOp) (c' : StatRun n) : Prop :=
  c.now ≤ op.nowTs ∧ c.call measure op = some c'

/-- The updates in the window that ends at `now`. -/
def live (c : StatRun n) (now : Int) : Samples := c.hist.filter (now - n < ·.1)

/-- The totals are those of the window, and the buckets sum to them. -/
def Exact (c : StatRun n) : Prop :=
  c.stat.accumulatedCount = ((c.live c.now).map (·.2)).sum ∧
    c.stat.sampleNum = (c.live c.now).length ∧
    (c.stat.buckets.toList.map (·.sum)).sum = c.stat.accumulatedCount ∧
    (c.stat.buckets.toList.map (·.sample)).sum = c.stat.sampleNum

instance (c : StatRun n) : Decidable c.Exact := inferInstanceAs (Decidable (_ ∧ _))

/-- The start of the window fits in an `int`, or the first update of all is still in the
window. -/
def StartFits (c : StatRun n) (nowTs : Int) : Prop :=
  nowTs - n + 1 < 2 ^ 31 ∨ ∀ x ∈ c.hist.head?, nowTs - n < x.1

/-- The cell of an update fits in an `int`: twice the window does, or the time since the
first update. -/
def CellFits (c : StatRun n) (nowTs : Int) : Prop :=
  n ≤ 2 ^ 30 ∨ ∀ x ∈ c.hist.head?, nowTs - x.1 < 2 ^ 31

/-- What a call needs to keep the totals exact. -/
def Fits (c : StatRun n) : StatOp → Prop
  | .update count nowTs =>
      c.StartFits nowTs ∧ c.CellFits nowTs ∧
        ((c.live nowTs).map (·.2)).sum + count < 2 ^ 31 ∧ (c.live nowTs).length + 1 < 2 ^ 31
  | .rate nowTs => c.StartFits nowTs

theorem live_sum (c : StatRun n) (now : Int) :
    ((c.live now).map (·.2)).sum = weight id (now - n < ·) c.hist :=
  sum_filter (now - n < ·) c.hist

theorem live_length (c : StatRun n) (now : Int) :
    (c.live now).length = weight (fun _ => 1) (now - n < ·) c.hist :=
  length_filter (now - n < ·) c.hist

/-! ## The calls -/

/-- What holds between two calls once an update has been made. -/
structure Tracks (rate : RateStat n) (hist : Samples) (now : Int) : Prop where
  core : Core rate hist
  nonempty : hist ≠ []
  head : ∀ x ∈ hist.head?, x.1 ≤ rate.oldestTs
  older : ∀ x ∈ hist, x.1 < rate.oldestTs → x.1 + n ≤ now
  le : rate.oldestTs ≤ now

/-- What holds between two calls. -/
def Inv (c : StatRun n) : Prop :=
  0 ≤ c.now ∧ (c.stat = .init n ∧ c.hist = [] ∨ Tracks c.stat c.hist c.now)

variable {rate : RateStat n} {hist : Samples} {now nowTs : Int}

/-- The samples since the origin are those of the window. -/
theorem Tracks.weight_eq (h : Tracks rate hist now) (hnear : now < rate.oldestTs + n)
    (w : Nat → Nat) : weight w (now - n < ·) hist = weight w (rate.oldestTs ≤ ·) hist := by
  apply weight_congr
  intro x hx
  have hold := h.older x hx
  rw [decide_eq_decide]
  constructor <;> intro hlt <;> omega

/-- **The erasure** leaves what is in the window. -/
theorem Tracks.erase (h : Tracks rate hist now) (hn : 0 < n) (hnow : now ≤ nowTs)
    (hn' : n < 2 ^ 31)
    (hstart : nowTs - n + 1 < 2 ^ 31 ∨ ∀ x ∈ hist.head?, nowTs - n < x.1) :
    ∃ rate', rate.erase nowTs = some rate' ∧ Tracks rate' hist nowTs ∧
      nowTs < rate'.oldestTs + n := by
  have hnonneg := h.core.nonneg
  have hle := h.le
  have hset : rate.oldestTs ≠ -1 := by omega
  -- nothing is erased
  have hkept : nowTs - n + 1 ≤ rate.oldestTs → toSigned 32 (nowTs - n + 1) ≤ rate.oldestTs →
      ∃ rate', rate.erase nowTs = some rate' ∧ Tracks rate' hist nowTs ∧
        nowTs < rate'.oldestTs + n := by
    intro hstay hcut
    refine ⟨rate, (if_neg hset).trans (if_pos hcut), ⟨h.core, h.nonempty, h.head, ?_, ?_⟩, ?_⟩
    · intro x hx hlt
      exact Int.le_trans (h.older x hx hlt) hnow
    · omega
    · omega
  by_cases hfits : nowTs - n + 1 < 2 ^ 31
  · have hexact : toSigned 32 (nowTs - n + 1) = nowTs - n + 1 := by
      rw [toSigned_of_bounds (by omega) hfits]
    by_cases hstay : nowTs - n + 1 ≤ rate.oldestTs
    · exact hkept hstay (by rwa [hexact])
    · obtain ⟨rate', hloop, hcore⟩ := h.core.eraseLoop (nowTs - n + 1 - rate.oldestTs).toNat
      rw [show rate.oldestTs + ((nowTs - n + 1 - rate.oldestTs).toNat : Int) = nowTs - n + 1 by
        omega] at hcore
      refine ⟨{ rate' with oldestTs := nowTs - n + 1 }, ?_,
        ⟨hcore, h.nonempty, ?_, ?_, ?_⟩, ?_⟩
      · have hgo : ¬toSigned 32 (nowTs - n + 1) ≤ rate.oldestTs := by rwa [hexact]
        have herase : rate.erase nowTs = (do
            let rate' ← RateStat.eraseLoop (toSigned 32 (nowTs - n + 1) - rate.oldestTs).toNat rate
            some { rate' with oldestTs := toSigned 32 (nowTs - n + 1) }) :=
          (if_neg hset).trans (if_neg hgo)
        rw [herase, hexact, hloop]
        rfl
      · intro x hx
        have hx := h.head x hx
        simp only
        omega
      · intro x _ hlt
        simp only at hlt
        omega
      · simp only
        omega
      · simp only
        omega
  · -- the cut start of the window is before the first update
    obtain ⟨x, hist', rfl⟩ := List.exists_cons_of_ne_nil h.nonempty
    have hfirst := hstart.resolve_left hfits x rfl
    have hhead := h.head x rfl
    have hcut : toSigned 32 (nowTs - n + 1) < 2 ^ 31 := by
      have := Int.bmod_lt (x := nowTs - n + 1) (m := 2 ^ 32) (by decide)
      unfold toSigned
      omega
    exact hkept (by omega) (by omega)

/-- An update at a time of the window is counted. -/
theorem Tracks.put (h : Tracks rate hist now) {count : Nat} (hnear : now < rate.oldestTs + n)
    (hn : n < 2 ^ 31) (hcell : n ≤ 2 ^ 30 ∨ ∀ x ∈ hist.head?, now - x.1 < 2 ^ 31)
    (hsum : weight id (now - n < ·) hist + count < 2 ^ 31)
    (hcount : weight (fun _ => 1) (now - n < ·) hist + 1 < 2 ^ 31) :
    ∃ rate', rate.put count now = some rate' ∧ Tracks rate' (hist ++ [(now, count)]) now ∧
      now < rate'.oldestTs + n := by
  have hle := h.le
  have hindex := h.core.index
  obtain ⟨x, hist', rfl⟩ := List.exists_cons_of_ne_nil h.nonempty
  have hmoved := h.core.moved x rfl
  rw [h.weight_eq hnear] at hsum hcount
  obtain ⟨rate', hput, hts, hcore⟩ := @Core.put _ _ _ h.core count _ hle hnear hn
    (by
      rcases hcell with hsmall | hearly
      · omega
      · have hearly := hearly x rfl
        omega)
    nofun (by rw [h.core.accumulated]; exact_mod_cast hsum)
    (by rw [h.core.samples]; exact_mod_cast hcount)
  refine ⟨rate', hput, ⟨hcore, by simp, ?_, ?_, by rwa [hts]⟩, by rwa [hts]⟩
  · intro y hy
    rw [hts]
    exact h.head y hy
  · intro y hy hlt
    rw [hts] at hlt
    rcases List.mem_append.mp hy with hy | hy
    · exact h.older y hy hlt
    · rw [List.mem_singleton.mp hy] at hlt
      omega

/-- The first update of all. -/
theorem first_put {count : Nat} (hn : 0 < n) (hn' : n < 2 ^ 31) (hnow : 0 ≤ now)
    (hfits : count < 2 ^ 31) :
    ∃ rate', ({ RateStat.init n with oldestTs := now }).put count now = some rate' ∧
      Tracks rate' [(now, count)] now ∧ now < rate'.oldestTs + n := by
  obtain ⟨rate', hput, hts, hcore⟩ := @Core.put _ _ _ (Core.init hn hnow) count now
    (Int.le_refl now) (by simp only; omega) hn' (by simp [RateStat.init]) (fun _ => by
      simp [RateStat.init]) (by simp only [RateStat.init]; omega) (by simp [RateStat.init])
  have horigin : rate'.oldestTs = now := hts
  refine ⟨rate', hput, ⟨hcore, by simp, ?_, ?_, by omega⟩, by omega⟩
  · intro x hx
    obtain rfl := Option.some.inj hx
    exact Int.le_of_eq horigin.symm
  · intro x hx hlt
    rw [List.mem_singleton.mp hx] at hlt
    simp only at hlt
    omega

variable {measure : Int → Int → Int} {c : StatRun n} {op : StatOp} {ops : List StatOp}

theorem update_eq {count : Nat} (hle : rate.oldestTs ≤ nowTs) :
    rate.update count nowTs = (rate.erase nowTs).bind fun rate =>
      (if rate.oldestTs = -1 then { rate with oldestTs := nowTs } else rate).put count nowTs :=
  if_neg (Int.not_lt.mpr hle)

/-- The totals of what is tracked. -/
theorem Tracks.exact (h : Tracks rate hist now) (hnear : now < rate.oldestTs + n) :
    Exact ⟨rate, hist, now⟩ := by
  refine ⟨?_, ?_, h.core.sums, h.core.counts⟩
  · rw [live_sum, h.weight_eq hnear, h.core.accumulated]
  · rw [live_length, h.weight_eq hnear, h.core.samples]

/-- **One call** finds its buckets, and keeps the totals exact. -/
theorem Inv.call (h : Inv c) (hn : 0 < n) (hn' : n < 2 ^ 31) (hnow : c.now ≤ op.nowTs)
    (hfits : c.Fits op) : ∃ c', c.call measure op = some c' ∧ Inv c' ∧ c'.Exact := by
  obtain ⟨rate, hist, now⟩ := c
  obtain ⟨hnonneg, hinv⟩ := h
  cases op with
  | update count nowTs =>
      obtain ⟨hstart, hcell, hsum, hcount⟩ := hfits
      simp only [StatOp.nowTs] at hnow hnonneg
      rw [live_sum] at hsum
      rw [live_length] at hcount
      have hdone : ∃ rate', rate.update count nowTs = some rate' ∧
          Tracks rate' (hist ++ [(nowTs, count)]) nowTs ∧ nowTs < rate'.oldestTs + n := by
        rcases hinv with ⟨hinit, hempty⟩ | htracks
        · simp only at hinit hempty
          subst hinit hempty
          have hlate : (RateStat.init n).oldestTs ≤ nowTs := by
            simp only [RateStat.init]
            omega
          rw [update_eq hlate]
          -- the first update of all sets the origin
          exact first_put hn hn' (by omega) (by omega)
        · have hlate : rate.oldestTs ≤ nowTs := Int.le_trans htracks.le hnow
          obtain ⟨rate₁, herase, htracks₁, hnear₁⟩ := htracks.erase hn hnow hn' hstart
          -- an origin that has been set is never `-1` again
          have hset : rate₁.oldestTs ≠ -1 := by
            have := htracks₁.core.nonneg
            omega
          rw [update_eq hlate, herase, Option.bind_some, if_neg hset]
          exact htracks₁.put hnear₁ hn' hcell hsum hcount
      obtain ⟨rate', hupdate, htracks, hnear⟩ := hdone
      refine ⟨⟨rate', hist ++ [(nowTs, count)], nowTs⟩, ?_, ⟨by simp only; omega, .inr htracks⟩,
        htracks.exact hnear⟩
      simp only [StatRun.call, hupdate, Option.map_some]
  | rate nowTs =>
      simp only [StatOp.nowTs] at hnow hnonneg
      have hdone : ∃ rate', rate.erase nowTs = some rate' ∧
          Inv ⟨rate', hist, nowTs⟩ ∧ Exact ⟨rate', hist, nowTs⟩ := by
        rcases hinv with ⟨hinit, hempty⟩ | htracks
        · simp only at hinit hempty
          subst hinit hempty
          refine ⟨.init n, rfl, ⟨by simp only; omega, .inl ⟨rfl, rfl⟩⟩, ?_⟩
          simp [Exact, live, RateStat.init]
        · obtain ⟨rate', herase, htracks', hnear⟩ := htracks.erase hn hnow hn' hfits
          exact ⟨rate', herase, ⟨by simp only; omega, .inr htracks'⟩, htracks'.exact hnear⟩
      obtain ⟨rate', herase, hinv', hexact⟩ := hdone
      refine ⟨⟨rate', hist, nowTs⟩, ?_, hinv', hexact⟩
      simp only [StatRun.call, RateStat.rate_eq, herase, Option.map_some]

theorem inv_of_run (hn : 0 < n) (hn' : n < 2 ^ 31)
    (hrun : Run (fun c op c' => Step measure c op c' ∧ Fits c op) (init n) ops c) : Inv c := by
  apply hrun.stateInvariant (I := Inv) ⟨Int.le_refl 0, .inl ⟨rfl, rfl⟩⟩
  intro s e s' hi hstep
  obtain ⟨s₁, hcall, hi', -⟩ := @Inv.call _ measure _ _ hi hn hn' hstep.1.1 hstep.2
  rw [hstep.1.2, Option.some.injEq] at hcall
  exact hcall ▸ hi'

/-- **Every call keeps the totals exact**, in a run in which the start of every window
and the counts fit in an `int`. -/
theorem exact_of_run (hn : 0 < n) (hn' : n < 2 ^ 31)
    (hrun : Run (fun c op c' => Step measure c op c' ∧ Fits c op) (init n) ops c)
    (hnow : c.now ≤ op.nowTs) (hfits : c.Fits op) :
    ∃ c', c.call measure op = some c' ∧ c'.Exact := by
  have hinv : Inv c := inv_of_run hn hn' hrun
  obtain ⟨c', hcall, -, hexact⟩ := @Inv.call _ measure _ _ hinv hn hn' hnow hfits
  exact ⟨c', hcall, hexact⟩

/-- **A single sample is no rate**; two are, unless all are of the last millisecond. -/
theorem rate_of_run (hn : 0 < n) (hn' : n < 2 ^ 31)
    (hrun : Run (fun c op c' => Step measure c op c' ∧ Fits c op) (init n) ops c)
    (hnow : c.now ≤ nowTs) (hstart : c.StartFits nowTs) :
    ∃ stat, c.stat.rate measure nowTs = some (stat.value measure nowTs, stat) ∧
      ((c.live nowTs).length ≤ 1 → stat.value measure nowTs = -1) ∧
      (2 ≤ (c.live nowTs).length → (∃ x ∈ c.live nowTs, x.1 < nowTs) →
        ∃ wndSize : Int, 1 < wndSize ∧ wndSize ≤ n ∧ stat.value measure nowTs
          = measure (((c.live nowTs).map (·.2)).sum : Nat) wndSize) := by
  obtain ⟨stat, hist, now⟩ := c
  rcases (inv_of_run hn hn' hrun).2 with ⟨hinit, hempty⟩ | htracks
  · simp only at hinit hempty
    subst hinit hempty
    exact ⟨.init n, rfl, fun _ => rfl, fun htwo => absurd htwo (Nat.not_succ_le_zero 1)⟩
  · obtain ⟨stat', herase, htracks', hnear⟩ := htracks.erase hn hnow hn' hstart
    obtain ⟨hsum, hlength, -, -⟩ := htracks'.exact hnear
    have hle := htracks'.le
    have hwnd : stat'.activeWndSize nowTs = nowTs - stat'.oldestTs + 1 :=
      toSigned_of_bounds (by omega) (by omega)
    refine ⟨stat', by rw [RateStat.rate_eq, herase, Option.map_some], ?_, ?_⟩
    · intro hone
      have hone : stat'.sampleNum ≤ 1 := by
        rw [hlength]
        exact Int.ofNat_le.mpr hone
      have hnonneg : 0 ≤ stat'.sampleNum := by
        rw [hlength]
        exact Int.natCast_nonneg _
      exact if_pos (by unfold RateStat.Unmeasured; omega)
    · rintro htwo ⟨x, hx, hbefore⟩
      have htwo : 2 ≤ stat'.sampleNum := by
        rw [hlength]
        exact Int.ofNat_le.mpr htwo
      -- a sample of the window is not before its origin
      obtain ⟨hmem, hin⟩ := List.mem_filter.mp hx
      have hin : nowTs - n < x.1 := of_decide_eq_true hin
      have horigin : stat'.oldestTs ≤ x.1 := by
        by_contra hlt
        have := htracks'.older x hmem (Int.not_le.mp hlt)
        omega
      refine ⟨stat'.activeWndSize nowTs, by omega, by omega, ?_⟩
      have hsome : ¬stat'.Unmeasured nowTs := by
        unfold RateStat.Unmeasured
        omega
      rw [RateStat.value, if_neg hsome, hsum]
      rfl

/-- Two updates, and the rate once the first one has left a window of 10 ms. -/
theorem exact_of_run_twoUpdates :
    ∃ c c' : StatRun 10, Run (Step fun _ _ => 0) (init 10) [.update 5 3, .update 7 8] c ∧
      c.call (fun _ _ => 0) (.rate 14) = some c' ∧ c'.Exact ∧ c'.live 14 = [(8, 7)] := by
  have hrun : Run (fun c op c' => Step (fun _ _ => 0) c op c' ∧ Fits c op) (init 10)
      [.update 5 3, .update 7 8] _ :=
    .snoc (.snoc .nil ⟨⟨by decide, rfl⟩, .inl (by decide), .inl (by decide), by decide, by decide⟩)
      ⟨⟨by decide, rfl⟩, .inl (by decide), .inl (by decide), by decide, by decide⟩
  obtain ⟨c', hcall, hexact⟩ := @exact_of_run _ _ _ (.rate 14) _ (by decide) (by decide) hrun
    (by decide) (.inl (by decide))
  refine ⟨_, c', hrun.mono fun _ _ _ h => h.1, hcall, hexact, ?_⟩
  obtain rfl := Option.some.inj hcall
  decide

/-- The start of the window does not fit: the first update is counted for ever. -/
theorem not_exact_late :
    ∃ c c' : StatRun 10, Run (Step fun _ _ => 0) (init 10) [.update 1 (2 ^ 31 + 100)] c ∧
      Step (fun _ _ => 0) c (.update 1 (2 ^ 31 + 200)) c' ∧
      c'.live c'.now = [(2 ^ 31 + 200, 1)] ∧ c'.stat.accumulatedCount = 2 ∧ ¬c'.Exact := by
  refine ⟨_, _, .snoc .nil ⟨by decide, rfl⟩, ⟨by decide, rfl⟩, ?_, ?_, ?_⟩ <;> decide

end StatRun

end Razor
