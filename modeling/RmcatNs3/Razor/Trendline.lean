import RmcatNs3.Lib.LeastSquares
import RmcatNs3.Lib.MachineInt
import RmcatNs3.Lib.Runs

/-!
# The trend of the delay

`razor/estimator/trendline.{c,h}`, with the elements of an ordered field for `double` and exact
arithmetic on them. The queue is not initialised by its allocation. The trend that is computed
is the slope of the line that fits the smoothed delays of the last inputs best.
-/

namespace Razor

open MachineInt Runs Finset

/-- `delay_hist_t`. -/
structure DelayHist (𝕜 : Type*) where
  arrivalDelta : 𝕜
  smoothedDelay : 𝕜

/-- `trendline_estimator_t`. -/
structure TrendlineEstimator (𝕜 : Type*) (windowSize : Nat) where
  smoothingCoef : 𝕜
  thresholdGain : 𝕜
  numOfDeltas : Nat
  firstArrivalTs : Int
  accDelay : 𝕜
  smoothedDelay : 𝕜
  trendline : 𝕜
  index : Int
  que : Vector (DelayHist 𝕜) windowSize

/-- The arguments of `trendline_update`. -/
structure TrendInput (𝕜 : Type*) where
  recvDeltaMs : 𝕜
  sendDeltaMs : 𝕜
  arrivalTs : Int

namespace TrendlineEstimator

variable {𝕜 : Type*} {windowSize : Nat}

/-- `trendline_create`, with what `malloc` returns. -/
def create [Zero 𝕜] (smoothingCoef thresholdGain : 𝕜)
    (block : Vector (DelayHist 𝕜) windowSize) : TrendlineEstimator 𝕜 windowSize where
  smoothingCoef
  thresholdGain
  numOfDeltas := 0
  firstArrivalTs := -1
  accDelay := 0
  smoothedDelay := 0
  trendline := 0
  index := 0
  que := block

variable [Field 𝕜]

/-- `trendline_slope`. -/
def slope (est : TrendlineEstimator 𝕜 windowSize) : 𝕜 := est.thresholdGain * est.trendline

/-- The part of `trendline_update` before the queue. -/
def accumulate (est : TrendlineEstimator 𝕜 windowSize) (input : TrendInput 𝕜) :
    TrendlineEstimator 𝕜 windowSize :=
  let accDelay := est.accDelay + (input.recvDeltaMs - input.sendDeltaMs)
  { est with
    numOfDeltas := toUnsigned 32 (est.numOfDeltas + 1)
    firstArrivalTs := if est.firstArrivalTs = -1 then input.arrivalTs else est.firstArrivalTs
    accDelay
    smoothedDelay :=
      est.smoothingCoef * est.smoothedDelay + (1 - est.smoothingCoef) * accDelay }

/-- The part of `trendline_update` that fills the queue. The index is converted to `size_t`
where it meets the window. -/
def enqueue (est : TrendlineEstimator 𝕜 windowSize) (arrivalTs : Int) :
    TrendlineEstimator 𝕜 windowSize :=
  let hist : DelayHist 𝕜 := ⟨(arrivalTs - est.firstArrivalTs : Int), est.smoothedDelay⟩
  { est with
    que := est.que.setIfInBounds (toUnsigned 64 est.index % windowSize) hist
    index := toSigned 32 (est.index + 1) }

/-! ## The delays -/

/-- The delay that has been accumulated from some inputs. -/
def accumulated (inputs : List (TrendInput 𝕜)) : 𝕜 :=
  (inputs.map fun input => input.recvDeltaMs - input.sendDeltaMs).sum

/-- The exponential average of the accumulated delays. -/
def smoothed (coef : 𝕜) (inputs : List (TrendInput 𝕜)) : 𝕜 :=
  ∑ k ∈ range inputs.length,
    (1 - coef) * coef ^ (inputs.length - 1 - k) * accumulated (inputs.take (k + 1))

/-- When the first of some inputs arrived. -/
def firstArrival (inputs : List (TrendInput 𝕜)) : Int :=
  (inputs.head?.map (·.arrivalTs)).getD (-1)

/-- When the last of some inputs arrived. -/
def lastArrival (inputs : List (TrendInput 𝕜)) : Int :=
  (inputs.getLast?.map (·.arrivalTs)).getD (-1)

/-- The point that the last of some inputs adds. -/
def point (coef : 𝕜) (inputs : List (TrendInput 𝕜)) : DelayHist 𝕜 :=
  ⟨(lastArrival inputs - firstArrival inputs : Int), smoothed coef inputs⟩

theorem accumulated_append (inputs : List (TrendInput 𝕜)) (input : TrendInput 𝕜) :
    accumulated (inputs ++ [input]) =
      accumulated inputs + (input.recvDeltaMs - input.sendDeltaMs) := by
  simp [accumulated]

/-- The average is carried on from one input to the next. -/
theorem smoothed_append (coef : 𝕜) (inputs : List (TrendInput 𝕜)) (input : TrendInput 𝕜) :
    smoothed coef (inputs ++ [input]) =
      coef * smoothed coef inputs + (1 - coef) * accumulated (inputs ++ [input]) := by
  have hlength : (inputs ++ [input]).length = inputs.length + 1 := List.length_append
  rw [smoothed, smoothed, hlength, sum_range_succ, mul_sum]
  congr 1
  · apply sum_congr rfl
    intro k hk
    have hlt := mem_range.mp hk
    have hpow : inputs.length + 1 - 1 - k = (inputs.length - 1 - k) + 1 := by omega
    rw [hpow, pow_succ, List.take_append_of_le_length (by omega)]
    ring
  · have htake : (inputs ++ [input]).take (inputs.length + 1) = inputs ++ [input] :=
      List.take_of_length_le (by omega)
    rw [htake, Nat.add_sub_cancel, Nat.sub_self, pow_zero, mul_one]

/-! ## Inputs -/

/-- What an estimator holds after some inputs. -/
structure Follows (coef gain : 𝕜) (inputs : List (TrendInput 𝕜))
    (est : TrendlineEstimator 𝕜 windowSize) : Prop where
  smoothingCoef : est.smoothingCoef = coef
  thresholdGain : est.thresholdGain = gain
  index : est.index = inputs.length
  firstArrivalTs : est.firstArrivalTs = firstArrival inputs
  accDelay : est.accDelay = accumulated inputs
  smoothedDelay : est.smoothedDelay = smoothed coef inputs
  que : ∀ k < inputs.length, inputs.length ≤ k + windowSize →
    est.que[k % windowSize]? = some (point coef (inputs.take (k + 1)))

variable {coef gain : 𝕜} {inputs : List (TrendInput 𝕜)} {est : TrendlineEstimator 𝕜 windowSize}
  {input : TrendInput 𝕜}

theorem create_follows (block : Vector (DelayHist 𝕜) windowSize) :
    Follows coef gain [] (create coef gain block) where
  smoothingCoef := rfl
  thresholdGain := rfl
  index := rfl
  firstArrivalTs := rfl
  accDelay := rfl
  smoothedDelay := rfl
  que := fun _ hk => absurd hk (Nat.not_lt_zero _)

/-- One more input. An arrival at `-1` would be taken for none. -/
theorem Follows.record (h : Follows coef gain inputs est) (hwindow : 0 < windowSize)
    (harrivals : ∀ p ∈ inputs, p.arrivalTs ≠ -1) (hmany : inputs.length + 1 < 2 ^ 31) :
    Follows coef gain (inputs ++ [input])
      ((est.accumulate input).enqueue input.arrivalTs) := by
  have hlength : (inputs ++ [input]).length = inputs.length + 1 := List.length_append
  have hacc : (est.accumulate input).accDelay = accumulated (inputs ++ [input]) := by
    rw [accumulated_append, ← h.accDelay]
    rfl
  have hsmoothed : (est.accumulate input).smoothedDelay = smoothed coef (inputs ++ [input]) := by
    rw [smoothed_append, ← hacc, ← h.smoothedDelay, ← h.smoothingCoef]
    rfl
  have hfirst : (est.accumulate input).firstArrivalTs = firstArrival (inputs ++ [input]) := by
    show (if est.firstArrivalTs = -1 then input.arrivalTs else est.firstArrivalTs) = _
    rw [h.firstArrivalTs]
    cases inputs with
    | nil => rfl
    | cons p inputs => exact if_neg (harrivals p List.mem_cons_self)
  have hslot : toUnsigned 64 (est.accumulate input).index = inputs.length := by
    show toUnsigned 64 est.index = _
    rw [h.index]
    exact toUnsigned_of_lt (by omega)
  refine ⟨h.smoothingCoef, h.thresholdGain, ?_, hfirst, hacc, hsmoothed, ?_⟩
  · show toSigned 32 (est.index + 1) = _
    rw [h.index, hlength, toSigned_of_bounds (by omega) (by omega)]
    rfl
  intro k hk hrecent
  show (est.que.setIfInBounds (toUnsigned 64 (est.accumulate input).index % windowSize) _)[_]? = _
  rw [hslot, hsmoothed, hfirst]
  by_cases hlast : k = inputs.length
  · subst hlast
    rw [Vector.getElem?_setIfInBounds_self_of_lt (Nat.mod_lt _ hwindow),
      List.take_of_length_le (by omega), point, lastArrival, List.getLast?_concat]
    rfl
  · -- the inputs in the window fall on slots of their own
    have hslots : inputs.length % windowSize ≠ k % windowSize := by
      intro heq
      have hdvd := (Nat.modEq_iff_dvd' (by omega : k ≤ inputs.length)).mp heq.symm
      have hle := Nat.le_of_dvd (by omega) hdvd
      omega
    rw [Vector.getElem?_setIfInBounds_ne hslots, List.take_append_of_le_length (by omega)]
    exact h.que k (by omega) (by omega)

/-- Only the trend depends on the slope. -/
theorem Follows.withTrendline (h : Follows coef gain inputs est) (trendline : 𝕜) :
    Follows coef gain inputs { est with trendline } :=
  ⟨h.smoothingCoef, h.thresholdGain, h.index, h.firstArrivalTs, h.accDelay, h.smoothedDelay, h.que⟩

/-! ## The line -/

variable [LinearOrder 𝕜]

/-- `linear_fit_slope`. -/
def linearFitSlope (que : Vector (DelayHist 𝕜) windowSize) : 𝕜 :=
  let avgX := (∑ i : Fin windowSize, que[i].arrivalDelta) / windowSize
  let avgY := (∑ i : Fin windowSize, que[i].smoothedDelay) / windowSize
  let numerator :=
    ∑ i : Fin windowSize, (que[i].arrivalDelta - avgX) * (que[i].smoothedDelay - avgY)
  let denominator :=
    ∑ i : Fin windowSize, (que[i].arrivalDelta - avgX) * (que[i].arrivalDelta - avgX)
  if denominator ≠ 0 then numerator / denominator else 0

/-- `trendline_update`. -/
def update (est : TrendlineEstimator 𝕜 windowSize) (input : TrendInput 𝕜) :
    TrendlineEstimator 𝕜 windowSize :=
  let est := (est.accumulate input).enqueue input.arrivalTs
  if toUnsigned 64 est.index ≥ windowSize then { est with trendline := linearFitSlope est.que }
  else est

/-- The slope of the queue is that of the line that fits it best. -/
theorem linearFitSlope_eq (que : Vector (DelayHist 𝕜) windowSize) :
    linearFitSlope que = LeastSquares.slope univ (fun i : Fin windowSize => que[i].arrivalDelta)
      (fun i : Fin windowSize => que[i].smoothedDelay) := by
  have hcard : (#(univ : Finset (Fin windowSize)) : 𝕜) = windowSize := by
    rw [card_univ, Fintype.card_fin]
  rw [LeastSquares.slope, LeastSquares.covariance, LeastSquares.covariance, LeastSquares.mean,
    LeastSquares.mean, hcard]
  unfold linearFitSlope
  extract_lets avgX avgY numerator denominator
  by_cases hzero : denominator = 0
  · rw [if_neg (not_not.mpr hzero)]
    exact ((congrArg (numerator / ·) hzero).trans (div_zero numerator)).symm
  · exact if_pos hzero

/-! ## Runs -/

/-- The inputs whose delays the line is fitted to, one for each slot of the queue. -/
def window (windowSize : Nat) (inputs : List (TrendInput 𝕜)) (i : Fin windowSize) :
    List (TrendInput 𝕜) :=
  inputs.take (inputs.length - windowSize + i + 1)

theorem Follows.update (h : Follows coef gain inputs est) (hwindow : 0 < windowSize)
    (harrivals : ∀ p ∈ inputs, p.arrivalTs ≠ -1) (hmany : inputs.length + 1 < 2 ^ 31) :
    Follows coef gain (inputs ++ [input]) (est.update input) ∧
      (est.update input).trendline = if windowSize ≤ inputs.length + 1 then
        linearFitSlope (est.update input).que else est.trendline := by
  have hrecord : Follows coef gain (inputs ++ [input])
      ((est.accumulate input).enqueue input.arrivalTs) := h.record hwindow harrivals hmany
  have hindex : toUnsigned 64 ((est.accumulate input).enqueue input.arrivalTs).index =
      inputs.length + 1 := by
    rw [hrecord.index, toUnsigned_of_lt (by rw [List.length_append]; simp; omega)]
    exact List.length_append
  unfold TrendlineEstimator.update
  simp only [hindex]
  split
  · exact ⟨hrecord.withTrendline _, rfl⟩
  · exact ⟨hrecord, rfl⟩

theorem follows_of_run (block : Vector (DelayHist 𝕜) windowSize) (hwindow : 0 < windowSize)
    (hmany : inputs.length < 2 ^ 31) (harrivals : ∀ p ∈ inputs, p.arrivalTs ≠ -1) :
    let est := inputs.foldl TrendlineEstimator.update (create coef gain block)
    Follows coef gain inputs est ∧
      (windowSize ≤ inputs.length → est.trendline = linearFitSlope est.que) := by
  induction inputs using List.reverseRecOn with
  | nil => exact ⟨create_follows block, fun hle => absurd hwindow (Nat.not_lt.mpr hle)⟩
  | append_singleton inputs input ih =>
      rw [List.length_append, List.length_singleton] at hmany
      have hbefore := fun p hp => harrivals p (List.mem_append_left _ hp)
      rw [List.foldl_append, List.length_append]
      obtain ⟨hfollows, hline⟩ := (ih (by omega) hbefore).1.update hwindow hbefore hmany
      exact ⟨hfollows, fun hlong => hline.trans (if_pos hlong)⟩

/-- The slots of the queue hold the last inputs, in an order that goes round. -/
theorem Follows.slope_que (h : Follows coef gain inputs est) (hwindow : 0 < windowSize)
    (hlong : windowSize ≤ inputs.length) :
    linearFitSlope est.que =
      LeastSquares.slope univ (fun i => (point coef (window windowSize inputs i)).arrivalDelta)
        (fun i => (point coef (window windowSize inputs i)).smoothedDelay) := by
  have hne : NeZero windowSize := ⟨by omega⟩
  let turned : Fin windowSize ≃ Fin windowSize :=
    Equiv.addRight ⟨(inputs.length - windowSize) % windowSize, Nat.mod_lt _ hwindow⟩
  have hslot : ∀ i, est.que[turned i] = point coef (window windowSize inputs i) := by
    intro i
    have hval : (turned i).val = (inputs.length - windowSize + i) % windowSize := by
      show (i + (inputs.length - windowSize) % windowSize) % windowSize = _
      rw [Nat.add_mod_mod, Nat.add_comm]
    have hque := h.que (inputs.length - windowSize + i) (by omega) (by omega)
    rw [← hval] at hque
    exact (Vector.getElem?_eq_some_iff.mp hque).2
  rw [linearFitSlope_eq, ← LeastSquares.slope_comp_equiv turned]
  congr 1
  · ext i
    exact congrArg DelayHist.arrivalDelta (hslot i)
  · ext i
    exact congrArg DelayHist.smoothedDelay (hslot i)

/-- **The trend is the best line.** After a window of inputs the trend is the slope of the line
through the last smoothed delays that leaves the least squares, wherever the queue starts, and
without any that the queue held when it was allocated. -/
theorem trend_of_run [IsStrictOrderedRing 𝕜] (block : Vector (DelayHist 𝕜) windowSize)
    (hwindow : 0 < windowSize) (hlong : windowSize ≤ inputs.length)
    (hmany : inputs.length < 2 ^ 31) (harrivals : ∀ p ∈ inputs, p.arrivalTs ≠ -1) :
    let x := fun i => (point coef (window windowSize inputs i)).arrivalDelta
    let y := fun i => (point coef (window windowSize inputs i)).smoothedDelay
    let trend := (inputs.foldl update (create coef gain block)).trendline
    trend = LeastSquares.slope univ x y ∧
      ∀ a b, LeastSquares.residual univ x y
          (LeastSquares.mean univ y - trend * LeastSquares.mean univ x) trend
        ≤ LeastSquares.residual univ x y a b := by
  intro x y trend
  have htrend : trend = LeastSquares.slope univ x y := by
    obtain ⟨hfollows, hline⟩ :=
      @follows_of_run _ _ _ coef gain inputs _ block hwindow hmany harrivals
    rw [← hfollows.slope_que hwindow hlong]
    exact hline hlong
  refine ⟨htrend, fun a b => ?_⟩
  rw [htrend]
  exact LeastSquares.residual_slope_le univ x y a b

/-- The delays of two groups of packets and of one that is in the window alone. -/
def threeInputs : List (TrendInput ℚ) := [⟨5, 5, 100⟩, ⟨7, 5, 107⟩, ⟨9, 5, 116⟩]

theorem trend_threeInputs :
    let coef : ℚ := 9 / 10
    let x := fun i => (point coef (window 2 threeInputs i)).arrivalDelta
    let y := fun i => (point coef (window 2 threeInputs i)).smoothedDelay
    let trend := (threeInputs.foldl update (create coef 4 #v[⟨7, 7⟩, ⟨7, 7⟩])).trendline
    trend = LeastSquares.slope univ x y ∧
      ∀ a b, LeastSquares.residual univ x y
          (LeastSquares.mean univ y - trend * LeastSquares.mean univ x) trend
        ≤ LeastSquares.residual univ x y a b :=
  trend_of_run #v[⟨7, 7⟩, ⟨7, 7⟩] (by decide) (by decide) (by decide) (by decide)

/-! ## Delays that do not grow -/

/-- The inputs arrive in order, and none of them adds to the delay. -/
structure Falling (inputs : List (TrendInput 𝕜)) : Prop where
  arrivals : inputs.Pairwise fun p q => p.arrivalTs ≤ q.arrivalTs
  deltas : ∀ p ∈ inputs, p.recvDeltaMs ≤ p.sendDeltaMs

omit [Field 𝕜] in
theorem Falling.sublist {ps : List (TrendInput 𝕜)} (h : Falling inputs) (hsub : ps.Sublist inputs) :
    Falling ps :=
  ⟨h.arrivals.sublist hsub, fun p hp => h.deltas p (hsub.subset hp)⟩

omit [Field 𝕜] in
theorem Falling.lastArrival_le (h : Falling (inputs ++ [input])) (hne : inputs ≠ []) :
    lastArrival inputs ≤ lastArrival (inputs ++ [input]) := by
  rw [lastArrival, lastArrival, List.getLast?_concat, List.getLast?_eq_some_getLast hne]
  exact (List.pairwise_append.mp h.arrivals).2.2 _ (List.getLast_mem hne) input
    (List.mem_singleton_self input)

variable [IsStrictOrderedRing 𝕜]

/-- The average lags behind the delay, which falls. -/
theorem Falling.accumulated_le_smoothed (h : Falling inputs) (h0 : 0 ≤ coef) :
    accumulated inputs ≤ smoothed coef inputs := by
  induction inputs using List.reverseRecOn with
  | nil => exact le_of_eq rfl
  | append_singleton inputs input ih =>
      have hbefore := ih (h.sublist (List.sublist_append_left _ _))
      have hdelta := h.deltas input (List.mem_append_right _ (List.mem_singleton_self input))
      have hacc := accumulated_append inputs input
      rw [smoothed_append]
      have hgap : 0 ≤ coef * (smoothed coef inputs - accumulated (inputs ++ [input])) :=
        mul_nonneg h0 (by linarith)
      linarith

theorem Falling.smoothed_le (h : Falling (inputs ++ [input])) (h0 : 0 ≤ coef) (h1 : coef ≤ 1) :
    smoothed coef (inputs ++ [input]) ≤ smoothed coef inputs := by
  have hbefore := (h.sublist (List.sublist_append_left _ _)).accumulated_le_smoothed h0
  have hdelta := h.deltas input (List.mem_append_right _ (List.mem_singleton_self input))
  have hacc := accumulated_append inputs input
  rw [smoothed_append]
  have hgap : 0 ≤ (1 - coef) * (smoothed coef inputs - accumulated (inputs ++ [input])) :=
    mul_nonneg (by linarith) (by linarith)
  linarith

/-- More inputs arrive later, with a smaller average. -/
theorem Falling.append {ps qs : List (TrendInput 𝕜)} (h : Falling (ps ++ qs)) (hne : ps ≠ [])
    (h0 : 0 ≤ coef) (h1 : coef ≤ 1) :
    lastArrival ps ≤ lastArrival (ps ++ qs) ∧ smoothed coef (ps ++ qs) ≤ smoothed coef ps := by
  induction qs using List.reverseRecOn with
  | nil =>
      rw [List.append_nil]
      exact ⟨le_refl _, le_refl _⟩
  | append_singleton qs q ih =>
      rw [← List.append_assoc] at h ⊢
      obtain ⟨harrival, hsmoothed⟩ := ih (h.sublist (List.sublist_append_left _ _))
      exact ⟨harrival.trans (h.lastArrival_le (List.append_ne_nil_of_left_ne_nil hne qs)),
        (h.smoothed_le h0 h1).trans hsmoothed⟩

/-- The points of the window go to the right and down. -/
theorem Falling.window (h : Falling inputs) (hlong : windowSize ≤ inputs.length)
    (h0 : 0 ≤ coef) (h1 : coef ≤ 1) {i j : Fin windowSize} (hij : i ≤ j) :
    (point coef (window windowSize inputs i)).arrivalDelta
        ≤ (point coef (window windowSize inputs j)).arrivalDelta ∧
      (point coef (window windowSize inputs j)).smoothedDelay
        ≤ (point coef (window windowSize inputs i)).smoothedDelay := by
  have hlt := j.isLt
  have hle : i.val ≤ j.val := hij
  have hne : TrendlineEstimator.window windowSize inputs i ≠ [] := by
    apply List.ne_nil_of_length_pos
    rw [TrendlineEstimator.window, List.length_take]
    omega
  obtain ⟨qs, hqs⟩ : TrendlineEstimator.window windowSize inputs i <+:
      TrendlineEstimator.window windowSize inputs j :=
    List.take_prefix_take_left (by omega)
  have hsub : (TrendlineEstimator.window windowSize inputs j).Sublist inputs :=
    List.take_sublist _ _
  rw [← hqs] at hsub ⊢
  obtain ⟨harrival, hsmoothed⟩ := (h.sublist hsub).append hne h0 h1
  refine ⟨?_, hsmoothed⟩
  have hfirst : firstArrival (TrendlineEstimator.window windowSize inputs i ++ qs) =
      firstArrival (TrendlineEstimator.window windowSize inputs i) := by
    rw [firstArrival, List.head?_append_of_ne_nil _ hne, firstArrival]
  show ((_ : Int) : 𝕜) ≤ (_ : Int)
  rw [hfirst]
  exact_mod_cast Int.sub_le_sub_right harrival _

/-- **A delay that does not grow** has no trend that is positive. -/
theorem Follows.trendline_nonpos (h : Follows coef gain inputs est) (hwindow : 0 < windowSize)
    (hmany : inputs.length + 1 < 2 ^ 31) (harrivals : ∀ p ∈ inputs, p.arrivalTs ≠ -1)
    (hfalling : Falling (inputs ++ [input])) (h0 : 0 ≤ coef) (h1 : coef ≤ 1)
    (hneg : est.trendline ≤ 0) : (est.update input).trendline ≤ 0 := by
  obtain ⟨hfollows, hline⟩ : Follows coef gain (inputs ++ [input]) (est.update input) ∧ _ :=
    h.update hwindow harrivals hmany
  have hlength : (inputs ++ [input]).length = inputs.length + 1 := List.length_append
  rw [hline]
  split
  · rename_i hlong
    rw [hfollows.slope_que hwindow (hlength ▸ hlong)]
    apply LeastSquares.slope_nonpos
    intro i _ j _ hlt
    rcases le_total i j with hij | hji
    · exact absurd (hfalling.window (hlength ▸ hlong) h0 h1 hij).2 (not_le.mpr hlt)
    · exact (hfalling.window (hlength ▸ hlong) h0 h1 hji).1
  · exact hneg

end TrendlineEstimator

end Razor
