import Mathlib.Algebra.Order.Field.Basic
import Mathlib.Algebra.Order.Ring.Rat
import Mathlib.Tactic.Linarith
import Mathlib.Tactic.NormNum
import Mathlib.Tactic.Positivity
import RmcatNs3.Razor.SenderHistory

/-!
# The acknowledged bitrate

`razor/estimator/ack_bitrate_estimator.{c,h}`, with the elements of an ordered field for
`float` and exact arithmetic, also on times and sizes. A division by zero is `none`. The
conversion of the estimate to bits per second is left out.
-/

namespace Razor

def kInitialRateWndMs : Int := 500
def kRateWndMs : Int := 150

/-- `ack_bitrate_estimator_t`. -/
structure AckBitrateEstimator (𝕜 : Type*) where
  alrEndedTs : Int
  currWinMs : Int
  prevTs : Int
  sum : Int
  bitrateEstimate : 𝕜
  bitrateEstimateVar : 𝕜

namespace AckBitrateEstimator

variable {𝕜 : Type*} [Field 𝕜]

/-- `ack_estimator_reset`; `ack_estimator_create` is it in a new block. -/
def reset : AckBitrateEstimator 𝕜 where
  alrEndedTs := -1
  currWinMs := 0
  prevTs := -1
  sum := 0
  bitrateEstimate := -1
  bitrateEstimateVar := 50.0

/-- `ack_estimator_set_alrended`. -/
def setAlrEnded (est : AckBitrateEstimator 𝕜) (ts : Int) : AckBitrateEstimator 𝕜 :=
  { est with alrEndedTs := ts }

/-- `ack_estimator_mybe_expect_fast_change`. -/
def mybeExpectFastChange (est : AckBitrateEstimator 𝕜) (packetSendTs : Int) :
    AckBitrateEstimator 𝕜 :=
  if est.alrEndedTs ≥ 0 ∧ packetSendTs > est.alrEndedTs then
    { est with bitrateEstimateVar := est.bitrateEstimateVar + 200.0, alrEndedTs := -1 }
  else est

/-- The first test of `ack_estimator_update_window`: time has gone backwards. -/
def restartWindow (est : AckBitrateEstimator 𝕜) (nowTs : Int) : AckBitrateEstimator 𝕜 :=
  if nowTs < est.prevTs then { est with prevTs := -1, sum := 0, currWinMs := 0 } else est

/-- The second one: the time that has passed, which may be a gap. -/
def advanceWindow (est : AckBitrateEstimator 𝕜) (nowTs rateWndMs : Int) :
    AckBitrateEstimator 𝕜 :=
  if est.prevTs ≥ 0 then
    let currWinMs := est.currWinMs + (nowTs - est.prevTs)
    if nowTs - est.prevTs > rateWndMs then
      { est with sum := 0, currWinMs := currWinMs.tmod rateWndMs }
    else { est with currWinMs }
  else est

/-- `ack_estimator_update_window`; the sample is `-1` while the window is not full. -/
def updateWindow (est : AckBitrateEstimator 𝕜) (nowTs : Int) (size : Nat) (rateWndMs : Int) :
    AckBitrateEstimator 𝕜 × 𝕜 :=
  let est := { (est.restartWindow nowTs).advanceWindow nowTs rateWndMs with prevTs := nowTs }
  if est.currWinMs ≥ rateWndMs then
    ({ est with currWinMs := est.currWinMs - rateWndMs, sum := 0 + size },
      8.0 * est.sum / rateWndMs)
  else ({ est with sum := est.sum + size }, -1)

variable [LinearOrder 𝕜]

/-- A division of two `float`s. -/
def divide (x y : 𝕜) : Option 𝕜 := if y = 0 then none else some (x / y)

/-- `ack_estimator_update`, with the sample that it takes from the window. -/
def update (est : AckBitrateEstimator 𝕜) (arrivalTs : Int) (payloadSize : Nat) :
    Option (AckBitrateEstimator 𝕜 × 𝕜) :=
  let rateWindowsMs := if est.bitrateEstimate < 0 then kInitialRateWndMs else kRateWndMs
  let (est, bitrateSample) := est.updateWindow arrivalTs payloadSize rateWindowsMs
  if bitrateSample < 0 then some (est, bitrateSample)
  else if est.bitrateEstimate < 0 then
    some ({ est with bitrateEstimate := bitrateSample }, bitrateSample)
  else do
    let sampleUncertainty ←
      divide (10.0 * |est.bitrateEstimate - bitrateSample|) est.bitrateEstimate
    let sampleVar := sampleUncertainty * sampleUncertainty
    let predBitrateEstimateVar := est.bitrateEstimateVar + 5.0
    let bitrateEstimate ←
      divide (sampleVar * est.bitrateEstimate + predBitrateEstimateVar * bitrateSample)
        (sampleVar + predBitrateEstimateVar)
    let bitrateEstimateVar ←
      divide (sampleVar * predBitrateEstimateVar) (sampleVar + predBitrateEstimateVar)
    some ({ est with bitrateEstimate, bitrateEstimateVar }, bitrateSample)

/-- `ack_estimator_incoming`, with the samples that it has taken. -/
def incoming (est : AckBitrateEstimator 𝕜) :
    List PacketFeedback → Option (AckBitrateEstimator 𝕜 × List 𝕜)
  | [] => some (est, [])
  | packet :: packets =>
      if packet.sendTs ≥ 0 then do
        let (est, sample) ←
          (est.mybeExpectFastChange packet.sendTs).update packet.arrivalTs packet.payloadSize
        let (est, samples) ← est.incoming packets
        some (est, sample :: samples)
      else est.incoming packets

/-! ## What holds between two packets -/

/-- **The invariant**: while there is no packet to measure from, the window is empty; while
there is one, its size is in the sum. The estimate is missing or positive. -/
structure Defined (est : AckBitrateEstimator 𝕜) : Prop where
  currWinMs : 0 ≤ est.currWinMs
  empty : est.prevTs < 0 → est.currWinMs = 0
  sum : 0 ≤ est.sum
  counted : 0 ≤ est.prevTs → 0 < est.sum
  bitrateEstimate : est.bitrateEstimate = -1 ∨ 0 < est.bitrateEstimate
  bitrateEstimateVar : 0 ≤ est.bitrateEstimateVar

/-- What the window is when the sample is taken. -/
structure Filled (est : AckBitrateEstimator 𝕜) (nowTs rateWndMs : Int) : Prop where
  currWinMs : 0 ≤ est.currWinMs
  empty : nowTs < 0 → est.currWinMs = 0
  sum : 0 ≤ est.sum
  full : rateWndMs ≤ est.currWinMs → 0 < est.sum

/-- A sample is missing or positive. -/
def SampleDefined (sample : 𝕜) : Prop := sample = -1 ∨ 0 < sample

variable {est : AckBitrateEstimator 𝕜} {nowTs rateWndMs : Int}

/-! ### The window -/

theorem Defined.setAlrEnded (h : est.Defined) (ts : Int) : (est.setAlrEnded ts).Defined :=
  ⟨h.currWinMs, h.empty, h.sum, h.counted, h.bitrateEstimate, h.bitrateEstimateVar⟩

theorem Defined.restartWindow (h : est.Defined) (nowTs : Int) :
    (est.restartWindow nowTs).Defined := by
  rw [AckBitrateEstimator.restartWindow]
  split
  · exact ⟨le_refl _, fun _ => rfl, le_refl _, fun hprev => absurd hprev (by simp),
      h.bitrateEstimate, h.bitrateEstimateVar⟩
  · exact h

omit [Field 𝕜] [LinearOrder 𝕜] in
/-- Time does not go backwards from where the window starts again. -/
theorem prevTs_restartWindow_le (est : AckBitrateEstimator 𝕜)
    (h : 0 ≤ (est.restartWindow nowTs).prevTs) : (est.restartWindow nowTs).prevTs ≤ nowTs := by
  rw [restartWindow] at h ⊢
  split at h
  · simp at h
  · rename_i hback
    rw [if_neg hback]
    omega

/-- A full window has a positive sum: a gap leaves less than a window, and without a gap
the last packet is still in the sum. -/
theorem Defined.advanceWindow (h : est.Defined) (hwnd : 0 < rateWndMs)
    (hnow : 0 ≤ est.prevTs → est.prevTs ≤ nowTs) :
    (est.advanceWindow nowTs rateWndMs).Filled nowTs rateWndMs := by
  have hcurr := h.currWinMs
  rw [AckBitrateEstimator.advanceWindow]
  by_cases hprev : est.prevTs ≥ 0
  · have hle := hnow hprev
    have hpassed : 0 ≤ est.currWinMs + (nowTs - est.prevTs) := by omega
    have hnonneg : ¬nowTs < 0 := by omega
    rw [if_pos hprev]
    dsimp only
    split
    · have hless := Int.tmod_lt_of_pos (est.currWinMs + (nowTs - est.prevTs)) hwnd
      exact ⟨Int.tmod_nonneg _ hpassed, fun hneg => absurd hneg hnonneg, le_refl _,
        fun hfull => absurd hfull (not_le.mpr hless)⟩
    · exact ⟨hpassed, fun hneg => absurd hneg hnonneg, h.sum, fun _ => h.counted hprev⟩
  · have hempty := h.empty (not_le.mp hprev)
    rw [if_neg hprev]
    exact ⟨hcurr, fun _ => hempty, h.sum, fun hfull => absurd hfull (by omega)⟩

omit [Field 𝕜] [LinearOrder 𝕜] in
@[simp] theorem estimate_advanceWindow (est : AckBitrateEstimator 𝕜) (nowTs rateWndMs : Int) :
    ((est.restartWindow nowTs).advanceWindow nowTs rateWndMs).bitrateEstimate =
      est.bitrateEstimate := by
  rw [advanceWindow, restartWindow]
  split <;> split <;> (try split) <;> rfl

omit [Field 𝕜] [LinearOrder 𝕜] in
@[simp] theorem estimateVar_advanceWindow (est : AckBitrateEstimator 𝕜)
    (nowTs rateWndMs : Int) :
    ((est.restartWindow nowTs).advanceWindow nowTs rateWndMs).bitrateEstimateVar =
      est.bitrateEstimateVar := by
  rw [advanceWindow, restartWindow]
  split <;> split <;> (try split) <;> rfl

theorem divide_of_pos (x : 𝕜) {y : 𝕜} (h : 0 < y) : divide x y = some (x / y) :=
  if_neg h.ne'

section Ordered

variable [IsStrictOrderedRing 𝕜]

theorem defined_reset : (reset : AckBitrateEstimator 𝕜).Defined where
  currWinMs := le_refl _
  empty := fun _ => rfl
  sum := le_refl _
  counted := fun h => absurd h (by simp [reset])
  bitrateEstimate := .inl rfl
  bitrateEstimateVar := by norm_num [reset]

theorem Defined.mybeExpectFastChange (h : est.Defined) (packetSendTs : Int) :
    (est.mybeExpectFastChange packetSendTs).Defined := by
  rw [AckBitrateEstimator.mybeExpectFastChange]
  split
  · have hvar : 0 ≤ est.bitrateEstimateVar + (200.0 : 𝕜) :=
      add_nonneg h.bitrateEstimateVar (by norm_num)
    exact ⟨h.currWinMs, h.empty, h.sum, h.counted, h.bitrateEstimate, hvar⟩
  · exact h

/-- `ack_estimator_update_window` keeps the estimate, and what it returns. -/
theorem Defined.updateWindow (h : est.Defined) (nowTs : Int) {size : Nat} (hsize : 0 < size)
    (hwnd : 0 < rateWndMs) :
    (est.updateWindow nowTs size rateWndMs).1.Defined ∧
      SampleDefined (est.updateWindow nowTs size rateWndMs).2 := by
  have hfilled : ((est.restartWindow nowTs).advanceWindow nowTs rateWndMs).Filled nowTs
      rateWndMs := (h.restartWindow nowTs).advanceWindow hwnd est.prevTs_restartWindow_le
  have hest := est.estimate_advanceWindow nowTs rateWndMs
  have hvar := est.estimateVar_advanceWindow nowTs rateWndMs
  revert hfilled hest hvar
  rw [AckBitrateEstimator.updateWindow]
  generalize (est.restartWindow nowTs).advanceWindow nowTs rateWndMs = filled
  intro hfilled hest hvar
  have hcurr := hfilled.currWinMs
  have hsum := hfilled.sum
  dsimp only
  split
  · rename_i hfull
    refine ⟨⟨?_, ?_, ?_, ?_, hest ▸ h.bitrateEstimate, hvar ▸ h.bitrateEstimateVar⟩, .inr ?_⟩
    · exact sub_nonneg.mpr hfull
    · intro hneg
      -- a window that is full has started at a packet
      have hzero := hfilled.empty hneg
      omega
    · dsimp only
      omega
    · intro _
      dsimp only
      omega
    · have hbytes : (0 : 𝕜) < (filled.sum : 𝕜) := Int.cast_pos.mpr (hfilled.full hfull)
      have hlen : (0 : 𝕜) < (rateWndMs : 𝕜) := Int.cast_pos.mpr hwnd
      have height : (0 : 𝕜) < 8.0 := by norm_num
      exact div_pos (mul_pos height hbytes) hlen
  · refine ⟨⟨hcurr, hfilled.empty, ?_, ?_, hest ▸ h.bitrateEstimate,
      hvar ▸ h.bitrateEstimateVar⟩, .inl rfl⟩
    · dsimp only
      omega
    · intro _
      dsimp only
      omega

/-! ### The estimate -/

/-- **`ack_estimator_update` divides by positive numbers alone**, and keeps what holds
between two packets. -/
theorem Defined.update (h : est.Defined) (arrivalTs : Int) {payloadSize : Nat}
    (hsize : 0 < payloadSize) :
    ∃ est' sample, est.update arrivalTs payloadSize = some (est', sample) ∧
      est'.Defined ∧ SampleDefined sample := by
  have hwnd : 0 < (if est.bitrateEstimate < 0 then kInitialRateWndMs else kRateWndMs) := by
    split <;> decide
  obtain ⟨hdefined, hsample⟩ := h.updateWindow arrivalTs hsize hwnd
  revert hdefined hsample
  rw [AckBitrateEstimator.update]
  generalize est.updateWindow arrivalTs payloadSize
    (if est.bitrateEstimate < 0 then kInitialRateWndMs else kRateWndMs) = updated
  obtain ⟨est, sample⟩ := updated
  intro hdefined hsample
  dsimp only at hdefined hsample ⊢
  split
  · exact ⟨est, sample, rfl, hdefined, hsample⟩
  · rename_i hnonneg
    have hpos : 0 < sample := by
      rcases hsample with rfl | hpos
      · exact absurd (neg_one_lt_zero (R := 𝕜)) hnonneg
      · exact hpos
    split
    · exact ⟨_, sample, rfl, ⟨hdefined.currWinMs, hdefined.empty, hdefined.sum,
        hdefined.counted, .inr hpos, hdefined.bitrateEstimateVar⟩, hsample⟩
    · rename_i hest
      have hestimate : 0 < est.bitrateEstimate := by
        rcases hdefined.bitrateEstimate with hnone | hpos
        · exact absurd (hnone ▸ neg_one_lt_zero (R := 𝕜)) hest
        · exact hpos
      rw [divide_of_pos _ hestimate]
      generalize (10.0 : 𝕜) * |est.bitrateEstimate - sample| / est.bitrateEstimate = uncertainty
      have hsampleVar : 0 ≤ uncertainty * uncertainty := mul_self_nonneg _
      have hpred : 0 < est.bitrateEstimateVar + (5.0 : 𝕜) :=
        add_pos_of_nonneg_of_pos hdefined.bitrateEstimateVar (by norm_num)
      have hvars := add_pos_of_nonneg_of_pos hsampleVar hpred
      simp only [Option.bind_eq_bind, Option.bind_some, divide_of_pos _ hvars]
      refine ⟨_, sample, rfl, ⟨hdefined.currWinMs, hdefined.empty, hdefined.sum,
        hdefined.counted, .inr ?_, ?_⟩, hsample⟩
      · have hmean := add_pos_of_nonneg_of_pos
          (mul_nonneg hsampleVar hestimate.le) (mul_pos hpred hpos)
        exact div_pos hmean hvars
      · exact div_nonneg (mul_nonneg hsampleVar hpred.le) hvars.le

/-- `ack_estimator_incoming` keeps it too, over the packets of a feedback. -/
theorem Defined.incoming (h : est.Defined) {packets : List PacketFeedback}
    (hsize : ∀ packet ∈ packets, 0 < packet.payloadSize) :
    ∃ est' samples, est.incoming packets = some (est', samples) ∧ est'.Defined ∧
      ∀ sample ∈ samples, SampleDefined sample := by
  induction packets generalizing est with
  | nil => exact ⟨est, [], rfl, h, by simp⟩
  | cons packet packets ih =>
      have hrest : ∀ p ∈ packets, 0 < p.payloadSize :=
        fun p hp => hsize p (List.mem_cons_of_mem _ hp)
      rw [AckBitrateEstimator.incoming]
      split
      · obtain ⟨est₁, sample, hupdate, h₁, hsample⟩ :=
          (h.mybeExpectFastChange packet.sendTs).update packet.arrivalTs
            (hsize packet List.mem_cons_self)
        obtain ⟨est', samples, hincoming, h', hsamples⟩ := ih h₁ hrest
        refine ⟨est', sample :: samples, ?_, h', ?_⟩
        · rw [hupdate]
          simp [hincoming]
        · intro s hs
          rcases List.mem_cons.mp hs with rfl | hs
          · exact hsample
          · exact hsamples s hs
      · exact ih h hrest

end Ordered

/-! ## Sequences of calls -/

/-- The calls that the sender makes on its estimator. -/
inductive Call
  | incoming (packets : List PacketFeedback)
  | setAlrEnded (ts : Int)
  | reset
  deriving DecidableEq

/-- The packets of a call have a payload. -/
def Call.PayloadPositive : Call → Prop
  | .incoming packets => ∀ packet ∈ packets, 0 < packet.payloadSize
  | .setAlrEnded _ | .reset => True

instance (call : Call) : Decidable call.PayloadPositive := by
  cases call <;> unfold Call.PayloadPositive <;> infer_instance

/-- One call, with the samples that it takes. -/
def perform (est : AckBitrateEstimator 𝕜) : Call → Option (AckBitrateEstimator 𝕜 × List 𝕜)
  | .incoming packets => est.incoming packets
  | .setAlrEnded ts => some (est.setAlrEnded ts, [])
  | .reset => some (.reset, [])

/-- The calls one after the other. -/
def performAll (est : AckBitrateEstimator 𝕜) :
    List Call → Option (AckBitrateEstimator 𝕜 × List 𝕜)
  | [] => some (est, [])
  | call :: calls => do
      let (est, samples) ← est.perform call
      let (est, later) ← est.performAll calls
      some (est, samples ++ later)

variable [IsStrictOrderedRing 𝕜]

theorem Defined.perform (h : est.Defined) {call : Call} (hsize : call.PayloadPositive) :
    ∃ est' samples, est.perform call = some (est', samples) ∧ est'.Defined ∧
      ∀ sample ∈ samples, SampleDefined sample := by
  cases call with
  | incoming packets => exact h.incoming hsize
  | setAlrEnded ts => exact ⟨_, [], rfl, h.setAlrEnded ts, by simp⟩
  | reset => exact ⟨_, [], rfl, defined_reset, by simp⟩

theorem Defined.performAll (h : est.Defined) {calls : List Call}
    (hsize : ∀ call ∈ calls, call.PayloadPositive) :
    ∃ est' samples, est.performAll calls = some (est', samples) ∧ est'.Defined ∧
      ∀ sample ∈ samples, SampleDefined sample := by
  induction calls generalizing est with
  | nil => exact ⟨est, [], rfl, h, by simp⟩
  | cons call calls ih =>
      obtain ⟨est₁, samples, hperform, h₁, hsamples⟩ := h.perform (hsize call List.mem_cons_self)
      obtain ⟨est', later, hrest, h', hlater⟩ :=
        ih h₁ fun c hc => hsize c (List.mem_cons_of_mem _ hc)
      refine ⟨est', samples ++ later, ?_, h', ?_⟩
      · rw [AckBitrateEstimator.performAll, hperform]
        simp [hrest]
      · intro s hs
        rcases List.mem_append.mp hs with hs | hs
        · exact hsamples s hs
        · exact hlater s hs

/-- **The acknowledged bitrate is always defined**: whatever the arrival times are, no
call divides by zero, every sample that is taken is missing or positive, and so is the
estimate; its variance is never negative. -/
theorem ackEstimator_always_defined (calls : List Call)
    (hsize : ∀ call ∈ calls, call.PayloadPositive) :
    ∃ est samples, (reset : AckBitrateEstimator 𝕜).performAll calls = some (est, samples) ∧
      (∀ sample ∈ samples, sample = -1 ∨ 0 < sample) ∧
      (est.bitrateEstimate = -1 ∨ 0 < est.bitrateEstimate) ∧ 0 ≤ est.bitrateEstimateVar := by
  have hreset : (reset : AckBitrateEstimator 𝕜).Defined := defined_reset
  obtain ⟨est, samples, hperform, h, hsamples⟩ := hreset.performAll hsize
  exact ⟨est, samples, hperform, hsamples, h.bitrateEstimate, h.bitrateEstimateVar⟩

/-- Four packets fill the first window, of 500 ms, and the rest of it fills the next one. -/
theorem ackEstimator_always_defined_run :
    ∃ est samples, (reset : AckBitrateEstimator ℚ).performAll
        [.incoming [⟨0, 100, 50, 0, 1000⟩, ⟨0, 500, 60, 1, 1000⟩, ⟨0, 999, 70, 2, 1000⟩],
          .setAlrEnded 20, .incoming [⟨0, 1000, 80, 3, 500⟩]] = some (est, samples) ∧
      (∀ sample ∈ samples, sample = -1 ∨ 0 < sample) ∧
      (est.bitrateEstimate = -1 ∨ 0 < est.bitrateEstimate) ∧ 0 ≤ est.bitrateEstimateVar :=
  ackEstimator_always_defined _ (by decide)

end AckBitrateEstimator

end Razor
