import Mathlib.Data.Rat.Sqrt
import RmcatNs3.Scream.TargetBitrate

/-!
# The limits of the target bitrates

The target of a stream is between its limits after every write that ends with a full clamp, for
all values that the floating-point terms may have, none excepted. Three calls can leave it
outside: new limits that do not contain it, a change of the priority that makes it no number,
and a reduction of nine tenths that raises a negative target.
-/

namespace Scream

open FloatVal MachineInt Runs
open FloatArith (lit)

variable {α : Type} [FloatArith α] [Preorder α] [DecidableLT α]

/-! ## One stream -/

namespace RateStream

/-- The target is a number from the minimum to the maximum. -/
def Within (s : RateStream α) : Prop := FloatVal.Within s.minBitrate s.maxBitrate s.targetBitrate

variable {s : RateStream α}

omit [FloatArith α] [DecidableLT α] in
theorem Within.limits_le (h : s.Within) : s.minBitrate ≤ s.maxBitrate :=
  le_of_float_le_of_le h.1 h.2

theorem new_within {settings : StreamSettings α} (h : settings.minBitrate ≤ settings.maxBitrate)
    (wasFastStart : Bool) : (new settings wasFastStart).Within :=
  stdMin_stdMax_within h _

omit [FloatArith α] in
theorem within_clamp (h : s.minBitrate ≤ s.maxBitrate) : s.clamp.Within :=
  stdMin_stdMax_within h _

omit [FloatArith α] in
/-- What is the same after an update, whatever has been computed. -/
theorem noteInflection_limits (s : RateStream α) (time_us : Nat) (br : FloatVal α) :
    (s.noteInflection time_us br).minBitrate = s.minBitrate ∧
      (s.noteInflection time_us br).maxBitrate = s.maxBitrate := by
  rw [noteInflection]
  split <;> exact ⟨rfl, rfl⟩

theorem handleEvent_limits (s : RateStream α) (lossEventFlag isL4s : Bool) (time_us : Nat)
    (r : MediaReadings α) :
    (s.handleEvent lossEventFlag isL4s time_us r).minBitrate = s.minBitrate ∧
      (s.handleEvent lossEventFlag isL4s time_us r).maxBitrate = s.maxBitrate :=
  noteInflection_limits s time_us r.maxRate

theorem steady_limits (s : RateStream α) (sclI : FloatVal α) (isL4s : Bool) (time_us : Nat)
    (r : MediaReadings α) :
    (s.steady sclI isL4s time_us r).minBitrate = s.minBitrate ∧
      (s.steady sclI isL4s time_us r).maxBitrate = s.maxBitrate := by
  have hnote := noteInflection_limits { s with wasFastStart := false } time_us r.maxRate
  rw [steady]
  split_ifs
  · exact hnote
  · exact hnote
  · exact ⟨rfl, rfl⟩
  · exact ⟨rfl, rfl⟩

theorem adjust_limits (s : RateStream α) (isL4s : Bool) (time_us : Nat) (r : MediaReadings α) :
    (s.adjust isL4s time_us r).minBitrate = s.minBitrate ∧
      (s.adjust isL4s time_us r).maxBitrate = s.maxBitrate := by
  rw [adjust]
  split_ifs
  · exact ⟨rfl, rfl⟩
  · exact ⟨rfl, rfl⟩
  · exact steady_limits _ _ isL4s time_us r

/-- **An update for a frame** ends with the clamp, or returns early and leaves the target. -/
theorem Within.updateTargetBitrate (h : s.Within) (lossEventFlag ecnCeEventFlag isL4s : Bool)
    (time_us : Nat) (r : MediaReadings α) :
    (s.updateTargetBitrate lossEventFlag ecnCeEventFlag isL4s time_us r).Within := by
  rw [RateStream.updateTargetBitrate]
  split_ifs
  · refine within_clamp ?_
    rw [(handleEvent_limits _ lossEventFlag isL4s time_us r).1,
      (handleEvent_limits _ lossEventFlag isL4s time_us r).2]
    exact h.limits_le
  · exact h
  · refine within_clamp ?_
    rw [(adjust_limits _ isL4s time_us r).1, (adjust_limits _ isL4s time_us r).2]
    exact h.limits_le

omit [FloatArith α] [DecidableLT α] in
theorem Within.collide (h : s.Within) : s.collide.Within := within_left h.limits_le

variable [Std.Total fun x y : α => x ≤ y]

theorem Within.reduce (h : s.Within) (rateAdjustFactor : FloatVal α) :
    (s.reduce rateAdjustFactor).Within :=
  stdMax_stdMin_within h.limits_le _

/-- The reduction of nine tenths has no upper clamp. -/
theorem Within.lower_iff (h : s.Within) :
    s.lower.Within ↔ ¬ s.maxBitrate < s.targetBitrate * lit 0.9 :=
  stdMax_within_iff h.limits_le _

/-- **The clamp of a new priority** lets through what is no number. -/
theorem Within.setTargetPriority_iff (h : s.Within) (priority : FloatVal α) (congested : Bool) :
    (s.setTargetPriority priority congested).Within ↔
      (congested = true → s.targetBitrate * (priority / s.targetPriority) ≠ nan) := by
  cases congested with
  | false => exact ⟨fun _ hfalse => absurd hfalse (by decide), fun _ => h⟩
  | true =>
      have hiff := stdMin_stdMax_within_iff h.limits_le
        (s.targetBitrate * (priority / s.targetPriority))
      exact ⟨fun hwithin _ => hiff.mp hwithin, fun hnumber => hiff.mpr (hnumber rfl)⟩

end RateStream

/-! ## All streams -/

namespace BitrateTx

/-- Every target is within its limits. -/
def Within (s : BitrateTx α) : Prop := ∀ stream ∈ s.streams, stream.Within

/-- The limits that a call is given are in order. -/
def Call.Ordered : Call α → Prop
  | .registerNewStream _ settings _ => settings.minBitrate ≤ settings.maxBitrate
  | .updateBitrateStream _ minBitrate maxBitrate => minBitrate ≤ maxBitrate
  | _ => True

/-- What is asked of a call: new limits contain the target that there is, a rescaled target is
a number, and nine tenths of a target that is lowered are not above its maximum. -/
def KeepsLimits (s : BitrateTx α) : Call α → Prop
  | .updateBitrateStream ssrc minBitrate maxBitrate => ∀ found ∈ s.tx.getStream ssrc,
      ∀ stream ∈ s.streams[found.1]?,
        FloatVal.Within minBitrate maxBitrate stream.targetBitrate
  | .setTargetPriority ssrc priority queueDelayFractionAvg inFastStart =>
      ∀ found ∈ s.tx.getStream ssrc, ∀ stream ∈ s.streams[found.1]?,
        (decide (lit 0.1 < queueDelayFractionAvg) || !inFastStart) = true →
          stream.targetBitrate * (priority / stream.targetPriority) ≠ nan
  | .isOkToTransmit time_us slow _ r => s.ratesDue time_us slow →
      (s.ensureInitialized time_us).adjustsPriorities time_us r →
      ∀ (n : Nat) (stream : RateStream α), s.streams[n]? = some stream →
        s.exceedsShare r n stream → ¬ stream.maxBitrate < stream.targetBitrate * lit 0.9
  | _ => True

variable {s s' : BitrateTx α}

omit [FloatArith α] [DecidableLT α] in
theorem new_within (lossBetaBelowOne isL4s : Bool) :
    (new lossBetaBelowOne isL4s : BitrateTx α).Within :=
  fun _ hstream => absurd hstream List.not_mem_nil

omit [FloatArith α] [Preorder α] [DecidableLT α] in
@[simp] theorem ensureInitialized_streams (s : BitrateTx α) (time_us : Nat) :
    (s.ensureInitialized time_us).streams = s.streams := by
  rw [ensureInitialized]
  split <;> rfl

omit [FloatArith α] [Preorder α] [DecidableLT α] in
@[simp] theorem ensureInitialized_tx (s : BitrateTx α) (time_us : Nat) :
    (s.ensureInitialized time_us).tx = s.tx := by
  rw [ensureInitialized]
  split <;> rfl

/-- A change in one place of a list of which all members have a property. -/
theorem forall_mem_modify_iff {β : Type} {P : β → Prop} {l : List β} (h : ∀ x ∈ l, P x) (i : Nat)
    (f : β → β) : (∀ x ∈ l.modify i f, P x) ↔ ∀ x ∈ l[i]?, P (f x) := by
  simp only [List.mem_iff_getElem?, List.getElem?_modify]
  constructor
  · intro hall x hx
    refine hall (f x) ⟨i, ?_⟩
    simp [Option.mem_def.mp hx]
  · intro hchanged x hx
    obtain ⟨j, hj⟩ := hx
    obtain ⟨y, hy, rfl⟩ := Option.map_eq_some_iff.mp hj
    split
    · rename_i hij
      exact hchanged y (hij ▸ hy)
    · exact h y (List.mem_of_getElem? hy)

omit [FloatArith α] [DecidableLT α] in
/-- What a change of one stream keeps. -/
theorem Within.modifyStream_iff (h : s.Within) {ssrc : BitVec 32}
    {f : RateStream α → RateStream α} (hs' : s.modifyStream ssrc f = some s') :
    s'.Within ↔
      ∀ found ∈ s.tx.getStream ssrc, ∀ stream ∈ s.streams[found.1]?, (f stream).Within := by
  obtain ⟨found, hfound, rfl⟩ := Option.map_eq_some_iff.mp hs'
  rw [BitrateTx.Within, forall_mem_modify_iff h]
  constructor
  · intro hchanged found' hfound'
    obtain rfl := Option.some.inj (hfound.symm.trans hfound')
    exact hchanged
  · exact fun hall => hall found hfound

theorem Within.registerNewStream (h : s.Within) {ssrc : BitVec 32} {settings : StreamSettings α}
    {wasFastStart : Bool} (hle : settings.minBitrate ≤ settings.maxBitrate)
    (hs' : s.registerNewStream ssrc settings wasFastStart = some s') : s'.Within := by
  obtain ⟨tx, _, rfl⟩ := Option.map_eq_some_iff.mp hs'
  intro stream hstream
  rcases List.mem_append.mp hstream with hold | hnew
  · exact h stream hold
  · rw [List.mem_singleton.mp hnew]
    exact RateStream.new_within hle wasFastStart

theorem Within.newMediaFrame (h : s.Within) {time_us : Nat} {ssrc : BitVec 32}
    {first second : MediaReadings α}
    (hs' : s.newMediaFrame time_us ssrc first second = some s') : s'.Within := by
  obtain ⟨found, _, hrest⟩ := Option.bind_eq_some_iff.mp hs'
  obtain ⟨tx, _, hlast⟩ := Option.bind_eq_some_iff.mp hrest
  obtain rfl := Option.some.inj hlast
  have hstart : (s.ensureInitialized time_us).Within := by
    rw [BitrateTx.Within, ensureInitialized_streams]
    exact h
  rw [BitrateTx.Within, forall_mem_modify_iff hstart]
  intro stream hstream
  have hwithin := hstart stream (List.mem_of_getElem? hstream)
  rw [updateForFrame]
  split
  · exact (hwithin.updateTargetBitrate _ _ _ _ _).updateTargetBitrate _ _ _ _ _
  · exact hwithin.updateTargetBitrate _ _ _ _ _

omit [FloatArith α] [DecidableLT α] in
theorem Within.addTransmitted (h : s.Within) {time_us : Nat} {ssrc : BitVec 32} {size : Nat}
    {seqNr : BitVec 16} (hs' : s.addTransmitted time_us ssrc size seqNr = some s') :
    s'.Within := by
  obtain ⟨tx, _, hrest⟩ := Option.bind_eq_some_iff.mp hs'
  obtain ⟨s₁, hmodify, hlast⟩ := Option.bind_eq_some_iff.mp hrest
  obtain rfl := Option.some.inj hlast
  have hstart : (s.ensureInitialized time_us).Within := by
    rw [BitrateTx.Within, ensureInitialized_streams]
    exact h
  refine (hstart.modifyStream_iff hmodify).mpr fun found _ stream hstream => ?_
  have hwithin := hstart stream (List.mem_of_getElem? hstream)
  split
  · exact hwithin.collide
  · exact hwithin

variable [Std.Total fun x y : α => x ≤ y]

theorem Within.incomingFeedback (h : s.Within) (fb : IncomingFeedback) (r : ReduceReadings α) :
    (s.incomingFeedback fb r).Within := by
  intro stream hstream
  simp only [BitrateTx.incomingFeedback, ensureInitialized_streams] at hstream
  split at hstream
  · obtain ⟨before, hbefore, rfl⟩ := List.mem_map.mp hstream
    exact (h before hbefore).reduce r.rateAdjustFactor
  · exact h stream hstream

/-- **The streams with more than their share** are the ones whose targets go down. -/
theorem Within.adjustPriorities_iff (h : s.Within) (time_us : Nat) (r : PriorityReadings α) :
    (s.adjustPriorities time_us r).Within ↔ (s.adjustsPriorities time_us r →
      ∀ (n : Nat) (stream : RateStream α), s.streams[n]? = some stream →
        s.exceedsShare r n stream → ¬ stream.maxBitrate < stream.targetBitrate * lit 0.9) := by
  rw [adjustPriorities]
  split_ifs with hadjusts hclears
  · simp only [BitrateTx.Within, List.mem_mapIdx, hadjusts, true_imp_iff]
    constructor
    · intro hall n stream hstream hexceeds
      obtain ⟨hn, rfl⟩ := List.getElem?_eq_some_iff.mp hstream
      have hwithin := hall _ ⟨n, hn, rfl⟩
      rw [if_pos hexceeds] at hwithin
      exact (h _ (List.getElem_mem hn)).lower_iff.mp hwithin
    · rintro hlower _ ⟨n, hn, rfl⟩
      split
      · rename_i hexceeds
        exact (h _ (List.getElem_mem hn)).lower_iff.mpr
          (hlower n _ (List.getElem?_eq_getElem hn) hexceeds)
      · exact h _ (List.getElem_mem hn)
  · exact ⟨fun _ hno => absurd hno hadjusts, fun _ => h⟩
  · exact ⟨fun _ hno => absurd hno hadjusts, fun _ => h⟩

theorem Within.isOkToTransmit_iff (h : s.Within) {time_us : Nat} {slow : Bool}
    {prioritized : Option Nat} {r : PriorityReadings α}
    (hs' : s.isOkToTransmit time_us slow prioritized r = some s') :
    s'.Within ↔ s.KeepsLimits (.isOkToTransmit time_us slow prioritized r) := by
  obtain ⟨tx, _, rfl⟩ := Option.map_eq_some_iff.mp hs'
  have hstart : (s.ensureInitialized time_us).Within := by
    rw [BitrateTx.Within, ensureInitialized_streams]
    exact h
  have hadjust := hstart.adjustPriorities_iff time_us r
  simp only [KeepsLimits]
  by_cases hdue : s.ratesDue time_us slow
  · simp only [hdue, if_true, true_imp_iff]
    rw [ensureInitialized_streams] at hadjust
    -- the first call only sets times, so that the shares are those of the state before
    have hshare : ∀ n stream, (s.ensureInitialized time_us).exceedsShare r n stream ↔
        s.exceedsShare r n stream := by
      intro n stream
      simp [exceedsShare, avgCreditLost, activeStreams]
    simp only [hshare] at hadjust
    exact hadjust
  · simp only [hdue, if_false, false_imp_iff, iff_true]
    exact hstart

/-- **Step lemma**: from a state within the limits a call leads to one within them exactly if
it keeps them; one case for each call. -/
theorem Within.perform_iff (h : s.Within) {call : Call α} (hordered : call.Ordered)
    (hs' : s.perform call = some s') : s'.Within ↔ s.KeepsLimits call := by
  cases call with
  | registerNewStream ssrc settings wasFastStart =>
      exact iff_of_true (h.registerNewStream hordered hs') trivial
  | newMediaFrame time_us ssrc first second => exact iff_of_true (h.newMediaFrame hs') trivial
  | isOkToTransmit time_us slow prioritized r => exact h.isOkToTransmit_iff hs'
  | addTransmitted time_us ssrc size seqNr => exact iff_of_true (h.addTransmitted hs') trivial
  | incomingFeedback fb r =>
      obtain rfl := Option.some.inj hs'
      exact iff_of_true (h.incomingFeedback fb r) trivial
  | getTargetBitrate ssrc =>
      obtain ⟨tx, _, rfl⟩ := Option.map_eq_some_iff.mp hs'
      exact iff_of_true h trivial
  | setTargetPriority ssrc priority queueDelayFractionAvg inFastStart =>
      rw [h.modifyStream_iff hs']
      refine forall₄_congr fun found _ stream hstream => ?_
      exact (h stream (List.mem_of_getElem? hstream)).setTargetPriority_iff priority _
  | updateBitrateStream ssrc minBitrate maxBitrate => exact h.modifyStream_iff hs'

/-- **The limits of the targets**: the calls of a run all lead to states within the limits
exactly if each of them keeps the limits. -/
theorem inLimits_iff_of_run {lossBetaBelowOne isL4s : Bool} {calls : List (Call α)} :
    Run (fun s call s' => (s.perform call = some s' ∧ call.Ordered) ∧ s'.Within)
        (new lossBetaBelowOne isL4s) calls s ↔
      Run (fun s call s' => (s.perform call = some s' ∧ call.Ordered) ∧ s.KeepsLimits call)
        (new lossBetaBelowOne isL4s) calls s := by
  refine Run.restrict_iff (I := Within) (new_within lossBetaBelowOne isL4s)
    fun s call s' hwithin hstep => ?_
  have hiff := hwithin.perform_iff hstep.2 hstep.1
  exact ⟨hiff, hiff.mpr⟩

/-- A product with nine tenths that is not above the number itself, for numbers that are not
negative, is all that a call of `isOkToTransmit` needs. -/
theorem Within.isOkToTransmit_keepsLimits (h : s.Within) {zero : FloatVal α}
    (hshrinks : ∀ x : FloatVal α, zero ≤ x → x * lit 0.9 ≤ x)
    (hzero : ∀ stream ∈ s.streams, zero ≤ stream.minBitrate) (time_us : Nat) (slow : Bool)
    (prioritized : Option Nat) (r : PriorityReadings α) :
    s.KeepsLimits (.isOkToTransmit time_us slow prioritized r) := by
  intro _ _ n stream hstream _
  have hmem := List.mem_of_getElem? hstream
  have hwithin := h stream hmem
  have hless := hshrinks _ (le_of_float_le_of_le (hzero stream hmem) hwithin.1)
  have hle := le_of_float_le_of_le hless hwithin.2
  exact (FloatVal.not_lt (ne_nan_of_le hle).2 (ne_nan_of_le hle).1).mpr hle

/-! ## Concrete runs -/

section Rounded

/-- An operation on numbers, rounded to 24 binary digits. -/
def rounded (f : ℚ → ℚ → ℚ) : FloatVal ℚ → FloatVal ℚ → FloatVal ℚ
  | num x, num y => num (toFloat (f x y))
  | _, _ => nan

/-- The arithmetic of finite numbers. -/
local instance : FloatArith ℚ where
  lit x := num (toFloat x)
  ofInt n := num (toFloat n)
  add := rounded (· + ·)
  sub := rounded (· - ·)
  mul := rounded (· * ·)
  div x y := if y = num 0 then nan else rounded (· / ·) x y
  scale x c := rounded (· * ·) x (num c)
  sqrt
    | num x => if x < 0 then nan else num (toFloat (Rat.sqrt x))
    | nan => nan

/-- A stream of 256 kbps to 33 Mbps that starts with 2 Mbps. -/
def videoSettings : StreamSettings ℚ where
  priority := num 1
  minBitrate := num 256000
  startBitrate := num 2048000
  maxBitrate := num 32768000
  rampUpSpeed := num 2000000
  maxRtpQueueDelay := num 0.1
  txQueueSizeFactor := num 0.2
  queueDelayGuard := num 0.1
  lossEventRateScale := num 0.9
  ecnCeEventRateScale := num 0.95

/-- The limits get narrower around the target. -/
def narrowed : List (Call ℚ) :=
  [.registerNewStream 7 videoSettings false, .addTransmitted 1000 7 1200 1,
    .updateBitrateStream 7 (num 128000) (num 4096000)]

theorem inLimits_iff_of_run_narrowed :
    ∃ s, Run (fun s call s' => (s.perform call = some s' ∧ call.Ordered) ∧ s'.Within)
      (new true false) narrowed s := by
  have hregister : (Call.registerNewStream 7 videoSettings false).Ordered :=
    num_le_num.mpr (by norm_num)
  have hnarrow : (Call.updateBitrateStream 7 (num (128000 : ℚ)) (num 4096000)).Ordered :=
    num_le_num.mpr (by norm_num)
  refine ⟨_, inLimits_iff_of_run.mpr
    (((Run.nil.snoc ⟨⟨rfl, hregister⟩, trivial⟩).snoc ⟨⟨rfl, trivial⟩, trivial⟩).snoc
      ⟨⟨rfl, hnarrow⟩, ?_⟩)⟩
  rintro found hfound stream hstream
  obtain rfl := Option.some.inj hfound
  obtain rfl := Option.some.inj hstream
  exact ⟨num_le_num.mpr (by norm_num), num_le_num.mpr (by norm_num)⟩

/-- The minimum is raised above the target. -/
def raised : List (Call ℚ) :=
  [.registerNewStream 7 videoSettings false, .updateBitrateStream 7 (num 4096000) (num 8192000)]

/-- **New limits do not move the target.** -/
theorem not_within_raised :
    ∃ s, raised.foldlM perform (new true false) = some s ∧ (∀ call ∈ raised, call.Ordered) ∧
      ¬ s.Within := by
  refine ⟨_, rfl, ?_, ?_⟩
  · intro call hcall
    rcases List.mem_cons.mp hcall with rfl | hcall
    · exact num_le_num.mpr (by norm_num)
    · rw [List.mem_singleton.mp hcall]
      exact num_le_num.mpr (by norm_num)
  · intro hwithin
    have hmin := (hwithin _ (List.mem_singleton_self _)).1
    have hless : (4096000 : ℚ) ≤ 2048000 := num_le_num.mp hmin
    norm_num at hless

end Rounded

end BitrateTx

end Scream
