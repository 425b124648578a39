import RmcatNs3.Lib.Runs
import RmcatNs3.Razor.AimdSteps
import RmcatNs3.Razor.RateRuns
import RmcatNs3.Razor.RemoteEstimator

/-!
# What drives the receiver's estimate

Runs of the estimator. `rate_stat_rate` returns `-1` if nothing can be measured, which
`rbe_update_estimate` takes over as a rate of 4294967295 bps. A packet only leads to an
update if its rate was found to be positive; the heartbeat does not ask.
-/

namespace Razor

open MachineInt Runs

/-- The calls of a run, with what `math.h` computes in each. -/
inductive RembOp (𝕜 : Type) where
  | incomingPacket (math : AimdMath 𝕜) (timestamp : BitVec 32) (arrivalTs : Int)
      (payloadSize : Nat) (nowTs : Int)
  | heartbeat (math : AimdMath 𝕜) (nowTs : Int)
  | updateRtt (rtt : Nat)

namespace RemoteBitrateEstimator

variable {𝕜 : Type} [Field 𝕜] [LinearOrder 𝕜]

/-- One call, and what it passes to `aimd_update`. -/
def perform (est : RemoteBitrateEstimator 𝕜) :
    RembOp 𝕜 → Option (Option RateControlInput × RemoteBitrateEstimator 𝕜)
  | .incomingPacket math timestamp arrivalTs payloadSize nowTs =>
      est.incomingPacket math timestamp arrivalTs payloadSize nowTs
  | .heartbeat math nowTs =>
      (est.heartbeat math nowTs).map fun (reply, est) => (reply.passed, est)
  | .updateRtt rtt => some (none, est.updateRtt rtt)

/-- The estimator after the call. -/
def next (est : RemoteBitrateEstimator 𝕜) (op : RembOp 𝕜) : Option (RemoteBitrateEstimator 𝕜) :=
  (est.perform op).map (·.2)

def Step (est : RemoteBitrateEstimator 𝕜) (op : RembOp 𝕜) (est' : RemoteBitrateEstimator 𝕜) :
    Prop :=
  est.next op = some est'

/-- An estimator that was created, and may have been given its limits. -/
def Initial (est : RemoteBitrateEstimator 𝕜) : Prop :=
  ∃ sysMs, est = create sysMs ∨ ∃ minBitrate maxBitrate,
    est = ((create sysMs).setMinBitrate minBitrate).setMaxBitrate maxBitrate

/-- The rate that is measured in the window, after a call. -/
def MeasuredAs (math : AimdMath 𝕜) (nowTs : Int) (est : RemoteBitrateEstimator 𝕜) (rate : Nat) :
    Prop :=
  ¬est.incomingBitrate.Unmeasured nowTs ∧ rate < 2 ^ 31 ∧
    (rate : Int) = measureRate math est.incomingBitrate.accumulatedCount
      (est.incomingBitrate.activeWndSize nowTs)

/-- What `aimd_update` may add for what was passed to it. -/
def ownStep (math : AimdMath 𝕜) (nowTs : Int) (est : RemoteBitrateEstimator 𝕜) :
    Option RateControlInput → Nat
  | none => 0
  | some input => est.aimd.ownStep math input nowTs

/-- The estimate is driven by measured rates. -/
structure DrivenAt (math : AimdMath 𝕜) (nowTs : Int) (est : RemoteBitrateEstimator 𝕜)
    (passed : Option RateControlInput) (est' : RemoteBitrateEstimator 𝕜) : Prop where
  measured : ∀ input, passed = some input →
    input.incomingBitrate = 0 ∨ est'.MeasuredAs math nowTs input.incomingBitrate
  /-- Without a measured rate there is no new estimate, and no more than a step is added. -/
  raised : (∀ rate, est'.MeasuredAs math nowTs rate → rate = 0) →
    ∀ remb', est'.lastEstimate = some remb' → ∃ remb, est.lastEstimate = some remb ∧
      remb' ≤ remb + est.ownStep math nowTs passed
  bound : ∀ rate, 3 * rate < 2 ^ 32 →
    AimdRateController.clampBound rate = 3 * rate / 2 + 10000

/-- The same of a call. -/
def Driven (est : RemoteBitrateEstimator 𝕜) (passed : Option RateControlInput)
    (est' : RemoteBitrateEstimator 𝕜) : RembOp 𝕜 → Prop
  | .incomingPacket math _ _ _ nowTs => DrivenAt math nowTs est passed est'
  | .heartbeat math nowTs => DrivenAt math nowTs est passed est'
  | .updateRtt _ => passed = none ∧ est'.lastEstimate = est.lastEstimate

/-- The window holds a rate, and it fits in an `int`. -/
def WindowMeasured (math : AimdMath 𝕜) (nowTs : Int) (stat : RateStat kRateWindowSize) : Prop :=
  ¬stat.Unmeasured nowTs ∧
    0 ≤ measureRate math stat.accumulatedCount (stat.activeWndSize nowTs)

/-- A heartbeat that updates needs a rate in the window, once the old samples are erased. -/
def Fits (est : RemoteBitrateEstimator 𝕜) : RembOp 𝕜 → Prop
  | .heartbeat math nowTs =>
      nowTs ≥ est.lastUpdateTs + est.intervalTs → est.RecentPacket nowTs →
        ∀ stat, est.incomingBitrate.erase nowTs = some stat → WindowMeasured math nowTs stat
  | _ => True

/-! ## The calls -/

variable {math : AimdMath 𝕜} {nowTs : Int} {est est' : RemoteBitrateEstimator 𝕜}
  {input : RateControlInput} {passed : Option RateControlInput}

omit [LinearOrder 𝕜] in
theorem measureRate_lt (math : AimdMath 𝕜) (count wndSize : Int) :
    measureRate math count wndSize < 2 ^ 31 := by
  have := @Int.bmod_lt (math.half (count * kRateScale / wndSize)) (2 ^ 32)
    (by decide)
  unfold measureRate toSigned
  omega

omit [LinearOrder 𝕜] in
theorem le_measureRate (math : AimdMath 𝕜) (count wndSize : Int) :
    -2 ^ 31 ≤ measureRate math count wndSize := by
  have := @Int.le_bmod (math.half (count * kRateScale / wndSize)) (2 ^ 32)
    (by decide)
  unfold measureRate toSigned
  omega

/-- **An update** passes on what the window returns. -/
theorem updateEstimate_spec (h : est.updateEstimate math nowTs = some (input, est')) :
    est.incomingBitrate.erase nowTs = some est'.incomingBitrate ∧
      input.incomingBitrate
        = toUnsigned 32 (est'.incomingBitrate.value (measureRate math) nowTs) ∧
      est'.aimd = est.aimd.update math input nowTs := by
  -- the reset leaves the statistics and the controller alone
  obtain ⟨state, est₁, hpair, hstat, haimd⟩ : ∃ state est₁,
      (if nowTs > est.lastPacketTs + kMaxUpdateTimeout then (BwState.kBwNormal, est.reset)
        else (est.detector.state, est)) = (state, est₁) ∧
      est₁.incomingBitrate = est.incomingBitrate ∧ est₁.aimd = est.aimd := by
    split <;> exact ⟨_, _, rfl, rfl, rfl⟩
  unfold updateEstimate at h
  rw [hpair] at h
  obtain ⟨⟨rate, stat⟩, hrate, h⟩ := Option.bind_eq_some_iff.mp h
  rw [RateStat.rate_eq, hstat] at hrate
  obtain ⟨stat', herase, heq⟩ := Option.map_eq_some_iff.mp hrate
  obtain ⟨rfl, rfl⟩ := Prod.mk.inj heq
  obtain ⟨rfl, rfl⟩ := Prod.mk.inj (Option.some.inj h)
  exact ⟨herase, rfl, by rw [haimd]⟩

omit [LinearOrder 𝕜] in
/-- The controller is left alone until the estimate is updated. -/
theorem countPacket_aimd {payloadSize : Nat}
    (h : est.countPacket math payloadSize nowTs = some est') : est'.aimd = est.aimd := by
  obtain ⟨⟨rate, stat⟩, -, h⟩ := Option.bind_eq_some_iff.mp h
  obtain ⟨stat', -, h⟩ := Option.bind_eq_some_iff.mp h
  obtain rfl := Option.some.inj h
  rfl

theorem detectPacket_aimd (math : AimdMath 𝕜) (est : RemoteBitrateEstimator 𝕜)
    (p : ArrivedPacket) : (est.detectPacket math p).aimd = est.aimd := by
  unfold detectPacket
  extract_lets outcome
  cases outcome.deltas <;> rfl

/-- **A packet** updates the estimate if the rate in the window is positive, or not at all. -/
theorem incomingPacket_spec {timestamp : BitVec 32} {arrivalTs : Int} {payloadSize : Nat}
    (h : est.incomingPacket math timestamp arrivalTs payloadSize nowTs = some (passed, est')) :
    (passed = none ∧ est'.aimd = est.aimd) ∨
      ∃ input, passed = some input ∧
        0 < est'.incomingBitrate.value (measureRate math) nowTs ∧
        input.incomingBitrate
          = toUnsigned 32 (est'.incomingBitrate.value (measureRate math) nowTs) ∧
        est'.aimd = est.aimd.update math input nowTs := by
  obtain ⟨est₁, hcount, h⟩ := Option.bind_eq_some_iff.mp h
  have haimd := (detectPacket_aimd math est₁ ⟨timestamp, arrivalTs, nowTs, payloadSize⟩).trans
    (countPacket_aimd hcount)
  simp only at h
  generalize est₁.detectPacket math ⟨timestamp, arrivalTs, nowTs, payloadSize⟩ = est₂ at h haimd
  by_cases hover : est₂.detector.state = .kBwOverusing
  · rw [if_pos hover] at h
    obtain ⟨⟨rate, stat⟩, hrate, h⟩ := Option.bind_eq_some_iff.mp h
    rw [RateStat.rate_eq] at hrate
    obtain ⟨stat', herase, heq⟩ := Option.map_eq_some_iff.mp hrate
    obtain ⟨rfl, rfl⟩ := Prod.mk.inj heq
    simp only at h
    split at h
    · -- the rate is taken once more, from the same window
      rename_i hpos
      obtain ⟨⟨passed₃, est₃⟩, hupdate, h⟩ := Option.bind_eq_some_iff.mp h
      obtain ⟨⟨input, est₄⟩, hestimate, heq⟩ := Option.map_eq_some_iff.mp hupdate
      obtain ⟨rfl, rfl⟩ := Prod.mk.inj heq
      obtain ⟨rfl, rfl⟩ := Prod.mk.inj (Option.some.inj h)
      obtain ⟨hagain, hinput, hupdated⟩ := updateEstimate_spec hestimate
      have hstat : est₄.incomingBitrate = stat' :=
        Option.some.inj (hagain.symm.trans (RateStat.erase_erase herase))
      refine .inr ⟨input, rfl, ?_, hinput, by rw [← haimd]; exact hupdated⟩
      show 0 < est₄.incomingBitrate.value (measureRate math) nowTs
      rw [hstat]
      exact hpos.1
    · obtain ⟨rfl, rfl⟩ := Prod.mk.inj (Option.some.inj h)
      exact .inl ⟨rfl, haimd⟩
  · rw [if_neg hover] at h
    obtain ⟨rfl, rfl⟩ := Prod.mk.inj (Option.some.inj h)
    exact .inl ⟨rfl, haimd⟩

/-- **The heartbeat** updates the estimate when its interval is over and a packet is recent. -/
theorem heartbeat_spec {reply : RembReply}
    (h : est.heartbeat math nowTs = some (reply, est')) :
    (reply.passed = none ∧ est'.aimd = est.aimd ∧
      ¬(nowTs ≥ est.lastUpdateTs + est.intervalTs ∧ est.RecentPacket nowTs)) ∨
    ∃ input, reply.passed = some input ∧
      nowTs ≥ est.lastUpdateTs + est.intervalTs ∧ est.RecentPacket nowTs ∧
      est.incomingBitrate.erase nowTs = some est'.incomingBitrate ∧
      input.incomingBitrate
        = toUnsigned 32 (est'.incomingBitrate.value (measureRate math) nowTs) ∧
      est'.aimd = est.aimd.update math input nowTs := by
  unfold heartbeat at h
  by_cases hdue : nowTs ≥ est.lastUpdateTs + est.intervalTs
  · rw [if_pos hdue] at h
    by_cases hrecent : est.RecentPacket nowTs
    · have hrecent' : RecentPacket { est with lastUpdateTs := nowTs } nowTs := hrecent
      simp only [if_pos hrecent'] at h
      obtain ⟨⟨input, est₁⟩, hestimate, h⟩ := Option.bind_eq_some_iff.mp h
      obtain ⟨rfl, rfl⟩ := Prod.mk.inj (Option.some.inj h)
      obtain ⟨herase, hinput, haimd⟩ := updateEstimate_spec hestimate
      exact .inr ⟨input, est₁.passed_remb _, hdue, hrecent, herase, hinput, haimd⟩
    · have hrecent' : ¬RecentPacket { est with lastUpdateTs := nowTs } nowTs := hrecent
      simp only [if_neg hrecent'] at h
      obtain ⟨rfl, rfl⟩ := Prod.mk.inj (Option.some.inj h)
      exact .inl ⟨passed_remb _ none, rfl, fun hboth => hrecent hboth.2⟩
  · rw [if_neg hdue] at h
    obtain ⟨rfl, rfl⟩ := Prod.mk.inj (Option.some.inj h)
    exact .inl ⟨rfl, rfl, fun hboth => hdue hboth.1⟩

/-! ## The window -/

omit [LinearOrder 𝕜] in
/-- What is passed on is the value of the window exactly if it holds a rate. -/
theorem measured_iff (hinput : input.incomingBitrate
      = toUnsigned 32 (est'.incomingBitrate.value (measureRate math) nowTs)) :
    (input.incomingBitrate = 0 ∨ est'.MeasuredAs math nowTs input.incomingBitrate) ↔
      WindowMeasured math nowTs est'.incomingBitrate := by
  unfold RateStat.value at hinput
  unfold MeasuredAs WindowMeasured
  by_cases hnone : est'.incomingBitrate.Unmeasured nowTs
  · -- the value is -1
    have hwrapped : toUnsigned 32 (-1) = 4294967295 := by decide
    rw [if_pos hnone, hwrapped] at hinput
    refine iff_of_false ?_ fun h => h.1 hnone
    rintro (hzero | hmeasured)
    · omega
    · exact hmeasured.1 hnone
  · rw [if_neg hnone] at hinput
    have hlt := measureRate_lt math est'.incomingBitrate.accumulatedCount
      (est'.incomingBitrate.activeWndSize nowTs)
    have hge := le_measureRate math est'.incomingBitrate.accumulatedCount
      (est'.incomingBitrate.activeWndSize nowTs)
    have hcast := toUnsigned_cast 32 (measureRate math est'.incomingBitrate.accumulatedCount
      (est'.incomingBitrate.activeWndSize nowTs))
    rw [← hinput] at hcast
    simp only [hnone, not_false_iff, true_and]
    omega

omit [LinearOrder 𝕜] in
/-- The value of a window that holds a rate. -/
theorem incoming_eq_zero (h : WindowMeasured math nowTs est'.incomingBitrate)
    (hinput : input.incomingBitrate
      = toUnsigned 32 (est'.incomingBitrate.value (measureRate math) nowTs))
    (hzero : ∀ rate, est'.MeasuredAs math nowTs rate → rate = 0) :
    input.incomingBitrate = 0 := by
  rcases (measured_iff hinput).mpr h with hnone | hmeasured
  · exact hnone
  · exact hzero _ hmeasured

/-! ## Runs -/

/-- **An update** is driven by a measured rate exactly if there is one in the window. -/
theorem drivenAt_iff (hsound : est.aimd.Sound) (hinput : input.incomingBitrate
      = toUnsigned 32 (est'.incomingBitrate.value (measureRate math) nowTs))
    (haimd : est'.aimd = est.aimd.update math input nowTs) :
    DrivenAt math nowTs est (some input) est' ↔
      WindowMeasured math nowTs est'.incomingBitrate := by
  constructor
  · intro h
    exact (measured_iff hinput).mp (h.measured input rfl)
  · intro h
    refine ⟨?_, ?_, fun rate => AimdRateController.clampBound_eq⟩
    · intro input' heq
      obtain rfl := Option.some.inj heq
      exact (measured_iff hinput).mpr h
    · intro hzero remb' hremb
      unfold lastEstimate at hremb ⊢
      split at hremb
      · cases hremb
      · rename_i hset
        obtain rfl := Option.some.inj hremb
        rw [haimd] at hset ⊢
        obtain ⟨hset', hle⟩ := hsound.update_unmeasured (incoming_eq_zero h hinput hzero) hset
        exact ⟨est.aimd.currRate, if_neg hset', hle⟩

/-- Nothing is passed on, and the estimate stays what it is. -/
theorem drivenAt_none (haimd : est'.aimd = est.aimd) : DrivenAt math nowTs est none est' := by
  refine ⟨fun input h => absurd h.symm (Option.some_ne_none input), ?_,
    fun rate => AimdRateController.clampBound_eq⟩
  intro _ remb hremb
  unfold lastEstimate at hremb ⊢
  rw [haimd] at hremb
  exact ⟨remb, hremb, Nat.le_add_right _ _⟩

/-- **A call** keeps the controller sound. -/
theorem Step.sound {op : RembOp 𝕜} (hsound : est.aimd.Sound) (hstep : Step est op est') :
    est'.aimd.Sound := by
  obtain ⟨⟨passed, est₂⟩, hop, rfl⟩ := Option.map_eq_some_iff.mp hstep
  cases op with
  | incomingPacket math timestamp arrivalTs payloadSize nowTs =>
      rcases incomingPacket_spec hop with ⟨-, haimd⟩ | ⟨input, -, -, -, haimd⟩
      · exact haimd ▸ hsound
      · exact haimd ▸ hsound.update
  | heartbeat math nowTs =>
      obtain ⟨⟨reply, est₁⟩, hbeat, heq⟩ := Option.map_eq_some_iff.mp hop
      obtain ⟨rfl, rfl⟩ := Prod.mk.inj heq
      rcases heartbeat_spec hbeat with ⟨-, haimd, -⟩ | ⟨input, -, -, -, -, -, haimd⟩
      · exact haimd ▸ hsound
      · exact haimd ▸ hsound.update
  | updateRtt rtt =>
      obtain ⟨-, rfl⟩ := Prod.mk.inj (Option.some.inj hop)
      exact ⟨hsound.state, hsound.settled⟩

/-- **A call is driven by measured rates** exactly if it fits. -/
theorem perform_driven_iff {op : RembOp 𝕜} (hsound : est.aimd.Sound)
    (hop : est.perform op = some (passed, est')) : Driven est passed est' op ↔ Fits est op := by
  cases op with
  | incomingPacket math timestamp arrivalTs payloadSize nowTs =>
      refine iff_of_true ?_ trivial
      rcases incomingPacket_spec hop with ⟨rfl, haimd⟩ | ⟨input, rfl, hpos, hinput, haimd⟩
      · exact drivenAt_none haimd
      · refine (drivenAt_iff hsound hinput haimd).mpr ?_
        -- the guard asks for a positive rate, which `-1` is not
        unfold RateStat.value at hpos
        split at hpos
        · exact absurd hpos (by decide)
        · rename_i hsome
          exact ⟨hsome, Int.le_of_lt hpos⟩
  | heartbeat math nowTs =>
      obtain ⟨⟨reply, est₁⟩, hbeat, heq⟩ := Option.map_eq_some_iff.mp hop
      obtain ⟨rfl, rfl⟩ := Prod.mk.inj heq
      rcases heartbeat_spec hbeat with ⟨hnone, haimd, hquiet⟩ |
        ⟨input, hpassed, hdue, hrecent, herase, hinput, haimd⟩
      · rw [hnone]
        exact iff_of_true (drivenAt_none haimd) fun hdue hrecent => absurd ⟨hdue, hrecent⟩ hquiet
      · rw [hpassed]
        refine (drivenAt_iff hsound hinput haimd).trans
          ⟨?_, fun hfits => hfits hdue hrecent _ herase⟩
        -- the window is erased up to the same time, so its rate is the one that was passed
        intro hmeasured _ _ stat hstat
        obtain rfl := Option.some.inj (herase.symm.trans hstat)
        exact hmeasured
  | updateRtt rtt =>
      obtain ⟨rfl, rfl⟩ := Prod.mk.inj (Option.some.inj hop)
      exact iff_of_true ⟨rfl, rfl⟩ trivial

omit [LinearOrder 𝕜] in
theorem Initial.sound (h : Initial est) : est.aimd.Sound := by
  obtain ⟨sysMs, rfl | ⟨minBitrate, maxBitrate, rfl⟩⟩ := h
  · exact ⟨RcState.noConfusion, fun hset => absurd rfl hset⟩
  · exact ⟨RcState.noConfusion, fun hset => absurd rfl hset⟩

/-- **The estimate is driven by measured rates** at exactly the calls that fit, in every run. -/
theorem driven_iff_of_run {est₀ : RemoteBitrateEstimator 𝕜} {ops : List (RembOp 𝕜)}
    {op : RembOp 𝕜} (hinit : Initial est₀) (hrun : Run Step est₀ ops est)
    (hop : est.perform op = some (passed, est')) : Driven est passed est' op ↔ Fits est op := by
  have hsound : est.aimd.Sound := by
    refine hrun.stateInvariant (I := fun est => est.aimd.Sound) hinit.sound ?_
    intro s e s' hi hstep
    exact hstep.sound hi
  exact perform_driven_iff hsound hop

/-- What a run and one more call show. -/
theorem run_view {α : Type} {est₀ : RemoteBitrateEstimator 𝕜} {ops : List (RembOp 𝕜)}
    {op : RembOp 𝕜} {a : α}
    {view : Option RateControlInput → RemoteBitrateEstimator 𝕜 → RemoteBitrateEstimator 𝕜 → α}
    (h : (ops.foldlM next est₀).bind (fun est => (est.perform op).map fun r => view r.1 est r.2)
      = some a) :
    ∃ est passed est', Run Step est₀ ops est ∧ est.perform op = some (passed, est') ∧
      view passed est est' = a := by
  obtain ⟨est, hrun, h⟩ := Option.bind_eq_some_iff.mp h
  obtain ⟨⟨passed, est'⟩, hop, hview⟩ := Option.map_eq_some_iff.mp h
  exact ⟨est, passed, est', Run.of_foldlM hrun, hop, hview⟩

/-- Powers with the exponents 0 and 1, and whole parts. -/
def sampleMath : AimdMath ℚ := ⟨id, fun a x => if x = 0 then 1 else a, (·.ceil), (·.floor)⟩

def sampleStart : RemoteBitrateEstimator ℚ :=
  ((create 0).setMinBitrate 64000).setMaxBitrate 12800000

theorem sampleStart_initial : Initial sampleStart := ⟨0, .inr ⟨64000, 12800000, rfl⟩⟩

/-- Two packets within the second before a heartbeat. -/
theorem driven_iff_of_run_twoPackets : ∃ est passed est',
    Run Step sampleStart [.incomingPacket sampleMath 0 1 1000 1,
      .incomingPacket sampleMath 0 301 1000 301] est ∧
    est.perform (.heartbeat sampleMath 501) = some (passed, est') ∧
    passed = some ⟨.kBwNormal, 31936⟩ ∧
    (Driven est passed est' (.heartbeat sampleMath 501) ↔
      Fits est (.heartbeat sampleMath 501)) := by
  obtain ⟨est, passed, est', hrun, hop, hview⟩ := @run_view ℚ _ _ _ sampleStart
    [.incomingPacket sampleMath 0 1 1000 1, .incomingPacket sampleMath 0 301 1000 301]
    (.heartbeat sampleMath 501) (some ⟨.kBwNormal, 31936⟩) (fun passed _ _ => passed)
    (by decide +kernel)
  exact ⟨est, passed, est', hrun, hop, hview, driven_iff_of_run sampleStart_initial hrun hop⟩

/-- A single packet after a pause: there is no rate to be measured, and the first estimate
is the highest one. -/
theorem not_driven_pause : ∃ est passed est',
    Run Step sampleStart [.incomingPacket sampleMath 0 1 1000 1, .heartbeat sampleMath 501,
      .incomingPacket sampleMath 0 6000 1000 6000] est ∧
    est.perform (.heartbeat sampleMath 6100) = some (passed, est') ∧
    passed = some ⟨.kBwNormal, 4294967295⟩ ∧ est.lastEstimate = none ∧
    est'.lastEstimate = some 12800000 ∧ ¬Driven est passed est' (.heartbeat sampleMath 6100) := by
  obtain ⟨est, passed, est', hrun, hop, hview⟩ := @run_view ℚ _ _ _ sampleStart
    [.incomingPacket sampleMath 0 1 1000 1, .heartbeat sampleMath 501,
      .incomingPacket sampleMath 0 6000 1000 6000] (.heartbeat sampleMath 6100)
    (some ⟨.kBwNormal, 4294967295⟩, none, some 12800000)
    (fun passed est est' => (passed, est.lastEstimate, est'.lastEstimate)) (by decide +kernel)
  obtain ⟨hpassed, hbefore, hafter⟩ :
      passed = _ ∧ est.lastEstimate = _ ∧ est'.lastEstimate = _ := by
    simpa only [Prod.mk.injEq] using hview
  refine ⟨est, passed, est', hrun, hop, hpassed, hbefore, hafter, fun hdriven => ?_⟩
  rcases hdriven.measured _ hpassed with hzero | ⟨-, hlt, -⟩
  · exact absurd hzero (by decide)
  · exact absurd hlt (by decide)

end RemoteBitrateEstimator

end Razor
