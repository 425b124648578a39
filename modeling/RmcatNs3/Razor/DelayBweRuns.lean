import RmcatNs3.Razor.DelayBwe
import RmcatNs3.Razor.RisingRate

/-!
# A delay that does not grow

Runs of the estimator over feedbacks whose packets do not wait longer and longer. The packets
that were sent before the estimator was created are not looked at. The groups, the trend and the
detector agree that there is no over-use, and then the rate is not lowered.
-/

namespace Razor

open MachineInt InterArrival

/-! ## Groups -/

/-- The later one of two packets was not on its way for longer. -/
def Drains (p q : PacketFeedback) : Prop :=
  p.arrivalTs ≤ q.arrivalTs ∧ q.arrivalTs - q.sendTs ≤ p.arrivalTs - p.sendTs

/-- Packets whose delay does not grow, within the range of the timestamps. -/
structure Smooth (firstTs : Int) (packets : List PacketFeedback) : Prop where
  drains : packets.Pairwise Drains
  arrivals : ∀ p ∈ packets, 0 ≤ p.arrivalTs
  sent : ∀ p ∈ packets, firstTs ≤ p.sendTs ∧ p.sendTs < firstTs + 2 ^ 32
  few : packets.length < 2 ^ 31

theorem Smooth.sublist {firstTs : Int} {ps qs : List PacketFeedback} (h : Smooth firstTs qs)
    (hsub : ps.Sublist qs) : Smooth firstTs ps where
  drains := h.drains.sublist hsub
  arrivals := fun p hp => h.arrivals p (hsub.subset hp)
  sent := fun p hp => h.sent p (hsub.subset hp)
  few := hsub.length_le.trans_lt h.few

/-- A group ends with a packet. -/
structure EndsWith (firstTs : Int) (p : PacketFeedback) (g : TimestampGroup) : Prop where
  timestamp : (g.timestamp.toNat : Int) = p.sendTs - firstTs
  completeTs : g.completeTs = p.arrivalTs

/-- The groups end with packets that have been looked at. -/
structure Grouped (firstTs : Int) (seen : List PacketFeedback) (arr : InterArrival) : Prop where
  cur : arr.curTsGroup.completeTs = -1 ∨ ∃ c ∈ seen, EndsWith firstTs c arr.curTsGroup
  prev : arr.prevTsGroup.completeTs = -1 ∨ ∃ p ∈ seen, ∃ c ∈ seen,
    EndsWith firstTs p arr.prevTsGroup ∧ EndsWith firstTs c arr.curTsGroup ∧ Drains p c

theorem create_grouped (firstTs : Int) (seen : List PacketFeedback) (burst : Int)
    (groupTicks : BitVec 32) : Grouped firstTs seen (.create burst groupTicks) :=
  ⟨.inl rfl, .inl rfl⟩

section Groups

variable {firstTs : Int} {seen : List PacketFeedback} {arr : InterArrival}
  {packet : PacketFeedback} {p : ArrivedPacket}

/-- The deltas of two groups that end with packets. -/
theorem arrivalDelta_le {g g' : TimestampGroup} {a b : PacketFeedback}
    (ha : EndsWith firstTs a g) (hb : EndsWith firstTs b g') (hdrains : Drains a b) :
    g'.completeTs - g.completeTs ≤ ((g'.timestamp - g.timestamp).toNat : Int) := by
  have hlt := g.timestamp.isLt
  have hlt' := g'.timestamp.isLt
  have hsent := ha.timestamp
  have hsent' := hb.timestamp
  obtain ⟨harrival, hdelay⟩ := hdrains
  have hsub : (g'.timestamp - g.timestamp).toNat = g'.timestamp.toNat - g.timestamp.toNat := by
    rw [BitVec.toNat_sub]
    omega
  rw [hsub, ha.completeTs, hb.completeTs]
  omega

/-- **One more packet**: the groups arrive in no more time than they were sent in. -/
theorem Grouped.computeDeltas (h : Grouped firstTs seen arr)
    (hsmooth : Smooth firstTs (seen ++ [packet]))
    (hstamp : (p.timestamp.toNat : Int) = packet.sendTs - firstTs)
    (harrival : p.arrivalTs = packet.arrivalTs) :
    Grouped firstTs (seen ++ [packet]) (arr.computeDeltas p).arr ∧
      ∀ d, (arr.computeDeltas p).deltas = some d → d.arrivalDelta ≤ d.timestampDelta.toNat := by
  have hlast : ∀ q ∈ seen, Drains q packet := fun q hq =>
    (List.pairwise_append.mp hsmooth.drains).2.2 q hq packet (List.mem_singleton_self packet)
  have harrived : ∀ q ∈ seen, 0 ≤ q.arrivalTs :=
    fun q hq => hsmooth.arrivals q (List.mem_append_left _ hq)
  have hmem : packet ∈ seen ++ [packet] :=
    List.mem_append_right _ (List.mem_singleton_self packet)
  have hkeep : ∀ {q}, q ∈ seen → q ∈ seen ++ [packet] := fun hq => List.mem_append_left _ hq
  rcases computeDeltas_cases arr p with ⟨_, hdeltas, hprev, hcur⟩ |
    ⟨_, hset, hprev, hcur, hdeltas⟩ | ⟨_, hdeltas, hcur, hprev⟩ | ⟨_, hdeltas, _, hcur, hprev⟩
  · -- the packet is the last one of the group in progress
    have hends : EndsWith firstTs packet (arr.computeDeltas p).arr.curTsGroup := by
      rcases hcur with ⟨_, hcur⟩ | ⟨hset, hcur⟩
      · rw [hcur]
        exact ⟨hstamp, harrival⟩
      · obtain ⟨c, hc, hends⟩ := h.cur.resolve_left hset
        have hdrains := hlast c hc
        have hbefore := hends.timestamp
        rw [hcur]
        refine ⟨?_, harrival⟩
        show ((if arr.curTsGroup.timestamp < p.timestamp then p.timestamp
          else arr.curTsGroup.timestamp).toNat : Int) = _
        unfold Drains at hdrains
        split
        · exact hstamp
        · rename_i hle
          rw [BitVec.lt_def] at hle
          omega
    refine ⟨⟨.inr ⟨packet, hmem, hends⟩, ?_⟩, fun d hd => nomatch hdeltas.symm.trans hd⟩
    rw [hprev]
    rcases h.prev with hnone | ⟨q, hq, _, _, hq', _, _⟩
    · exact .inl hnone
    · exact .inr ⟨q, hkeep hq, packet, hmem, hq', hends, hlast q hq⟩
  · -- the packet opens a group behind the one that it completes
    obtain ⟨c, hc, hends⟩ := h.cur.resolve_left hset
    have hopened : EndsWith firstTs packet (arr.computeDeltas p).arr.curTsGroup := by
      rw [hcur]
      exact ⟨hstamp, harrival⟩
    refine ⟨⟨.inr ⟨packet, hmem, hopened⟩, .inr ⟨c, hkeep hc, packet, hmem, ?_, hopened,
      hlast c hc⟩⟩, ?_⟩
    · rw [hprev]
      exact hends
    · intro d hd
      obtain ⟨hcomplete, _, rfl⟩ := hdeltas d hd
      obtain ⟨q, hq, c, hc, hq', hc', hdrains⟩ := h.prev.resolve_left (by omega)
      exact arrivalDelta_le hq' hc' hdrains
  · refine ⟨⟨?_, ?_⟩, fun d hd => nomatch hdeltas.symm.trans hd⟩
    · rw [hcur]
      exact h.cur.imp_right fun ⟨c, hc, hends⟩ => ⟨c, hkeep hc, hends⟩
    · rw [hcur, hprev]
      exact h.prev.imp_right fun ⟨q, hq, c, hc, hends⟩ => ⟨q, hkeep hq, c, hkeep hc, hends⟩
  · refine ⟨⟨.inl ?_, .inl ?_⟩, fun d hd => nomatch hdeltas.symm.trans hd⟩
    · rw [hcur]
      rfl
    · rw [hprev]
      rfl

end Groups

namespace DelayBaseBwe

open TrendlineEstimator AimdRateController

/-! ## Packets -/

/-- The timestamp of a packet in the range. -/
theorem timestamp_arrived {𝕜 : Type*} {firstTs : Int} {packet : PacketFeedback}
    {bwe : DelayBaseBwe 𝕜} (hfirst : bwe.firstTs = firstTs)
    (hsent : firstTs ≤ packet.sendTs ∧ packet.sendTs < firstTs + 2 ^ 32) (nowTs : Int) :
    ((bwe.arrived packet nowTs).timestamp.toNat : Int) = packet.sendTs - firstTs := by
  show ((BitVec.ofInt 32 (packet.sendTs - bwe.firstTs)).toNat : Int) = _
  rw [BitVec.toNat_ofInt, hfirst]
  omega

variable {𝕜 : Type*} [Field 𝕜] [LinearOrder 𝕜]

/-- The trend of packets whose delay does not grow. -/
structure Trending (seen : List PacketFeedback)
    (est : TrendlineEstimator 𝕜 kTrendlineWindowSize) (inputs : List (TrendInput 𝕜)) : Prop where
  follows : Follows kTrendlineSmoothingCoeff kTrendlineThresholdGain inputs est
  falling : Falling inputs
  nonpos : est.trendline ≤ 0
  arrivals : ∀ input ∈ inputs, ∃ p ∈ seen, input.arrivalTs = p.arrivalTs
  few : inputs.length ≤ seen.length

/-- What holds after some packets have been looked at. -/
structure Calm (firstTs : Int) (seen : List PacketFeedback) (bwe : DelayBaseBwe 𝕜) : Prop where
  started : bwe.firstTs = firstTs
  groups : ∀ arr, bwe.interArrival = some arr → Grouped firstTs seen arr
  trend : ∀ est, bwe.trendlineEstimator = some est → ∃ inputs, Trending seen est inputs
  present : bwe.lastSeenMs ≠ -1 → bwe.interArrival ≠ none ∧ bwe.trendlineEstimator ≠ none
  adapted : bwe.detector.Adapted
  notOverusing : bwe.detector.state ≠ .kBwOverusing

variable {firstTs : Int} {seen : List PacketFeedback} {packet : PacketFeedback}
  {bwe : DelayBaseBwe 𝕜} {est : TrendlineEstimator 𝕜 kTrendlineWindowSize}
  {inputs : List (TrendInput 𝕜)}

theorem create_trending (seen : List PacketFeedback) (block : Block 𝕜) : Trending seen
    (.create kTrendlineSmoothingCoeff kTrendlineThresholdGain block) [] where
  follows := create_follows block
  falling := ⟨.nil, nofun⟩
  nonpos := le_refl 0
  arrivals := nofun
  few := Nat.zero_le _

theorem Trending.mono (h : Trending seen est inputs) (packet : PacketFeedback) :
    Trending (seen ++ [packet]) est inputs where
  follows := h.follows
  falling := h.falling
  nonpos := h.nonpos
  arrivals := fun input hi =>
    let ⟨p, hp, heq⟩ := h.arrivals input hi
    ⟨p, List.mem_append_left _ hp, heq⟩
  few := h.few.trans (List.length_append ▸ Nat.le_add_right _ _)

variable [IsStrictOrderedRing 𝕜]

theorem create_calm (firstTs : Int) : Calm firstTs [] (create firstTs : DelayBaseBwe 𝕜) where
  started := rfl
  groups := nofun
  trend := nofun
  present := fun hset => absurd rfl hset
  adapted := OveruseDetector.create_adapted
  notOverusing := BwState.noConfusion

/-- Two groups that arrive in no more time than they were sent in. -/
theorem Trending.update (h : Trending seen est inputs) (hsmooth : Smooth firstTs (seen ++ [packet]))
    {deltas : Deltas} (hdeltas : deltas.arrivalDelta ≤ deltas.timestampDelta.toNat) :
    Trending (seen ++ [packet]) (est.update (trendInput deltas packet.arrivalTs))
      (inputs ++ [trendInput deltas packet.arrivalTs]) := by
  have hfew := hsmooth.few
  have hinputs := h.few
  rw [List.length_append, List.length_singleton] at hfew
  have harrived : ∀ input ∈ inputs, input.arrivalTs ≠ -1 := by
    intro input hi
    obtain ⟨p, hp, heq⟩ := h.arrivals input hi
    have hp0 := hsmooth.arrivals p (List.mem_append_left _ hp)
    omega
  have hfalling : Falling (inputs ++ [(trendInput deltas packet.arrivalTs : TrendInput 𝕜)]) := by
    refine ⟨List.pairwise_append.mpr ⟨h.falling.arrivals, List.pairwise_singleton _ _, ?_⟩, ?_⟩
    · intro input hi next hnext
      obtain rfl := List.mem_singleton.mp hnext
      obtain ⟨p, hp, heq⟩ := h.arrivals input hi
      rw [heq]
      exact ((List.pairwise_append.mp hsmooth.drains).2.2 p hp packet
        (List.mem_singleton_self packet)).1
    · intro input hi
      rcases List.mem_append.mp hi with hi | hi
      · exact h.falling.deltas input hi
      · obtain rfl := List.mem_singleton.mp hi
        show ((deltas.arrivalDelta : Int) : 𝕜) ≤ (deltas.timestampDelta.toNat : Nat)
        exact_mod_cast hdeltas
  have hcoef0 : (0 : 𝕜) ≤ kTrendlineSmoothingCoeff := by
    show (0 : 𝕜) ≤ (9 : Nat) / (10 : Nat)
    norm_num
  have hcoef1 : (kTrendlineSmoothingCoeff : 𝕜) ≤ 1 := by
    show ((9 : Nat) / (10 : Nat) : 𝕜) ≤ 1
    norm_num
  refine ⟨(h.follows.update (by decide) harrived (by omega)).1, hfalling, ?_, ?_, ?_⟩
  · exact h.follows.trendline_nonpos (by decide) (by omega) harrived hfalling hcoef0 hcoef1 h.nonpos
  · intro input hi
    rcases List.mem_append.mp hi with hi | hi
    · obtain ⟨p, hp, heq⟩ := h.arrivals input hi
      exact ⟨p, List.mem_append_left _ hp, heq⟩
    · obtain rfl := List.mem_singleton.mp hi
      exact ⟨packet, List.mem_append_right _ (List.mem_singleton_self packet), rfl⟩
  · rw [List.length_append, List.length_append, List.length_singleton, List.length_singleton]
    omega

omit [IsStrictOrderedRing 𝕜] in
theorem Calm.reset (h : Calm firstTs seen bwe) (block : Block 𝕜) :
    Calm firstTs seen (bwe.reset block) where
  started := h.started
  groups := fun _ harr => Option.some.inj harr ▸ create_grouped firstTs seen 0 kGroupTime
  trend := fun _ hest => ⟨[], Option.some.inj hest ▸ create_trending seen block⟩
  present := fun _ => ⟨Option.some_ne_none _, Option.some_ne_none _⟩
  adapted := h.adapted
  notOverusing := h.notOverusing

/-- **One more packet** is no over-use. -/
theorem Calm.measure (h : Calm firstTs seen bwe) (hsmooth : Smooth firstTs (seen ++ [packet]))
    {arr : InterArrival} (harr : bwe.interArrival = some arr)
    (hest : bwe.trendlineEstimator = some est) (nowTs : Int) :
    Calm firstTs (seen ++ [packet]) (bwe.measure arr est packet nowTs) := by
  have hmem : packet ∈ seen ++ [packet] :=
    List.mem_append_right _ (List.mem_singleton_self packet)
  have hstamp := timestamp_arrived h.started (hsmooth.sent packet hmem) nowTs
  obtain ⟨hgrouped, hdeltas⟩ := (h.groups arr harr).computeDeltas hsmooth hstamp rfl
  obtain ⟨inputs, htrending⟩ := h.trend est hest
  unfold DelayBaseBwe.measure
  simp only
  cases hcase : (arr.computeDeltas (bwe.arrived packet nowTs)).deltas with
  | none =>
      refine ⟨h.started, ?_, ?_, ?_, h.adapted, h.notOverusing⟩
      · exact fun arr' harr' => Option.some.inj harr' ▸ hgrouped
      · exact fun est' hest' =>
          ⟨inputs, Option.some.inj (hest.symm.trans hest') ▸ htrending.mono packet⟩
      · exact fun _ => ⟨Option.some_ne_none _, fun hnone => nomatch hest.symm.trans hnone⟩
  | some deltas =>
      have hupdate := htrending.update hsmooth (hdeltas deltas hcase)
      have hoffset : (detectInput (est.update (trendInput deltas packet.arrivalTs)) deltas
          packet.arrivalTs).offset ≤ 0 := by
        rw [detectInput, TrendlineEstimator.slope, hupdate.follows.thresholdGain]
        refine mul_nonpos_of_nonneg_of_nonpos ?_ hupdate.nonpos
        show (0 : 𝕜) ≤ 4
        norm_num
      have hadapted := h.adapted.detect (detectInput
        (est.update (trendInput deltas packet.arrivalTs)) deltas packet.arrivalTs)
      have hstate := h.adapted.state_detect h.notOverusing hoffset
      refine ⟨h.started, ?_, ?_, ?_, ?_, ?_⟩
      · exact fun arr' harr' => Option.some.inj harr' ▸ hgrouped
      · exact fun est' hest' => ⟨_, Option.some.inj hest' ▸ hupdate⟩
      · exact fun _ => ⟨Option.some_ne_none _, Option.some_ne_none _⟩
      · dsimp only
        exact hadapted
      · dsimp only
        exact hstate

omit [IsStrictOrderedRing 𝕜] in
theorem measure_kept (arr : InterArrival) (nowTs : Int) :
    (bwe.measure arr est packet nowTs).rateControl = bwe.rateControl ∧
      (bwe.measure arr est packet nowTs).consecutiveDelayedFeedbacks =
        bwe.consecutiveDelayedFeedbacks := by
  unfold DelayBaseBwe.measure
  simp only
  split <;> exact ⟨rfl, rfl⟩

/-- **One more packet** finds the estimators. -/
theorem Calm.process (h : Calm firstTs seen bwe) (hsmooth : Smooth firstTs (seen ++ [packet]))
    (block : Block 𝕜) (nowTs : Int) :
    ∃ bwe', bwe.process block packet nowTs = some bwe' ∧ Calm firstTs (seen ++ [packet]) bwe' ∧
      bwe'.rateControl = bwe.rateControl ∧
      bwe'.consecutiveDelayedFeedbacks = bwe.consecutiveDelayedFeedbacks := by
  let ready :=
    if bwe.lastSeenMs = -1 ∨ nowTs > bwe.lastSeenMs + kTimestampMs then bwe.reset block else bwe
  have hready : Calm firstTs seen ready ∧
      (ready.interArrival ≠ none ∧ ready.trendlineEstimator ≠ none) ∧
      ready.rateControl = bwe.rateControl ∧
      ready.consecutiveDelayedFeedbacks = bwe.consecutiveDelayedFeedbacks := by
    by_cases hsilent : bwe.lastSeenMs = -1 ∨ nowTs > bwe.lastSeenMs + kTimestampMs
    · rw [show ready = bwe.reset block from if_pos hsilent]
      exact ⟨h.reset block, ⟨Option.some_ne_none _, Option.some_ne_none _⟩, rfl, rfl⟩
    · rw [show ready = bwe from if_neg hsilent]
      exact ⟨h, h.present fun hnone => hsilent (.inl hnone), rfl, rfl⟩
  obtain ⟨hcalm, hpresent, hrate, hconsecutive⟩ := hready
  obtain ⟨arr, harr⟩ := Option.ne_none_iff_exists'.mp hpresent.1
  obtain ⟨est, hest⟩ := Option.ne_none_iff_exists'.mp hpresent.2
  have hcalm' : Calm firstTs seen { ready with lastSeenMs := nowTs } :=
    ⟨hcalm.started, hcalm.groups, hcalm.trend, fun _ => hpresent, hcalm.adapted,
      hcalm.notOverusing⟩
  have hkept := @measure_kept _ _ _ packet { ready with lastSeenMs := nowTs } est arr nowTs
  refine ⟨{ ready with lastSeenMs := nowTs }.measure arr est packet nowTs, ?_,
    hcalm'.measure hsmooth harr hest nowTs, hkept.1.trans hrate, hkept.2.trans hconsecutive⟩
  unfold DelayBaseBwe.process
  simp only [ready] at harr hest ⊢
  simp only [harr, hest]

/-! ## Feedbacks -/

/-- The packets that `delay_bwe_incoming` looks at. -/
def lookedAt (firstTs : Int) (packets : List PacketFeedback) : List PacketFeedback :=
  packets.filter fun p => firstTs ≤ p.sendTs

/-- What holds between two packets of a feedback. -/
structure CalmScan (firstTs : Int) (seen : List PacketFeedback) (bwe : DelayBaseBwe 𝕜)
    (packets : List PacketFeedback) (scan : Scan 𝕜) : Prop where
  calm : Calm firstTs (seen ++ lookedAt firstTs packets) scan.bwe
  rateControl : scan.bwe.rateControl = bwe.rateControl
  consecutive : scan.bwe.consecutiveDelayedFeedbacks = bwe.consecutiveDelayedFeedbacks
  delayed : scan.delayedFeedback = 0 ↔ lookedAt firstTs packets = []

/-- **The loop** over the packets of a feedback. -/
theorem Calm.scan (h : Calm firstTs seen bwe) {packets : List PacketFeedback}
    (hsmooth : Smooth firstTs (seen ++ lookedAt firstTs packets)) (block : Block 𝕜) (nowTs : Int) :
    ∃ scan, packets.foldlM (fun (scan : Scan 𝕜) packet => scan.take block nowTs packet)
        ⟨bwe, 0, -1, bwe.detector.state⟩ = some scan ∧
      CalmScan firstTs seen bwe packets scan := by
  induction packets using List.reverseRecOn with
  | nil =>
      refine ⟨_, rfl, ?_, rfl, rfl, ?_⟩
      · rw [lookedAt, List.filter_nil, List.append_nil]
        exact h
      · exact ⟨fun _ => rfl, fun _ => rfl⟩
  | append_singleton packets packet ih =>
      rw [lookedAt, List.filter_append, ← lookedAt, ← List.append_assoc] at hsmooth
      obtain ⟨scan, hscan, hcalm⟩ := ih (hsmooth.sublist (List.sublist_append_left _ _))
      rw [List.foldlM_append, hscan]
      by_cases hold : packet.sendTs < firstTs
      · have hskip : lookedAt firstTs (packets ++ [packet]) = lookedAt firstTs packets := by
          rw [lookedAt, List.filter_append, List.filter_singleton]
          simp [lookedAt, Int.not_le.mpr hold]
        refine ⟨scan, ?_, ?_, hcalm.rateControl, hcalm.consecutive, ?_⟩
        · show (scan.take block nowTs packet).bind _ = _
          rw [Scan.take, hcalm.calm.started, if_pos hold]
          rfl
        · rw [hskip]
          exact hcalm.calm
        · rw [hskip]
          exact hcalm.delayed
      · have hlook : lookedAt firstTs (packets ++ [packet]) =
            lookedAt firstTs packets ++ [packet] := by
          rw [lookedAt, List.filter_append, List.filter_singleton]
          simp [lookedAt, Int.not_lt.mp hold]
        have hlook' : [packet].filter (fun p => firstTs ≤ p.sendTs) = [packet] := by
          simp [Int.not_lt.mp hold]
        rw [hlook'] at hsmooth
        obtain ⟨bwe', hprocess, hcalm', hrate, hconsecutive⟩ :=
          hcalm.calm.process hsmooth block nowTs
        refine ⟨⟨bwe', -1, if scan.prevState = .kBwUnderusing ∧ bwe'.detector.state = .kBwNormal
          then 0 else scan.recoveredFromOveruse, bwe'.detector.state⟩, ?_, ?_,
          hrate.trans hcalm.rateControl, hconsecutive.trans hcalm.consecutive, ?_⟩
        · show (scan.take block nowTs packet).bind _ = _
          rw [Scan.take, hcalm.calm.started, if_neg hold, hprocess]
          rfl
        · rw [hlook, ← List.append_assoc]
          exact hcalm'
        · rw [hlook]
          exact ⟨fun h0 => absurd (show (-1 : Int) = 0 from h0) (by decide),
            fun hnil => absurd hnil (by simp)⟩

/-- What the end of a feedback does without over-use. -/
structure Finished (bwe bwe' : DelayBaseBwe 𝕜) (stale : Prop) (math : AimdMath 𝕜) : Prop where
  modest : Modest bwe'.rateControl
  counted : stale ∧ bwe'.consecutiveDelayedFeedbacks =
      toSigned 32 (bwe.consecutiveDelayedFeedbacks + 1) ∨
    ¬stale ∧ bwe'.consecutiveDelayedFeedbacks = 0
  lowered : math.Documented → bwe.rateControl.inited ≠ -1 →
    bwe'.rateControl.currRate < min bwe.rateControl.currRate bwe.rateControl.maxRate →
      stale ∧ kMaxFailedCount < bwe'.consecutiveDelayedFeedbacks ∧
        bwe'.rateControl.currRate = min (max (bwe.rateControl.currRate / 2)
          bwe.rateControl.minRate) bwe.rateControl.maxRate

omit [IsStrictOrderedRing 𝕜] in
/-- Only the rate and the count of stale feedbacks change at the end. -/
theorem Calm.withRate (h : Calm firstTs seen bwe) (rateControl : AimdRateController 𝕜)
    (consecutiveDelayedFeedbacks : Int) :
    Calm firstTs seen { bwe with rateControl, consecutiveDelayedFeedbacks } :=
  ⟨h.started, h.groups, h.trend, h.present, h.adapted, h.notOverusing⟩

omit [IsStrictOrderedRing 𝕜] in
/-- **The end of a feedback** without over-use: it was stale, and is one too many or not, or
the rate is updated. -/
theorem finish_cases {scan : Scan 𝕜} (hstate : scan.bwe.detector.state ≠ .kBwOverusing)
    (math : AimdMath 𝕜) (arrivalTs : Int) (ackedBitrate : Nat) (nowTs : Int) :
    let aimd := scan.bwe.rateControl
    let count := toSigned 32 (scan.bwe.consecutiveDelayedFeedbacks + 1)
    let bwe' := (scan.finish math arrivalTs ackedBitrate nowTs).2
    (scan.delayedFeedback = 0 ∧ kMaxFailedCount < count ∧ bwe' = { scan.bwe with
        rateControl := aimd.setEstimate (toUnsigned 32 (aimd.currRate * 1) / 2 : Nat) arrivalTs
        consecutiveDelayedFeedbacks := count }) ∨
    (scan.delayedFeedback = 0 ∧ bwe' = { scan.bwe with
        rateControl := aimd, consecutiveDelayedFeedbacks := count }) ∨
    (scan.delayedFeedback ≠ 0 ∧ bwe' = { scan.bwe with
        rateControl := aimd.update math ⟨scan.bwe.detector.state, ackedBitrate⟩ nowTs
        consecutiveDelayedFeedbacks := 0 }) := by
  intro aimd count bwe'
  have hover : ¬((-1 : Int) = 0) := by decide
  show _ ∧ _ ∧ (scan.finish math arrivalTs ackedBitrate nowTs).2 = _ ∨
    _ ∧ (scan.finish math arrivalTs ackedBitrate nowTs).2 = _ ∨
    _ ∧ (scan.finish math arrivalTs ackedBitrate nowTs).2 = _
  unfold Scan.finish
  simp only [if_neg hstate]
  by_cases hstale : scan.delayedFeedback = 0
  · rw [if_pos hstale]
    by_cases hmany : count > kMaxFailedCount
    · exact .inl ⟨hstale, hmany, congrArg Prod.snd (if_pos hmany)⟩
    · exact .inr (.inl ⟨hstale, congrArg Prod.snd (if_neg hmany)⟩)
  · rw [if_neg hstale, maybeUpdate, if_neg hover]
    exact .inr (.inr ⟨hstale, rfl⟩)

theorem CalmScan.finish {packets : List PacketFeedback} {scan : Scan 𝕜}
    (h : CalmScan firstTs seen bwe packets scan) (hmodest : Modest bwe.rateControl)
    (math : AimdMath 𝕜) (arrivalTs : Int) (ackedBitrate : Nat) (nowTs : Int) :
    Calm firstTs (seen ++ lookedAt firstTs packets)
        (scan.finish math arrivalTs ackedBitrate nowTs).2 ∧
      Finished bwe (scan.finish math arrivalTs ackedBitrate nowTs).2
        (lookedAt firstTs packets = []) math := by
  have hrate := h.rateControl
  have hcount := h.consecutive
  have hdelayed := h.delayed
  rcases finish_cases h.calm.notOverusing math arrivalTs ackedBitrate nowTs with
    ⟨hstale, hmany, heq⟩ | ⟨hstale, heq⟩ | ⟨hfresh, heq⟩
  · rw [heq, hrate]
    rw [hcount] at hmany ⊢
    obtain ⟨hkept, hhalf⟩ := hmodest.setEstimate arrivalTs
    exact ⟨h.calm.withRate _ _, hkept, .inl ⟨hdelayed.mp hstale, rfl⟩,
      fun _ _ _ => ⟨hdelayed.mp hstale, hmany, hhalf⟩⟩
  · rw [heq, hrate, hcount]
    refine ⟨h.calm.withRate _ _, hmodest, .inl ⟨hdelayed.mp hstale, rfl⟩, fun _ _ hlt => ?_⟩
    exact absurd hlt (Nat.not_lt.mpr (min_le_left _ _))
  · rw [heq, hrate]
    have hraised : AimdRateController.Raised math _ (AimdRateController.update math _
        ⟨scan.bwe.detector.state, ackedBitrate⟩ nowTs) :=
      hmodest.rising.update h.calm.notOverusing
    refine ⟨h.calm.withRate _ _, ⟨hraised.rising, ?_, ?_, ?_⟩,
      .inr ⟨fun hnil => hfresh (hdelayed.mpr hnil), rfl⟩, fun hmath hset hlt => ?_⟩
    · exact hraised.upper.trans hmodest.maxRate
    · exact hraised.minRate.trans_le hmodest.minRate
    · exact hraised.maxRate.trans_le hmodest.maxRate
    · exact absurd hlt (Nat.not_lt.mpr (hraised.lower hmath hset hmodest.currRate))

/-! ## Runs -/

/-- The calls of a run. -/
inductive BweCall (𝕜 : Type*) where
  | incoming (math : AimdMath 𝕜) (block : Block 𝕜) (packets : List PacketFeedback)
      (ackedBitrate : Nat) (nowTs : Int)
  | rttUpdate (rtt : Nat)
  | setStartBitrate (bitrate : Nat)
  | setMinBitrate (bitrate : Nat)
  | setMaxBitrate (bitrate : Nat)

def perform (bwe : DelayBaseBwe 𝕜) : BweCall 𝕜 → Option (DelayBaseBwe 𝕜)
  | .incoming math block packets ackedBitrate nowTs =>
      (bwe.incoming math block packets ackedBitrate nowTs).map (·.2)
  | .rttUpdate rtt => some (bwe.rttUpdate rtt)
  | .setStartBitrate bitrate => some (bwe.setStartBitrate bitrate)
  | .setMinBitrate bitrate => some (bwe.setMinBitrate bitrate)
  | .setMaxBitrate bitrate => some (bwe.setMaxBitrate bitrate)

namespace BweCall

variable {𝕜 : Type*}

/-- The packets of a feedback. -/
def packets : BweCall 𝕜 → List PacketFeedback
  | .incoming _ _ packets _ _ => packets
  | _ => []

/-- A rate that is set is below half of the range. -/
def Small : BweCall 𝕜 → Prop
  | .setStartBitrate bitrate => bitrate ≤ 2 ^ 31
  | .setMinBitrate bitrate => bitrate ≤ 2 ^ 31
  | .setMaxBitrate bitrate => bitrate ≤ 2 ^ 31
  | _ => True

end BweCall

/-- How many of the last feedbacks held only packets that are not looked at. -/
def staleFeedbacks (firstTs : Int) (calls : List (BweCall 𝕜)) : Nat :=
  calls.foldl (fun n call => if call.packets = [] then n
    else if lookedAt firstTs call.packets = [] then n + 1 else 0) 0

/-- What holds after some calls. -/
structure Steady (firstTs : Int) (calls : List (BweCall 𝕜)) (bwe : DelayBaseBwe 𝕜) : Prop where
  calm : Calm firstTs (lookedAt firstTs (calls.flatMap BweCall.packets)) bwe
  modest : Modest bwe.rateControl
  consecutive : -2 ^ 31 ≤ bwe.consecutiveDelayedFeedbacks ∧
    bwe.consecutiveDelayedFeedbacks ≤ staleFeedbacks firstTs calls

variable {calls : List (BweCall 𝕜)}

omit [IsStrictOrderedRing 𝕜] [LinearOrder 𝕜] [Field 𝕜] in
theorem staleFeedbacks_append (firstTs : Int) (calls : List (BweCall 𝕜)) (call : BweCall 𝕜) :
    staleFeedbacks firstTs (calls ++ [call]) = if call.packets = [] then
      staleFeedbacks firstTs calls else if lookedAt firstTs call.packets = [] then
        staleFeedbacks firstTs calls + 1 else 0 := by
  rw [staleFeedbacks, List.foldl_append]
  rfl

omit [IsStrictOrderedRing 𝕜] [LinearOrder 𝕜] [Field 𝕜] in
theorem lookedAt_flatMap_append (firstTs : Int) (calls : List (BweCall 𝕜)) (call : BweCall 𝕜) :
    lookedAt firstTs ((calls ++ [call]).flatMap BweCall.packets) =
      lookedAt firstTs (calls.flatMap BweCall.packets) ++ lookedAt firstTs call.packets := by
  rw [List.flatMap_append, List.flatMap_singleton, lookedAt, List.filter_append]
  rfl

omit [IsStrictOrderedRing 𝕜] in
/-- A call that is given no packets. -/
theorem Steady.unchanged (h : Steady firstTs calls bwe) {call : BweCall 𝕜}
    (hnone : call.packets = []) {rateControl : AimdRateController 𝕜} (hrate : Modest rateControl) :
    Steady firstTs (calls ++ [call]) { bwe with rateControl } := by
  refine ⟨?_, hrate, ?_⟩
  · rw [lookedAt_flatMap_append, hnone, lookedAt, lookedAt, List.filter_nil, List.append_nil]
    exact h.calm.withRate rateControl bwe.consecutiveDelayedFeedbacks
  · rw [staleFeedbacks_append, if_pos hnone]
    exact h.consecutive

/-- What a feedback does. -/
structure FedBack (math : AimdMath 𝕜) (firstTs : Int) (calls : List (BweCall 𝕜))
    (call : BweCall 𝕜) (bwe bwe' : DelayBaseBwe 𝕜) : Prop where
  steady : Steady firstTs (calls ++ [call]) bwe'
  lowered : math.Documented → bwe.rateControl.inited ≠ -1 →
    bwe'.rateControl.currRate < min bwe.rateControl.currRate bwe.rateControl.maxRate →
      lookedAt firstTs call.packets = [] ∧ kMaxFailedCount < bwe'.consecutiveDelayedFeedbacks ∧
        bwe'.rateControl.currRate = min (max (bwe.rateControl.currRate / 2)
          bwe.rateControl.minRate) bwe.rateControl.maxRate

/-- **A feedback** finds the estimators, is no over-use, and is counted if it is stale. -/
theorem Steady.incoming (h : Steady firstTs calls bwe) {packets : List PacketFeedback}
    (hsmooth : Smooth firstTs (lookedAt firstTs (calls.flatMap BweCall.packets) ++
      lookedAt firstTs packets)) (math : AimdMath 𝕜) (block : Block 𝕜) (ackedBitrate : Nat)
    (nowTs : Int) :
    ∃ result bwe', bwe.incoming math block packets ackedBitrate nowTs = some (result, bwe') ∧
      FedBack math firstTs calls (.incoming math block packets ackedBitrate nowTs) bwe bwe' := by
  have hpackets : BweCall.packets (.incoming math block packets ackedBitrate nowTs) = packets := rfl
  unfold DelayBaseBwe.incoming
  cases hlast : packets.getLast? with
  | none =>
      have hnil := List.getLast?_eq_none_iff.mp hlast
      refine ⟨_, _, rfl, h.unchanged (hpackets.trans hnil) h.modest, fun _ _ hlt => ?_⟩
      exact absurd hlt (Nat.not_lt.mpr (min_le_left _ _))
  | some last =>
      have hne : packets ≠ [] := by
        rintro rfl
        cases hlast
      obtain ⟨scan, hscan, hcalm⟩ := h.calm.scan hsmooth block nowTs
      obtain ⟨hkept, hfinished⟩ := hcalm.finish h.modest math last.arrivalTs ackedBitrate nowTs
      refine ⟨(scan.finish math last.arrivalTs ackedBitrate nowTs).1,
        (scan.finish math last.arrivalTs ackedBitrate nowTs).2, ?_, ⟨?_, hfinished.modest, ?_⟩,
        hfinished.lowered⟩
      · simp only [hscan]
        rfl
      · rw [lookedAt_flatMap_append]
        exact hkept
      · obtain ⟨hlow, hhigh⟩ := h.consecutive
        rw [staleFeedbacks_append, hpackets, if_neg hne]
        rcases hfinished.counted with ⟨hstale, hcount⟩ | ⟨hfresh, hcount⟩
        · rw [hcount, if_pos hstale, toSigned, Int.bmod_def]
          push_cast
          split <;> omega
        · rw [hcount, if_neg hfresh]
          decide

theorem create_steady (firstTs : Int) :
    Steady firstTs [] (create firstTs : DelayBaseBwe 𝕜) where
  calm := create_calm firstTs
  modest := ⟨⟨RcState.noConfusion, rfl⟩, Nat.zero_le _, (show 64000 ≤ 2 ^ 31 by decide),
    (show 12800000 ≤ 2 ^ 31 by decide)⟩
  consecutive := ⟨(show (-2 ^ 31 : Int) ≤ 0 by decide), (show (0 : Int) ≤ 0 by decide)⟩

theorem Steady.perform (h : Steady firstTs calls bwe) {call : BweCall 𝕜}
    (hsmooth : Smooth firstTs (lookedAt firstTs ((calls ++ [call]).flatMap BweCall.packets)))
    (hsmall : call.Small) :
    ∃ bwe', bwe.perform call = some bwe' ∧ Steady firstTs (calls ++ [call]) bwe' := by
  cases call with
  | incoming math block packets ackedBitrate nowTs =>
      rw [lookedAt_flatMap_append] at hsmooth
      change Smooth firstTs (_ ++ lookedAt firstTs packets) at hsmooth
      obtain ⟨result, bwe', heq, hfed⟩ := h.incoming hsmooth math block ackedBitrate nowTs
      exact ⟨bwe', by rw [DelayBaseBwe.perform, heq]; rfl, hfed.steady⟩
  | rttUpdate rtt =>
      exact ⟨_, rfl, h.unchanged rfl ⟨⟨h.modest.rising.state, h.modest.rising.region⟩,
        h.modest.currRate, h.modest.minRate, h.modest.maxRate⟩⟩
  | setStartBitrate bitrate => exact ⟨_, rfl, h.unchanged rfl (h.modest.setStartBitrate hsmall)⟩
  | setMinBitrate bitrate => exact ⟨_, rfl, h.unchanged rfl (h.modest.setMinBitrate hsmall)⟩
  | setMaxBitrate bitrate => exact ⟨_, rfl, h.unchanged rfl (h.modest.setMaxBitrate hsmall)⟩

theorem steady_of_run
    (hsmooth : Smooth firstTs (lookedAt firstTs (calls.flatMap BweCall.packets)))
    (hsmall : ∀ call ∈ calls, call.Small) :
    ∃ bwe, calls.foldlM DelayBaseBwe.perform (create firstTs : DelayBaseBwe 𝕜) = some bwe ∧
      Steady firstTs calls bwe := by
  induction calls using List.reverseRecOn with
  | nil => exact ⟨_, rfl, create_steady firstTs⟩
  | append_singleton calls call ih =>
      have hbefore := hsmooth
      rw [lookedAt_flatMap_append] at hbefore
      obtain ⟨bwe, hrun, hsteady⟩ := ih (hbefore.sublist (List.sublist_append_left _ _))
        fun call hcall => hsmall call (List.mem_append_left _ hcall)
      obtain ⟨bwe', hperform, hsteady'⟩ := hsteady.perform hsmooth
        (hsmall call (List.mem_append_right _ (List.mem_singleton_self call)))
      refine ⟨bwe', ?_, hsteady'⟩
      rw [List.foldlM_append, hrun]
      show bwe.perform call >>= pure = _
      rw [bind_pure, hperform]

/-- **Without a growing delay the rate is not lowered.** While no packet is on its way for longer
than the one before it, every feedback finds its estimators and none of them is an over-use; the
rate only goes below what it was, and below its maximum, if more than five feedbacks in a row
held nothing but packets from before the start, and then it is halved within its limits. -/
theorem unthrottled_of_run {math : AimdMath 𝕜} {block : Block 𝕜} {packets : List PacketFeedback}
    {ackedBitrate : Nat} {nowTs : Int} (hmath : math.Documented)
    (hsmooth : Smooth firstTs (lookedAt firstTs ((calls ++
      [BweCall.incoming math block packets ackedBitrate nowTs]).flatMap BweCall.packets)))
    (hsmall : ∀ call ∈ calls, call.Small) :
    ∃ bwe result bwe', calls.foldlM perform (create firstTs : DelayBaseBwe 𝕜) = some bwe ∧
      bwe.incoming math block packets ackedBitrate nowTs = some (result, bwe') ∧
      bwe'.detector.state ≠ .kBwOverusing ∧
      (bwe.rateControl.inited ≠ -1 →
        bwe'.rateControl.currRate < min bwe.rateControl.currRate bwe.rateControl.maxRate →
          5 < staleFeedbacks firstTs
              (calls ++ [.incoming math block packets ackedBitrate nowTs]) ∧
            bwe'.rateControl.currRate = min (max (bwe.rateControl.currRate / 2)
              bwe.rateControl.minRate) bwe.rateControl.maxRate) := by
  rw [lookedAt_flatMap_append] at hsmooth
  change Smooth firstTs (_ ++ lookedAt firstTs packets) at hsmooth
  obtain ⟨bwe, hrun, hsteady⟩ :=
    steady_of_run (hsmooth.sublist (List.sublist_append_left _ _)) hsmall
  obtain ⟨result, bwe', heq, hfed⟩ := hsteady.incoming hsmooth math block ackedBitrate nowTs
  refine ⟨bwe, result, bwe', hrun, heq, hfed.steady.calm.notOverusing, fun hset hlt => ?_⟩
  obtain ⟨_, hmany, hhalf⟩ := hfed.lowered hmath hset hlt
  have hcount := hfed.steady.consecutive.2
  unfold kMaxFailedCount at hmany
  exact ⟨by omega, hhalf⟩

/-- The functions on the inputs of one update; the first increase asks for no power but `0`. -/
def plainMath : AimdMath ℚ := ⟨id, fun a t => if t = 0 then 1 else a, (·.ceil), (·.floor)⟩

theorem plainMath_documented : plainMath.Documented where
  trunc_nonneg := fun x h0 => (Rat.le_floor_iff.mpr h0 : (0 : Int) ≤ x.floor)
  trunc_le := fun x _ => Rat.floor_le x
  pow_le := by
    intro a t h1 _ _
    show (if t = 0 then 1 else a) ≤ a
    split
    · exact h1
    · exact le_refl a

/-- Two packets, the second of which is on its way for 5 ms less. -/
def drained : List PacketFeedback :=
  [⟨0, 40, 20, (1#16).toFin, 1000⟩, ⟨0, 45, 30, (2#16).toFin, 1000⟩]

theorem unthrottled_drained : ∃ bwe result bwe',
    [BweCall.setStartBitrate 300000].foldlM perform (create 10 : DelayBaseBwe ℚ) = some bwe ∧
      bwe.incoming plainMath (Vector.replicate _ ⟨0, 0⟩) drained 200000 60 = some (result, bwe') ∧
      bwe'.detector.state ≠ .kBwOverusing ∧
      (bwe.rateControl.inited ≠ -1 →
        bwe'.rateControl.currRate < min bwe.rateControl.currRate bwe.rateControl.maxRate →
          5 < staleFeedbacks 10 ([.setStartBitrate 300000] ++
              [.incoming plainMath (Vector.replicate _ ⟨0, 0⟩) drained 200000 60]) ∧
            bwe'.rateControl.currRate = min (max (bwe.rateControl.currRate / 2)
              bwe.rateControl.minRate) bwe.rateControl.maxRate) :=
  unthrottled_of_run plainMath_documented
    ⟨by unfold Drains; decide, by decide, by decide, by decide⟩
    (fun call hcall => by
      obtain rfl := List.mem_singleton.mp hcall
      show 300000 ≤ 2 ^ 31
      decide)

end DelayBaseBwe

end Razor
