import RmcatNs3.Lib.Runs
import RmcatNs3.Razor.MinHistory

/-!
# Runs of the bandwidth estimator

Beside the estimator a run keeps the records that have been made since the history was
last cleared: by `sender_estimation_set_send_bitrate`, or by an update of the start phase
that raises the bitrate.
-/

namespace Razor

open MachineInt MonotoneDeque Runs SenderEstimation

/-- The operations of `sender_estimation_t`. -/
inductive EstimationOp where
  | setMinmaxBitrate (minBitrate maxBitrate : Nat)
  | setSendBitrate (sendBitrate : Nat)
  | setBitrates (sendBitrate minBitrate maxBitrate : Nat)
  | updateRemb (bitrate : Nat)
  | updateDelayBase (bitrate : Nat)
  | updateBlock (fractionLoss rtt : Nat) (numberOfPackets curTs : Int)
  | update (curTs : Int)

namespace EstimationOp

/-- The arguments that are of type `uint32_t`. -/
def words : EstimationOp → List Nat
  | setMinmaxBitrate minBitrate maxBitrate => [minBitrate, maxBitrate]
  | setSendBitrate sendBitrate => [sendBitrate]
  | setBitrates sendBitrate minBitrate maxBitrate => [sendBitrate, minBitrate, maxBitrate]
  | updateRemb bitrate => [bitrate]
  | updateDelayBase bitrate => [bitrate]
  | updateBlock _ rtt _ _ => [rtt]
  | update _ => []

def curTs? : EstimationOp → Option Int
  | updateBlock _ _ _ curTs => some curTs
  | update curTs => some curTs
  | _ => none

end EstimationOp

/-- The estimator, the records since the history was last cleared, the times of the
updates, the time of the last of them, and that of the last operation that has one. -/
structure EstimationRun where
  est : SenderEstimation
  recorded : List MinBitrate
  updates : List Int
  lastUpdate : Int
  now : Int

namespace EstimationRun

/-- The program creates its estimator with `10000` and `1500000`. -/
def create (minBitrate maxBitrate : Nat) (now : Int) : EstimationRun :=
  ⟨.create minBitrate maxBitrate, [], [], now, now⟩

/-- An update of the start phase raises the bitrate. -/
def Raises (est : SenderEstimation) (curTs : Int) : Prop :=
  est.lastFractionLoss = 0 ∧ est.isStartPhare curTs = 0 ∧
    max est.delayBaseBitrate (max est.bweIncoming est.currBitrate) ≠ est.currBitrate

instance (est : SenderEstimation) (curTs : Int) : Decidable (Raises est curTs) :=
  inferInstanceAs (Decidable (_ ∧ _))

/-- The records after an update. -/
def recordedAfter (est : SenderEstimation) (curTs : Int) (recorded : List MinBitrate) :
    List MinBitrate :=
  if Raises est curTs then [⟨curTs, est.currBitrate⟩] else recorded ++ [⟨curTs, est.currBitrate⟩]

def call (fl : LossFloats) (c : EstimationRun) : EstimationOp → EstimationRun
  | .setMinmaxBitrate minBitrate maxBitrate =>
      { c with est := c.est.setMinmaxBitrate minBitrate maxBitrate }
  | .setSendBitrate sendBitrate =>
      { c with est := c.est.setSendBitrate sendBitrate, recorded := [] }
  | .setBitrates sendBitrate minBitrate maxBitrate =>
      { c with est := c.est.setBitrates sendBitrate minBitrate maxBitrate, recorded := [] }
  | .updateRemb bitrate => { c with est := c.est.updateRemb bitrate }
  | .updateDelayBase bitrate => { c with est := c.est.updateDelayBase bitrate }
  | .updateBlock fractionLoss rtt numberOfPackets curTs =>
      let begun := c.est.beginBlock fractionLoss rtt numberOfPackets curTs
      { est := c.est.updateBlock fl fractionLoss rtt numberOfPackets curTs
        recorded := if begun.2 then recordedAfter begun.1 curTs c.recorded else c.recorded
        updates := if begun.2 then c.updates ++ [curTs] else c.updates
        lastUpdate := if begun.2 then curTs else c.lastUpdate
        now := curTs }
  | .update curTs =>
      { est := c.est.update fl curTs
        recorded := recordedAfter c.est curTs c.recorded
        updates := c.updates ++ [curTs]
        lastUpdate := curTs
        now := curTs }

/-- Time does not go back. -/
def Step (fl : LossFloats) (c : EstimationRun) (op : EstimationOp) (c' : EstimationRun) : Prop :=
  (∀ x ∈ op.words, x < 2 ^ 32) ∧ (∀ curTs ∈ op.curTs?, c.now ≤ curTs) ∧ c' = c.call fl op

/-- Fewer updates than the history has places are made in any 1000 ms. -/
def Sparse (updates : List Int) : Prop :=
  ∀ ts, (updates.filter fun t => ts ≤ t ∧ t ≤ ts + kBweIncreaseIntervalMs).length
    < minHistoryArrSize

/-! ## The estimator's fields -/

/-- The bitrates are of 32 bits, and none but the first is below the configured minimum. -/
structure Bounds (est : SenderEstimation) : Prop where
  minConf : 2 ≤ est.minConfBitrate ∧ est.minConfBitrate < 2 ^ 32
  maxConf : est.maxConfBitrate < 2 ^ 32
  curr : est.currBitrate = 0 ∨ 2 ≤ est.currBitrate
  fits : est.currBitrate < 2 ^ 32

/-- The history is the same. -/
def SameRing (est est' : SenderEstimation) : Prop :=
  est'.beginIndex = est.beginIndex ∧ est'.endIndex = est.endIndex ∧
    est'.minBitrates = est.minBitrates

variable {est est' : SenderEstimation} {fl : LossFloats} {curTs : Int}

theorem SameRing.record (h : SameRing est est') : est'.record = est.record := by
  funext i
  rw [SenderEstimation.record, SenderEstimation.record, h.2.2]

theorem SameRing.live (h : SameRing est est') : est'.live = est.live := by
  rw [SenderEstimation.live, SenderEstimation.live, h.record, h.1, h.2.1]

theorem SameRing.ring (h : SameRing est est') (hr : Ring est) : Ring est' := by
  obtain ⟨hle, hsize, habove, hfits⟩ := hr
  rw [← h.1, ← h.2.1] at hle hsize habove hfits
  rw [← h.record] at habove hfits
  exact ⟨hle, hsize, habove, hfits⟩

/-- A cap, after a change of the other fields. -/
theorem Bounds.of_limits (h : Bounds est) (hlimits : est'.limits = est.limits)
    (hlow : est'.minConfBitrate ≤ est'.currBitrate)
    (hhigh : est'.currBitrate ≤ max est'.minConfBitrate est'.maxConfBitrate) : Bounds est' := by
  obtain ⟨hmin, hmax⟩ := Prod.mk.inj hlimits
  have hminConf := h.minConf
  have hmaxConf := h.maxConf
  rw [hmin] at hlow
  rw [hmin, hmax] at hhigh
  exact ⟨by rwa [hmin], by rwa [hmax], .inr (by omega), by omega⟩

theorem Bounds.cap (h : Bounds est) (bitrate : Nat) : Bounds (est.capBitrateToThreshold bitrate) :=
  h.of_limits (limits_capBitrateToThreshold bitrate) (est.cap_bounds bitrate).1
    (est.cap_bounds bitrate).2

theorem Bounds.setMinmax (h : Bounds est) {minBitrate maxBitrate : Nat} (hmin : minBitrate < 2 ^ 32)
    (hmax : maxBitrate < 2 ^ 32) : Bounds (est.setMinmaxBitrate minBitrate maxBitrate) := by
  have hminConf := h.minConf
  refine ⟨⟨?_, ?_⟩, ?_, h.curr, h.fits⟩ <;> simp only [setMinmaxBitrate]
  · omega
  · omega
  · split
    · omega
    · decide

/-- An update begins with the history, and what follows does not touch it. -/
theorem updateSteady_ring (fl : LossFloats) (est : SenderEstimation) (curTs : Int)
    (newBitrate : Nat) :
    SameRing (est.updateHistory curTs) (est.updateSteady fl curTs newBitrate) := by
  have hfresh : ∀ est : SenderEstimation,
      SameRing est (est.onFreshReport fl curTs newBitrate).1 := by
    intro est
    unfold onFreshReport
    split_ifs <;> exact ⟨rfl, rfl, rfl⟩
  have htimes : ∀ est : SenderEstimation,
      SameRing est (est.onReportTimes fl curTs newBitrate).1 := by
    intro est
    unfold onReportTimes
    split_ifs
    · exact hfresh est
    · exact ⟨rfl, rfl, rfl⟩
    · exact ⟨rfl, rfl, rfl⟩
  unfold updateSteady
  simp only
  split
  · exact ⟨rfl, rfl, rfl⟩
  · exact htimes _

/-- An update of the start phase clears the history, every other one adds to it. -/
theorem update_cases (fl : LossFloats) (est : SenderEstimation) (curTs : Int) :
    (Raises est curTs ∧ ∃ newBitrate, est.update fl curTs
      = ({ est with beginIndex := 0, endIndex := 1 }.setRecord 0
          ⟨curTs, est.currBitrate⟩).capBitrateToThreshold newBitrate) ∨
    (¬Raises est curTs ∧ ∃ newBitrate, est.update fl curTs = est.updateSteady fl curTs newBitrate)
    := by
  by_cases hstart : est.lastFractionLoss = 0 ∧ est.isStartPhare curTs = 0
  · by_cases hnew : max est.delayBaseBitrate (max est.bweIncoming est.currBitrate)
        ≠ est.currBitrate
    · exact .inl ⟨⟨hstart.1, hstart.2, hnew⟩, _, (if_pos hstart).trans (if_pos hnew)⟩
    · exact .inr ⟨fun h => hnew h.2.2, _, (if_pos hstart).trans (if_neg hnew)⟩
  · exact .inr ⟨fun h => hstart ⟨h.1, h.2.1⟩, _, if_neg hstart⟩

/-! ## The invariant -/

/-- What holds after every operation. -/
structure Inv (c : EstimationRun) : Prop where
  bounds : Bounds c.est
  ring : Ring c.est
  valid : Valid (·.ts) (·.bitrate) c.recorded c.est.live (c.lastUpdate - kBweIncreaseIntervalMs)
  some : c.recorded ≠ [] → c.est.beginIndex < c.est.endIndex
  made : (c.recorded.map (·.ts)).Sublist c.updates
  times : ∀ ts ∈ c.updates, ts ≤ c.lastUpdate
  le : c.lastUpdate ≤ c.now

variable {c c' : EstimationRun} {op : EstimationOp}

theorem Inv.create {minBitrate maxBitrate : Nat} (hmin : 2 ≤ minBitrate)
    (hmin' : minBitrate < 2 ^ 32) (hmax : maxBitrate < 2 ^ 32) (now : Int) :
    Inv (create minBitrate maxBitrate now) where
  bounds := ⟨⟨hmin, hmin'⟩, hmax, .inl rfl, Nat.two_pow_pos 32⟩
  ring := ⟨Nat.le_refl 0, Nat.zero_le _, fun i _ hi => absurd hi (Nat.not_lt_zero i),
    fun i _ hi => absurd hi (Nat.not_lt_zero i)⟩
  valid := .nil _
  some := fun h => absurd rfl h
  made := .slnil
  times := nofun
  le := Int.le_refl now

/-- Few enough records are left for a new one. -/
theorem Inv.room (h : Inv c) (hnow : c.now ≤ curTs) (hsparse : Sparse (c.updates ++ [curTs])) :
    (expire (·.ts) (curTs - kBweIncreaseIntervalMs) c.est.live).length < minHistoryArrSize := by
  have hle : c.lastUpdate - kBweIncreaseIntervalMs ≤ curTs - kBweIncreaseIntervalMs := by
    have := h.le
    omega
  have hvalid := h.valid.expire hle
  have hmade := (hvalid.sublist.map (·.ts)).trans h.made
  have hin : ∀ ts ∈ (expire (·.ts) (curTs - kBweIncreaseIntervalMs) c.est.live).map (·.ts),
      curTs - kBweIncreaseIntervalMs ≤ ts ∧
        ts ≤ curTs - kBweIncreaseIntervalMs + kBweIncreaseIntervalMs := by
    intro ts hts
    have hlast := h.times ts (hmade.subset hts)
    have hle := h.le
    obtain ⟨r, hr, rfl⟩ := List.mem_map.mp hts
    exact ⟨hvalid.live r hr, by omega⟩
  -- every record that is left is that of an update of this second
  have hfilter := hmade.filter fun ts => decide (curTs - kBweIncreaseIntervalMs ≤ ts ∧
    ts ≤ curTs - kBweIncreaseIntervalMs + kBweIncreaseIntervalMs)
  rw [List.filter_eq_self.mpr fun ts hts => decide_eq_true (hin ts hts)] at hfilter
  have hlength := hfilter.length_le
  have hfew := hsparse (curTs - kBweIncreaseIntervalMs)
  rw [List.filter_append, List.length_append] at hfew
  rw [List.length_map] at hlength
  omega

/-- A history of one record. -/
theorem ring_single {r : MinBitrate} (hbegin : est.beginIndex = 0) (hend : est.endIndex = 1)
    (hrecord : est.record 0 = r) (hfits : r.bitrate < 2 ^ 32) : Ring est ∧ est.live = [r] := by
  refine ⟨⟨?_, ?_, ?_, ?_⟩, ?_⟩
  · omega
  · rw [hbegin, hend]
    decide
  · intro i _ hi
    exact .inl (by omega)
  · intro i _ hi
    obtain rfl : i = 0 := by omega
    rwa [hrecord]
  · rw [SenderEstimation.live, hbegin, hend, ← hrecord]
    rfl

/-- **An update** keeps the invariant, after changes of fields that are not about the
history. -/
theorem Inv.update (h : Inv c) (hring : SameRing c.est est)
    (hcurr : est.currBitrate = c.est.currBitrate) (hlimits : est.limits = c.est.limits)
    (hnow : c.now ≤ curTs) (hsparse : Sparse (c.updates ++ [curTs])) :
    Inv ⟨est.update fl curTs, recordedAfter est curTs c.recorded, c.updates ++ [curTs], curTs,
      curTs⟩ := by
  have hbounds : Bounds (est.update fl curTs) := by
    have hcap := @update_bounds est fl curTs
    have hsame := @limits_update est fl curTs
    obtain ⟨hmin, hmax⟩ := Prod.mk.inj hsame
    rw [← hmin, ← hmax] at hcap
    exact h.bounds.of_limits (hsame.trans hlimits) hcap.1 hcap.2
  have htimes : ∀ ts ∈ c.updates ++ [curTs], ts ≤ curTs := by
    intro ts hts
    rcases List.mem_append.mp hts with hts | hts
    · exact Int.le_trans (h.times ts hts) (Int.le_trans h.le hnow)
    · exact Int.le_of_eq (List.mem_singleton.mp hts)
  have hwindow : curTs - kBweIncreaseIntervalMs ≤ curTs := Int.sub_le_self _ (by decide)
  rcases update_cases fl est curTs with ⟨hraises, newBitrate, heq⟩ | ⟨hraises, newBitrate, heq⟩
  · -- the history is that of one record
    have hrecorded : recordedAfter est curTs c.recorded = [⟨curTs, est.currBitrate⟩] :=
      if_pos hraises
    have hrecord : (est.update fl curTs).record 0 = ⟨curTs, est.currBitrate⟩ := by
      rw [heq]
      exact record_setRecord { est with beginIndex := 0, endIndex := 1 } 0 _
    have hbegin : (est.update fl curTs).beginIndex = 0 := by rw [heq]; rfl
    have hend : (est.update fl curTs).endIndex = 1 := by rw [heq]; rfl
    obtain ⟨hring', hlive⟩ := ring_single hbegin hend hrecord (by
      rw [hcurr]
      exact h.bounds.fits)
    rw [hrecorded]
    refine ⟨hbounds, hring', ?_, ?_, ?_, htimes, Int.le_refl _⟩
    · simp only [hlive]
      exact .singleton hwindow
    · intro _
      simp only
      omega
    · exact List.sublist_append_right c.updates [curTs]
  · have hrecorded : recordedAfter est curTs c.recorded
        = c.recorded ++ [⟨curTs, est.currBitrate⟩] := if_neg hraises
    have hroom := h.room hnow hsparse
    rw [← hring.live] at hroom
    obtain ⟨hlive, hring', hlt⟩ := @updateHistory_live _ curTs (hring.ring h.ring)
      (by rw [hcurr]; exact h.bounds.fits) (by rw [hcurr]; exact h.bounds.curr) hroom
    have hsteady := updateSteady_ring fl est curTs newBitrate
    rw [hrecorded, heq]
    rw [heq] at hbounds
    refine ⟨hbounds, hsteady.ring hring', ?_, ?_, ?_, htimes, Int.le_refl _⟩
    · simp only [hsteady.live, hlive, hring.live]
      have hlater : c.lastUpdate - kBweIncreaseIntervalMs ≤ curTs - kBweIncreaseIntervalMs := by
        have := h.le
        omega
      have hexpired := h.valid.expire hlater
      refine hexpired.push ?_ hwindow
      intro r hr
      have hts := h.times r.ts (h.made.subset (List.mem_map_of_mem hr))
      have hle := h.le
      simp only
      omega
    · intro _
      simp only [hsteady.1, hsteady.2.1]
      exact hlt
    · simp only [List.map_append, List.map_singleton]
      exact h.made.append (List.Sublist.refl [curTs])

/-- Other fields change. -/
theorem Inv.same (h : Inv c) (hbounds : Bounds est) (hring : SameRing c.est est) {now : Int}
    (hnow : c.now ≤ now) : Inv { c with est, now } where
  bounds := hbounds
  ring := hring.ring h.ring
  valid := by
    simp only [hring.live]
    exact h.valid
  some := by
    simp only [hring.1, hring.2.1]
    exact h.some
  made := h.made
  times := h.times
  le := Int.le_trans h.le hnow

/-- The history is cleared. -/
theorem Inv.clear (h : Inv c) (hbounds : Bounds est) (hbegin : est.beginIndex = 0)
    (hend : est.endIndex = 0) : Inv { c with est, recorded := [] } where
  bounds := hbounds
  ring := by
    have hnone : ∀ i, ¬i < est.endIndex := by
      intro i
      rw [hend]
      exact Nat.not_lt_zero i
    exact ⟨by simp only; omega, by simp only; omega, fun i _ hi => absurd hi (hnone i),
      fun i _ hi => absurd hi (hnone i)⟩
  valid := by
    have hempty : est.live = [] := live_eq_nil (by omega)
    simp only [hempty]
    exact .nil _
  some := fun hne => absurd rfl hne
  made := List.nil_sublist _
  times := h.times
  le := h.le

theorem beginBlock_ring (fractionLoss rtt : Nat) (numberOfPackets curTs : Int) :
    SameRing est (est.beginBlock fractionLoss rtt numberOfPackets curTs).1 ∧
      (est.beginBlock fractionLoss rtt numberOfPackets curTs).1.currBitrate = est.currBitrate := by
  unfold beginBlock
  simp only
  by_cases hnone : numberOfPackets ≤ 0
  · rw [if_pos hnone]
    exact ⟨⟨rfl, rfl, rfl⟩, rfl⟩
  · rw [if_neg hnone]
    split <;> exact ⟨⟨rfl, rfl, rfl⟩, rfl⟩

/-- **Every operation keeps the invariant.** -/
theorem Inv.call (h : Inv c) (hstep : Step fl c op c') (hsparse : Sparse c'.updates) : Inv c' := by
  obtain ⟨hwords, hnow, rfl⟩ := hstep
  cases op with
  | setMinmaxBitrate minBitrate maxBitrate =>
      have hmin : minBitrate < 2 ^ 32 := hwords _ (by simp [EstimationOp.words])
      have hmax : maxBitrate < 2 ^ 32 := hwords _ (by simp [EstimationOp.words])
      exact h.same (h.bounds.setMinmax hmin hmax) ⟨rfl, rfl, rfl⟩ (Int.le_refl _)
  | setSendBitrate sendBitrate =>
      -- a bitrate that is set makes the records before it worthless
      exact h.clear ⟨h.bounds.minConf, h.bounds.maxConf, (h.bounds.cap sendBitrate).curr,
        (h.bounds.cap sendBitrate).fits⟩ rfl rfl
  | setBitrates sendBitrate minBitrate maxBitrate =>
      have hbounds : Bounds (c.est.setMinmaxBitrate minBitrate maxBitrate) :=
        h.bounds.setMinmax (hwords _ (by simp [EstimationOp.words]))
          (hwords _ (by simp [EstimationOp.words]))
      exact h.clear ⟨hbounds.minConf, hbounds.maxConf, (hbounds.cap sendBitrate).curr,
        (hbounds.cap sendBitrate).fits⟩ rfl rfl
  | updateRemb bitrate =>
      have hset : Bounds { c.est with bweIncoming := bitrate } :=
        ⟨h.bounds.minConf, h.bounds.maxConf, h.bounds.curr, h.bounds.fits⟩
      exact h.same (hset.cap c.est.currBitrate) ⟨rfl, rfl, rfl⟩ (Int.le_refl _)
  | updateDelayBase bitrate =>
      have hset : Bounds { c.est with delayBaseBitrate := bitrate } :=
        ⟨h.bounds.minConf, h.bounds.maxConf, h.bounds.curr, h.bounds.fits⟩
      exact h.same (hset.cap c.est.currBitrate) ⟨rfl, rfl, rfl⟩ (Int.le_refl _)
  | updateBlock fractionLoss rtt numberOfPackets curTs =>
      obtain ⟨hring, hcurr⟩ := @beginBlock_ring c.est fractionLoss rtt numberOfPackets curTs
      have hlimits := @limits_beginBlock c.est fractionLoss rtt numberOfPackets curTs
      have hle : c.now ≤ curTs := hnow curTs rfl
      unfold EstimationRun.call at hsparse ⊢
      simp only [updateBlock_eq] at hsparse ⊢
      by_cases hupdate : (c.est.beginBlock fractionLoss rtt numberOfPackets curTs).2
      · simp only [if_pos hupdate] at hsparse ⊢
        exact h.update hring hcurr hlimits hle hsparse
      · simp only [if_neg hupdate]
        obtain ⟨hmin, hmax⟩ := Prod.mk.inj hlimits
        have hbounds := h.bounds
        exact h.same ⟨by rw [hmin]; exact hbounds.minConf, by rw [hmax]; exact hbounds.maxConf,
          by rw [hcurr]; exact hbounds.curr, by rw [hcurr]; exact hbounds.fits⟩ hring hle
  | update curTs => exact h.update ⟨rfl, rfl, rfl⟩ rfl rfl (hnow curTs rfl) hsparse

/-- Updates are only added. -/
theorem Step.updates_prefix (hstep : Step fl c op c') : c.updates <+: c'.updates := by
  obtain ⟨-, -, rfl⟩ := hstep
  cases op with
  | updateBlock fractionLoss rtt numberOfPackets curTs =>
      simp only [EstimationRun.call]
      split
      · exact List.prefix_append _ _
      · exact List.prefix_refl _
  | update curTs => exact List.prefix_append _ _
  | _ => exact List.prefix_refl _

theorem Sparse.of_prefix {updates updates' : List Int} (h : Sparse updates')
    (hfirst : updates <+: updates') : Sparse updates := by
  intro ts
  exact Nat.lt_of_le_of_lt (hfirst.sublist.filter _).length_le (h ts)

/-- **The history is a monotone deque** after every operation of a run in which the
updates are sparse, and its first record is the lowest of the last second. -/
theorem history_lowest {minBitrate maxBitrate : Nat} {now : Int} {ops : List EstimationOp}
    (hmin : 2 ≤ minBitrate) (hmin' : minBitrate < 2 ^ 32) (hmax : maxBitrate < 2 ^ 32)
    (hrun : Run (Step fl) (create minBitrate maxBitrate now) ops c) (hsparse : Sparse c.updates) :
    c.est.live.Pairwise (·.bitrate < ·.bitrate) ∧ c.est.live.Pairwise (·.ts ≤ ·.ts) ∧
      c.est.beginIndex ≤ c.est.endIndex ∧
      c.est.endIndex - c.est.beginIndex ≤ minHistoryArrSize ∧
      (c.recorded ≠ [] →
        IsLeast {bitrate | ∃ r ∈ c.recorded, c.lastUpdate ≤ r.ts + kBweIncreaseIntervalMs ∧
            r.bitrate = bitrate}
          (c.est.record c.est.beginIndex).bitrate) := by
  have hinv : Sparse c.updates → Inv c := by
    apply hrun.stateInvariant (I := fun c => Sparse c.updates → Inv c)
    · exact fun _ => .create hmin hmin' hmax now
    · intro s op s' ih hstep hsparse
      exact (ih (hsparse.of_prefix hstep.updates_prefix)).call hstep hsparse
  have h := hinv hsparse
  have hsize := h.ring.size
  refine ⟨h.valid.increasing, h.valid.sorted, h.ring.le, by omega, fun hsome => ?_⟩
  have hlt := h.some hsome
  have hhead : c.est.live.head? = some (c.est.record c.est.beginIndex) := by
    have hcount : c.est.endIndex - c.est.beginIndex
        = c.est.endIndex - (c.est.beginIndex + 1) + 1 := by omega
    rw [SenderEstimation.live, hcount, List.range'_succ]
    rfl
  have hleast := h.valid.isLeast_head hhead
  have hiff : ∀ ts, c.lastUpdate - kBweIncreaseIntervalMs ≤ ts
      ↔ c.lastUpdate ≤ ts + kBweIncreaseIntervalMs := by
    intro ts
    omega
  simpa only [hiff] using hleast

/-- The bitrate falls between two updates. -/
theorem history_lowest_fall :
    ∃ c, Run (Step .exact) (create 10000 1500000 0)
        [.setSendBitrate 500000, .update 100, .updateRemb 300000, .update 200] c ∧
      c.recorded = [⟨100, 500000⟩, ⟨200, 300000⟩] ∧
      IsLeast {bitrate | ∃ r ∈ c.recorded, c.lastUpdate ≤ r.ts + kBweIncreaseIntervalMs ∧
          r.bitrate = bitrate}
        300000 := by
  have hrun : Run (Step .exact) (create 10000 1500000 0)
      [.setSendBitrate 500000, .update 100, .updateRemb 300000, .update 200] _ :=
    .snoc (.snoc (.snoc (.snoc .nil ⟨by decide, by decide, rfl⟩) ⟨by decide, by decide, rfl⟩)
      ⟨by decide, by decide, rfl⟩) ⟨by decide, by decide, rfl⟩
  have hsparse : Sparse [100, 200] := fun ts =>
    Nat.lt_of_le_of_lt (List.length_filter_le _ _) (by decide)
  obtain ⟨-, -, -, -, hleast⟩ := history_lowest (by decide) (by decide) (by decide) hrun hsparse
  exact ⟨_, hrun, rfl, hleast (List.cons_ne_nil _ _)⟩

end EstimationRun

end Razor
