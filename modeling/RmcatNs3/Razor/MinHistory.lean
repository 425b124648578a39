import RmcatNs3.Lib.MonotoneDeque
import RmcatNs3.Razor.SenderEstimation

/-!
# The history of the lowest bitrates

The records in `[begin_index, end_index)` are a monotone deque: what
`sender_estimation_update_history` does with the two indices is to let records expire at
the front, and to push a new one at the end.
-/

namespace Razor

open MachineInt MonotoneDeque

namespace SenderEstimation

/-- The records from `begin_index` up to `end_index`. -/
def live (est : SenderEstimation) : List MinBitrate :=
  (List.range' est.beginIndex (est.endIndex - est.beginIndex)).map est.record

/-! ## Places -/

theorem pos_ne {i j : Nat} (hlt : i < j) (hnear : j < i + minHistoryArrSize) : pos i ≠ pos j := by
  intro heq
  have hval : i % minHistoryArrSize = j % minHistoryArrSize := congrArg Fin.val heq
  unfold minHistoryArrSize at hval hnear
  omega

variable {est est' : SenderEstimation} {i j : Nat} {r : MinBitrate}

theorem record_setRecord (est : SenderEstimation) (i : Nat) (r : MinBitrate) :
    (est.setRecord i r).record i = r := by
  simp only [record, setRecord]
  exact Vector.getElem_set_self (pos i).isLt

theorem record_setRecord_ne (hne : pos i ≠ pos j) :
    (est.setRecord i r).record j = est.record j := by
  have hval : (pos i).val ≠ (pos j).val := fun heq => hne (Fin.ext heq)
  simp only [record, setRecord]
  exact Vector.getElem_set_ne (pos i).isLt (pos j).isLt hval

/-- The records of a part of the places stay. -/
theorem map_record_congr {k n : Nat} (h : ∀ i, k ≤ i → i < k + n → est'.record i = est.record i) :
    (List.range' k n).map est'.record = (List.range' k n).map est.record := by
  apply List.map_congr_left
  intro i hi
  obtain ⟨hlow, hhigh⟩ := List.mem_range'_1.mp hi
  exact h i hlow hhigh

/-- Records are taken away at the two ends. -/
structure Shrinks (est est' : SenderEstimation) : Prop where
  curr : est'.currBitrate = est.currBitrate
  front : est.beginIndex ≤ est'.beginIndex
  back : est'.endIndex ≤ est.endIndex
  le : est'.beginIndex ≤ est'.endIndex
  kept : ∀ i, est'.beginIndex ≤ i → i < est'.endIndex → est'.record i = est.record i

theorem Shrinks.refl (h : est.beginIndex ≤ est.endIndex) : Shrinks est est :=
  ⟨rfl, Nat.le_refl _, Nat.le_refl _, h, fun _ _ _ => rfl⟩

theorem Shrinks.trans {est'' : SenderEstimation} (h : Shrinks est est')
    (h' : Shrinks est' est'') : Shrinks est est'' where
  curr := h'.curr.trans h.curr
  front := Nat.le_trans h.front h'.front
  back := Nat.le_trans h'.back h.back
  le := h'.le
  kept := fun i hlow hhigh => (h'.kept i hlow hhigh).trans
    (h.kept i (Nat.le_trans h'.front hlow) (Nat.lt_of_lt_of_le hhigh h'.back))

/-- The first record is taken away. -/
theorem dropFirst_live (hlt : est.beginIndex < est.endIndex)
    (hsize : est.endIndex ≤ est.beginIndex + minHistoryArrSize) :
    let est' := { est with beginIndex := est.beginIndex + 1 }.setRecord est.beginIndex ⟨0, 0⟩
    est.live = est.record est.beginIndex :: est'.live ∧ Shrinks est est' := by
  intro est'
  have hkept : ∀ i, est.beginIndex + 1 ≤ i → i < est.endIndex → est'.record i = est.record i := by
    intro i hlow hhigh
    have hne : pos est.beginIndex ≠ pos i := pos_ne (by omega) (by omega)
    exact record_setRecord_ne hne
  refine ⟨?_, rfl, Nat.le_succ _, Nat.le_refl _, hlt, hkept⟩
  show (List.range' est.beginIndex (est.endIndex - est.beginIndex)).map est.record
    = est.record est.beginIndex ::
      (List.range' (est.beginIndex + 1) (est.endIndex - (est.beginIndex + 1))).map est'.record
  rw [map_record_congr fun i hlow hhigh => hkept i hlow (by omega)]
  have hcount : est.endIndex - est.beginIndex = est.endIndex - (est.beginIndex + 1) + 1 := by omega
  rw [hcount, List.range'_succ, List.map_cons]

/-- The last record is taken away. -/
theorem dropLast_live (hlt : est.beginIndex < est.endIndex)
    (hsize : est.endIndex ≤ est.beginIndex + minHistoryArrSize) :
    let est' := { est with endIndex := est.endIndex - 1 }.setRecord (est.endIndex - 1) ⟨0, 0⟩
    est.live = est'.live ++ [est.record (est.endIndex - 1)] ∧ Shrinks est est' := by
  intro est'
  have hkept : ∀ i, est.beginIndex ≤ i → i < est.endIndex - 1 → est'.record i = est.record i := by
    intro i hlow hhigh
    have hne : pos i ≠ pos (est.endIndex - 1) := pos_ne hhigh (by omega)
    exact record_setRecord_ne hne.symm
  refine ⟨?_, rfl, Nat.le_refl _, Nat.sub_le _ _, by
    show est.beginIndex ≤ est.endIndex - 1
    omega, hkept⟩
  show (List.range' est.beginIndex (est.endIndex - est.beginIndex)).map est.record
    = (List.range' est.beginIndex (est.endIndex - 1 - est.beginIndex)).map est'.record
      ++ [est.record (est.endIndex - 1)]
  rw [map_record_congr fun i hlow hhigh => hkept i hlow (by omega)]
  have hcount : est.endIndex - est.beginIndex = est.endIndex - 1 - est.beginIndex + 1 := by omega
  have hlast : est.beginIndex + (est.endIndex - 1 - est.beginIndex) = est.endIndex - 1 := by omega
  rw [hcount, List.range'_1_concat, List.map_append, List.map_singleton, hlast]

theorem live_eq_nil (h : est.endIndex ≤ est.beginIndex) : est.live = [] := by
  rw [live, Nat.sub_eq_zero_of_le h]
  rfl

/-- **The first loop** lets records expire. -/
theorem dropOld_live (curTs : Int) (n : Nat) (hn : est.endIndex = est.beginIndex + n)
    (hsize : n ≤ minHistoryArrSize) :
    (dropOld curTs n est.beginIndex est).live
        = expire (·.ts) (curTs - kBweIncreaseIntervalMs) est.live
      ∧ Shrinks est (dropOld curTs n est.beginIndex est) := by
  induction n generalizing est with
  | zero =>
      have hempty : est.live = [] := live_eq_nil (Nat.le_of_eq hn)
      refine ⟨?_, .refl (Nat.le_of_eq hn.symm)⟩
      rw [hempty]
      exact hempty
  | succ n ih =>
      obtain ⟨hlive, hshrinks⟩ := @dropFirst_live est (by omega) (by omega)
      unfold dropOld
      split
      · rename_i hold
        obtain ⟨hrest, hshrinks'⟩ := @ih ({ est with
          beginIndex := est.beginIndex + 1 }.setRecord est.beginIndex ⟨0, 0⟩) (by
            show est.endIndex = est.beginIndex + 1 + n
            omega) (by omega)
        have hdrop : (est.record est.beginIndex).ts < curTs - kBweIncreaseIntervalMs := by omega
        refine ⟨hrest.trans ?_, hshrinks.trans hshrinks'⟩
        rw [hlive, expire, expire, List.dropWhile_cons_of_pos (by simpa using hdrop)]
      · rename_i hnew
        have hkeep : ¬(est.record est.beginIndex).ts < curTs - kBweIncreaseIntervalMs := by omega
        refine ⟨?_, .refl (by omega)⟩
        rw [hlive, expire, List.dropWhile_cons_of_neg (by simpa using hkeep)]

/-- **The second loop** makes the last records give way. -/
theorem dropHigher_live (n : Nat) (hn : est.endIndex = est.beginIndex + n)
    (hsize : n ≤ minHistoryArrSize) :
    (dropHigher n est).live = est.live.rdropWhile (est.currBitrate ≤ ·.bitrate)
      ∧ Shrinks est (dropHigher n est)
      ∧ ((dropHigher n est).beginIndex < (dropHigher n est).endIndex →
        ((dropHigher n est).record ((dropHigher n est).endIndex - 1)).bitrate
          < est.currBitrate) := by
  induction n generalizing est with
  | zero =>
      have hempty : est.live = [] := live_eq_nil (Nat.le_of_eq hn)
      refine ⟨?_, .refl (Nat.le_of_eq hn.symm), fun hlt => ?_⟩
      · rw [hempty]
        exact hempty
      · exact absurd hlt (Nat.not_lt.mpr (Nat.le_of_eq hn))
  | succ n ih =>
      obtain ⟨hlive, hshrinks⟩ := @dropLast_live est (by omega) (by omega)
      unfold dropHigher
      split
      · rename_i hhigh
        obtain ⟨hrest, hshrinks', hlast⟩ := @ih ({ est with
          endIndex := est.endIndex - 1 }.setRecord (est.endIndex - 1) ⟨0, 0⟩) (by
            show est.endIndex - 1 = est.beginIndex + n
            omega) (by omega)
        refine ⟨hrest.trans ?_, hshrinks.trans hshrinks', hlast⟩
        rw [hlive, List.rdropWhile_concat_pos _ _ _ (by simpa using hhigh)]
        rfl
      · rename_i hlow
        refine ⟨?_, .refl (by omega), fun _ => Nat.not_le.mp hlow⟩
        rw [hlive, List.rdropWhile_concat_neg _ _ _ (by simpa using hlow)]

/-- A record is put at the end. -/
theorem append_live (hle : est.beginIndex ≤ est.endIndex)
    (hroom : est.endIndex < est.beginIndex + minHistoryArrSize)
    (hfits : est.endIndex + 1 < 2 ^ 32) :
    let est' := { est with endIndex := toUnsigned 32 (est.endIndex + 1) }.setRecord est.endIndex r
    est'.endIndex = est.endIndex + 1 ∧ est'.live = est.live ++ [r] ∧
      (∀ i, est.beginIndex ≤ i → i < est.endIndex → est'.record i = est.record i) ∧
      est'.record est.endIndex = r := by
  intro est'
  have hend : est'.endIndex = est.endIndex + 1 := by
    show toUnsigned 32 ((est.endIndex : Int) + 1) = est.endIndex + 1
    rw [← Int.natCast_add_one, toUnsigned_of_lt hfits]
  have hkept : ∀ i, est.beginIndex ≤ i → i < est.endIndex → est'.record i = est.record i := by
    intro i hlow hhigh
    have hne : pos i ≠ pos est.endIndex := pos_ne hhigh (by omega)
    exact record_setRecord_ne hne.symm
  have hnew : est'.record est.endIndex = r := record_setRecord _ _ _
  refine ⟨hend, ?_, hkept, hnew⟩
  show (List.range' est.beginIndex (est'.endIndex - est.beginIndex)).map est'.record
    = (List.range' est.beginIndex (est.endIndex - est.beginIndex)).map est.record ++ [r]
  have hcount : est'.endIndex - est.beginIndex = est.endIndex - est.beginIndex + 1 := by omega
  have hlast : est.beginIndex + (est.endIndex - est.beginIndex) = est.endIndex := by omega
  rw [hcount, List.range'_1_concat, List.map_append, List.map_singleton, hlast, hnew,
    map_record_congr fun i hlow hhigh => hkept i hlow (by omega)]

/-! ## The indices -/

/-- The indices do not wrap: a bitrate above zero is higher than its index. -/
structure Ring (est : SenderEstimation) : Prop where
  le : est.beginIndex ≤ est.endIndex
  size : est.endIndex ≤ est.beginIndex + minHistoryArrSize
  above : ∀ i, est.beginIndex ≤ i → i < est.endIndex → i = 0 ∨ i < (est.record i).bitrate
  fits : ∀ i, est.beginIndex ≤ i → i < est.endIndex → (est.record i).bitrate < 2 ^ 32

theorem Ring.shrinks (h : Ring est) (hs : Shrinks est est') : Ring est' where
  le := hs.le
  size := by
    have hsize := h.size
    have hfront := hs.front
    have hback := hs.back
    omega
  above := by
    intro i hlow hhigh
    rw [hs.kept i hlow hhigh]
    exact h.above i (Nat.le_trans hs.front hlow) (Nat.lt_of_lt_of_le hhigh hs.back)
  fits := by
    intro i hlow hhigh
    rw [hs.kept i hlow hhigh]
    exact h.fits i (Nat.le_trans hs.front hlow) (Nat.lt_of_lt_of_le hhigh hs.back)

theorem length_live (est : SenderEstimation) :
    est.live.length = est.endIndex - est.beginIndex := by
  simp [live]

/-- The indices start again when no record is left. -/
theorem Ring.rewind (h : Ring est) :
    let est' := if est.endIndex = est.beginIndex then { est with endIndex := 0, beginIndex := 0 }
      else est
    Ring est' ∧ est'.live = est.live ∧ est'.currBitrate = est.currBitrate ∧
      (est'.endIndex = 0 ∨ est' = est ∧ est.beginIndex < est.endIndex) := by
  intro est'
  by_cases hempty : est.endIndex = est.beginIndex
  · have heq : est' = { est with endIndex := 0, beginIndex := 0 } := if_pos hempty
    have hring : Ring { est with endIndex := 0, beginIndex := 0 } :=
      ⟨Nat.le_refl 0, Nat.zero_le _, fun i _ hhigh => absurd hhigh (Nat.not_lt_zero i),
        fun i _ hhigh => absurd hhigh (Nat.not_lt_zero i)⟩
    rw [heq, live_eq_nil (Nat.le_of_eq hempty)]
    exact ⟨hring, rfl, rfl, .inl rfl⟩
  · have heq : est' = est := if_neg hempty
    rw [heq]
    exact ⟨h, rfl, rfl, .inr ⟨rfl, by have := h.le; omega⟩⟩

/-- The new record goes to the end while there is room. -/
theorem Ring.append {curTs : Int} (h : Ring est)
    (hroom : est.endIndex < est.beginIndex + minHistoryArrSize)
    (hcurr : est.currBitrate < 2 ^ 32) (hnext : est.endIndex = 0 ∨ est.endIndex < est.currBitrate) :
    let full := if est.endIndex = toUnsigned 32 (est.beginIndex + minHistoryArrSize) then
        { est with beginIndex := toUnsigned 32 (est.beginIndex + 1) }
      else est
    let est' := { full with endIndex := toUnsigned 32 (full.endIndex + 1) }.setRecord est.endIndex
      ⟨curTs, full.currBitrate⟩
    est'.live = est.live ++ [⟨curTs, est.currBitrate⟩] ∧ Ring est' ∧
      est'.beginIndex < est'.endIndex := by
  intro full est'
  have hle := h.le
  have hsize : minHistoryArrSize = 128 := rfl
  have hnotfull : est.endIndex ≠ toUnsigned 32 (est.beginIndex + minHistoryArrSize) := by
    intro heq
    have hcast := toUnsigned_cast 32 (est.beginIndex + minHistoryArrSize)
    omega
  have hfull : full = est := if_neg hnotfull
  have heq : est' = { est with endIndex := toUnsigned 32 (est.endIndex + 1) }.setRecord
      est.endIndex ⟨curTs, est.currBitrate⟩ := by
    show SenderEstimation.setRecord { full with endIndex := _ } _ ⟨curTs, full.currBitrate⟩ = _
    rw [hfull]
  obtain ⟨hend, hlive, hkept, hnew⟩ := @append_live est ⟨curTs, est.currBitrate⟩
    hle hroom (by omega)
  have hbegin : est'.beginIndex = est.beginIndex := by
    rw [heq]
    rfl
  rw [← heq] at hend hlive hkept hnew
  refine ⟨hlive, ⟨?_, ?_, ?_, ?_⟩, ?_⟩
  · omega
  · omega
  · intro i hlow hhigh
    rcases Nat.lt_or_ge i est.endIndex with hold | hlast
    · rw [hkept i (by omega) hold]
      exact h.above i (by omega) hold
    · obtain rfl : i = est.endIndex := by omega
      rw [hnew]
      exact hnext
  · intro i hlow hhigh
    rcases Nat.lt_or_ge i est.endIndex with hold | hlast
    · rw [hkept i (by omega) hold]
      exact h.fits i (by omega) hold
    · obtain rfl : i = est.endIndex := by omega
      rw [hnew]
      exact hcurr
  · omega

/-- **The update of the history** is an expiry and a push. -/
theorem updateHistory_live {curTs : Int} (h : Ring est) (hcurr : est.currBitrate < 2 ^ 32)
    (hsome : est.currBitrate = 0 ∨ 2 ≤ est.currBitrate)
    (hroom : (expire (·.ts) (curTs - kBweIncreaseIntervalMs) est.live).length
      < minHistoryArrSize) :
    (est.updateHistory curTs).live = push (·.bitrate) ⟨curTs, est.currBitrate⟩
        (expire (·.ts) (curTs - kBweIncreaseIntervalMs) est.live)
      ∧ Ring (est.updateHistory curTs)
      ∧ (est.updateHistory curTs).beginIndex < (est.updateHistory curTs).endIndex := by
  have hle := h.le
  have hsize := h.size
  obtain ⟨hlive₁, hshrinks₁⟩ := @dropOld_live est curTs
    (est.endIndex - est.beginIndex) (by omega) (by omega)
  unfold updateHistory
  generalize dropOld curTs (est.endIndex - est.beginIndex) est.beginIndex est = est₁ at *
  have hring₁ := h.shrinks hshrinks₁
  have hle₁ := hring₁.le
  have hsize₁ := hring₁.size
  obtain ⟨hlive₂, hshrinks₂, hlast⟩ := @dropHigher_live est₁
    (est₁.endIndex - est₁.beginIndex) (by omega) (by omega)
  simp only
  generalize dropHigher (est₁.endIndex - est₁.beginIndex) est₁ = est₂ at *
  have hring₂ := hring₁.shrinks hshrinks₂
  obtain ⟨hring₃, hlive₃, hcurr₃, hstart⟩ := hring₂.rewind
  generalize (if est₂.endIndex = est₂.beginIndex then
    { est₂ with endIndex := 0, beginIndex := 0 } else est₂) = est₃ at *
  have hcurr' : est₃.currBitrate = est.currBitrate :=
    hcurr₃.trans (hshrinks₂.curr.trans hshrinks₁.curr)
  have hlength : est₃.live.length ≤ est₁.live.length := by
    rw [hlive₃, hlive₂]
    exact (rdropWhile_sublist _ _).length_le
  have hroom₃ : est₃.endIndex < est₃.beginIndex + minHistoryArrSize := by
    rw [← hlive₁] at hroom
    rw [length_live] at hlength
    omega
  -- the new record is higher than the one before it, so higher than its index
  have hnext : est₃.endIndex = 0 ∨ est₃.endIndex < est₃.currBitrate := by
    refine hstart.imp_right ?_
    rintro ⟨rfl, hlt⟩
    have hhigher := hlast hlt
    have habove := hring₃.above (est₃.endIndex - 1) (by omega) (by omega)
    have hcurr₁ := hshrinks₁.curr
    omega
  obtain ⟨hlive, hring, hlt⟩ := @Ring.append _ curTs hring₃ hroom₃ (by omega) hnext
  refine ⟨?_, hring, hlt⟩
  rw [push, ← hlive₁, ← hshrinks₁.curr, ← hlive₂, ← hlive₃, hshrinks₁.curr, ← hcurr']
  exact hlive

end SenderEstimation

end Razor
