import Mathlib.Algebra.Order.Ring.Rat
import Mathlib.Order.MinMax
import Mathlib.Tactic.NormNum
import RmcatNs3.Rmcat.AbortFreedom

/-!
# The limits of the NADA bandwidth

The bandwidth is clipped to its limits where the rate is updated, and nowhere else: until
the first update it is the default that the constructor has set, whatever the limits and
the initial bandwidth are set to.
-/

namespace Rmcat

open Runs

variable {F : Type}

/-! ## What the superclass keeps -/

namespace SenderBasedController

/-- The configured bandwidths of two states are the same. -/
structure SameLimits (s s' : SenderBasedController F) : Prop where
  initBw : s'.initBw = s.initBw
  minBw : s'.minBw = s.minBw
  maxBw : s'.maxBw = s.maxBw

theorem processSendPacket_limits {s s' : SenderBasedController F} {tx : BitVec 64}
    {sequence size : BitVec 32} {res : Bool}
    (h : s.processSendPacket tx sequence size = .ok (res, s')) : SameLimits s s' := by
  have hfirst : SameLimits s
      (if s.firstSend then { s with lastSequence := sequence - 1, firstSend := false } else s) := by
    split
    · exact ⟨rfl, rfl, rfl⟩
    · exact ⟨rfl, rfl, rfl⟩
  revert h
  rw [processSendPacket]
  generalize (if s.firstSend then
    { s with lastSequence := sequence - 1, firstSend := false } else s) = s₁ at hfirst ⊢
  intro h
  obtain ⟨hinit, hmin, hmax⟩ := hfirst
  dsimp only at h
  split at h
  · cases h
    exact ⟨hinit, hmin, hmax⟩
  · split at h
    · cases h
    · cases h
      exact ⟨hinit, hmin, hmax⟩

theorem dropObsolete_limits (s : SenderBasedController F) (packet : PacketRecord) :
    SameLimits s (s.dropObsolete packet) := by
  unfold dropObsolete
  split
  · exact ⟨rfl, rfl, rfl⟩
  · split
    · exact ⟨rfl, rfl, rfl⟩
    · exact ⟨rfl, rfl, rfl⟩

theorem processFeedback_limits {s s' : SenderBasedController F} {now rx : BitVec 64}
    {sequence : BitVec 32} {ecn : BitVec 8} {res : Bool}
    (h : s.processFeedback now sequence rx ecn = .ok (res, s')) : SameLimits s s' := by
  rcases processFeedback_ok h with ⟨k, rfl⟩ | ⟨k, packet, rest, _, _, _, hrecord⟩
  · exact ⟨rfl, rfl, rfl⟩
  · obtain ⟨il, history, sum, _, rfl⟩ := recordFeedback_ok hrecord
    obtain ⟨hinit, hmin, hmax⟩ := dropObsolete_limits { s with inTransitPackets := rest } packet
    exact ⟨hinit, hmin, hmax⟩

end SenderBasedController

/-! ## One call -/

namespace NadaController

open SenderBasedController

variable [FloatOps F]

/-- A call that updates the rate: a feedback so long after the last update. -/
def RateDue (s : NadaController F) : Call → Prop
  | .send _ _ _ => False
  | .feedback now _ _ _ =>
      s.lastTimeCalcValid = true ∧ now - s.lastTimeCalc ≥ nadaParamDelta

instance (s : NadaController F) : DecidablePred s.RateDue
  | .send _ _ _ => inferInstanceAs (Decidable False)
  | .feedback _ _ _ _ => inferInstanceAs (Decidable (_ ∧ _))

theorem updateMetrics_base {s s' : NadaController F} (h : s.updateMetrics = .ok s') :
    s'.base = s.base := by
  unfold updateMetrics at h
  obtain ⟨rrate, _, h⟩ := bind_eq_ok.mp h
  obtain ⟨loss, _, h⟩ := bind_eq_ok.mp h
  obtain ⟨interval, _, h⟩ := bind_eq_ok.mp h
  cases h
  cases loss <;> cases interval <;> dsimp only <;> split <;>
    first | rfl | rw [updateXcurr_base]

/-- A call that returns leaves the limits alone, and the bandwidth too unless the rate is
due. -/
theorem call_ok {s s' : NadaController F} {c : Call} {res : Bool}
    (h : s.call c = .ok (res, s')) :
    SameLimits s.base s'.base ∧
      ((¬s.RateDue c ∧ s'.currBw = s.currBw) ∨
        (s.RateDue c ∧ ∃ (s₁ : NadaController F) (delta : BitVec 64),
          s₁.base = s'.base ∧ s'.currBw = (s₁.updateBw delta).currBw)) := by
  cases c with
  | send tx sequence size =>
      obtain ⟨⟨res', base⟩, hsend, h⟩ := bind_eq_ok.mp h
      cases h
      exact ⟨processSendPacket_limits hsend, .inl ⟨fun hdue => hdue, rfl⟩⟩
  | feedback now sequence rx ecn =>
      obtain ⟨⟨res', base⟩, hfeedback, h⟩ := bind_eq_ok.mp h
      obtain ⟨s₁, hupdate, h⟩ := bind_eq_ok.mp h
      cases h
      have hlimits := processFeedback_limits hfeedback
      unfold updateRate at hupdate
      split at hupdate
      · rename_i hfirst
        cases hupdate
        exact ⟨hlimits, .inl ⟨fun hdue => hfirst hdue.1, rfl⟩⟩
      · rename_i hvalid
        obtain ⟨_, _, hupdate⟩ := bind_eq_ok.mp hupdate
        dsimp only at hupdate hvalid
        split at hupdate
        · rename_i hdelta
          obtain ⟨s₂, hmetrics, hupdate⟩ := bind_eq_ok.mp hupdate
          cases hupdate
          have hbase := updateMetrics_base hmetrics
          have hkept : (s₂.updateBw (now - s.lastTimeCalc)).base = base :=
            (updateBw_base s₂ _).trans hbase
          refine ⟨?_, .inr ⟨⟨not_not.mp hvalid, hdelta⟩, s₂, now - s.lastTimeCalc, ?_, rfl⟩⟩
          · rw [show ({ s₂.updateBw (now - s.lastTimeCalc) with
              lastTimeCalc := now } : NadaController F).base = base from hkept]
            exact hlimits
          · exact hbase.trans hkept.symm
        · rename_i hdelta
          cases hupdate
          exact ⟨hlimits, .inl ⟨fun hdue => hdelta hdue.2, rfl⟩⟩

/-! ## The limits -/

variable [LinearOrder F]

/-- The bandwidth that is returned is within limits. -/
def Within (s : NadaController F) (minBw maxBw : F) : Prop :=
  minBw ≤ s.getBandwidth ∧ s.getBandwidth ≤ maxBw

/-- The controller, with its limits and its initial bandwidth set. -/
def withLimits (s : NadaController F) (minBw initBw maxBw : F) : NadaController F :=
  ((s.setMinBw minBw).setInitBw initBw).setMaxBw maxBw

variable {s s' : NadaController F}

/-- The comparison of the floating-point numbers that occur, all of which are finite. -/
def ComparesFinite (F : Type) [FloatOps F] [LinearOrder F] : Prop :=
  ∀ a b : F, FloatOps.lt a b = decide (a < b)

theorem fmax_fmin_within (hlt : ComparesFinite F) {lo hi : F} (hle : lo ≤ hi) (x : F) :
    lo ≤ fmax (fmin x hi) lo ∧ fmax (fmin x hi) lo ≤ hi := by
  have hmin : fmin x hi = min x hi := by
    rw [fmin, hlt, min_comm, min_def_lt]
    simp only [decide_eq_true_eq]
  have hmax : fmax (fmin x hi) lo = max (fmin x hi) lo := by
    rw [fmax, hlt, max_def_lt]
    simp only [decide_eq_true_eq]
  rw [hmax, hmin]
  exact ⟨le_max_right _ _, max_le (min_le_right _ _) hle⟩

/-- An update of the rate ends within the limits. -/
theorem within_updateBw (hlt : ComparesFinite F) (hle : s.base.minBw ≤ s.base.maxBw)
    (delta : BitVec 64) : (s.updateBw delta).Within s.base.minBw s.base.maxBw := by
  have hbase := updateBw_base s delta
  unfold updateBw at hbase
  dsimp only at hbase
  rw [Within, getBandwidth, updateBw]
  dsimp only
  rw [hbase]
  exact fmax_fmin_within hlt hle _

/-! ## Whole runs -/

/-- A call that returns. -/
def Step : NadaController F → Call → NadaController F → Prop :=
  CallStep call fun _ _ => True

/-- **The bandwidth is within its limits exactly if it was when they were set, or if the
rate has been updated since**: no other call clips it. -/
theorem within_iff_of_run (hlt : ComparesFinite F) {minBw initBw maxBw : F}
    (hmin : minBw ≤ initBw) (hmax : initBw ≤ maxBw) {cs : List Call}
    (hrun : Run Step (s.withLimits minBw initBw maxBw) cs s') :
    s'.Within minBw maxBw ↔ s.Within minBw maxBw ∨
      Happened Step (fun s c _ => s.RateDue c) (s.withLimits minBw initBw maxBw) cs s' := by
  let I : NadaController F → Prop := fun s => s.base.minBw = minBw ∧ s.base.maxBw = maxBw
  have hinv : ∀ s c s', I s → Step s c s' → I s' := by
    rintro s c s' ⟨hlo, hhi⟩ ⟨_, res, hcall⟩
    have hlimits := (call_ok hcall).1
    exact ⟨hlimits.minBw.trans hlo, hlimits.maxBw.trans hhi⟩
  refine @Run.good_iff _ _ _ _ (fun s c _ => s.RateDue c) I (fun s => s.Within minBw maxBw)
    ⟨rfl, rfl⟩ hinv ?_ ?_ cs s' hrun
  · intro s c s' hI hstep hdue
    obtain ⟨hlo, hhi⟩ := hinv s c s' hI hstep
    obtain ⟨_, res, hcall⟩ := hstep
    rcases (call_ok hcall).2 with ⟨hnot, _⟩ | ⟨_, s₁, delta, hbase, hbw⟩
    · exact absurd hdue hnot
    · have hwithin := within_updateBw hlt (s := s₁) (by
        rw [hbase, hlo, hhi]
        exact hmin.trans hmax) delta
      rw [hbase, hlo, hhi] at hwithin
      rw [Within, getBandwidth, hbw]
      exact hwithin
  · rintro s c s' _ ⟨_, res, hcall⟩ hnot
    rcases (call_ok hcall).2 with ⟨_, hbw⟩ | ⟨hdue, _⟩
    · rw [Within, Within, getBandwidth, getBandwidth, hbw]
    · exact absurd hdue hnot

/-- So it always is exactly if it was when they were set. -/
theorem within_all_runs_iff (hlt : ComparesFinite F) {minBw initBw maxBw : F}
    (hmin : minBw ≤ initBw) (hmax : initBw ≤ maxBw) :
    (∀ cs s', Run Step (s.withLimits minBw initBw maxBw) cs s' → s'.Within minBw maxBw) ↔
      s.Within minBw maxBw := by
  constructor
  · intro hall
    exact hall [] (s.withLimits minBw initBw maxBw) .nil
  · intro hstart cs s' hrun
    exact (within_iff_of_run hlt hmin hmax hrun).mpr (.inl hstart)

end NadaController

/-! ## A controller of rational numbers -/

/-- The operations on rational numbers; `exp` is its first two terms. -/
@[reducible] def ratFloatOps : FloatOps ℚ where
  ofNat n := n
  lt a b := decide (a < b)
  exp x := 1 + x

namespace NadaController

section Rational

local instance : FloatOps ℚ := ratFloatOps

/-- Limits above the default of 150 kbps: the feedback at which the rate is due raises the
bandwidth to them. -/
theorem within_iff_of_run_fourAcked : ∃ s s' : NadaController ℚ,
    Run Step (new.withLimits 200000 300000 500000) fourAcked s ∧
      s.RateDue (.feedback 160 3 155 0) ∧
      Run Step (new.withLimits 200000 300000 500000)
        (fourAcked ++ [.feedback 160 3 155 0]) s' ∧
      (s'.Within 200000 500000 ↔ (new (F := ℚ)).Within 200000 500000 ∨
        Happened Step (fun s c _ => s.RateDue c) (new.withLimits 200000 300000 500000)
          (fourAcked ++ [.feedback 160 3 155 0]) s') ∧
      ¬(new (F := ℚ)).Within 200000 500000 ∧ s'.Within 200000 500000 := by
  have hlast : (fourAcked.foldlM safeStep?
      ((new (F := ℚ)).withLimits 200000 300000 500000)).bind (fun s =>
        (s.safeStep? (.feedback 160 3 155 0)).map fun _ =>
          decide (s.RateDue (.feedback 160 3 155 0))) =
      some true := by
    decide
  obtain ⟨s, hs, hlast⟩ := Option.bind_eq_some_iff.mp hlast
  obtain ⟨s', hs', hdue⟩ := Option.map_eq_some_iff.mp hlast
  have hcall : ∀ (s : NadaController ℚ) c s', s.safeStep? c = some s' → Step s c s' :=
    fun _ _ _ hcall => ⟨trivial, (callStep_of_safeStep? hcall).2⟩
  have hsent := (Run.of_foldlM hs).mono hcall
  have hstep := hcall _ _ _ hs'
  have hraised : Happened Step (fun s c _ => s.RateDue c)
      ((new (F := ℚ)).withLimits 200000 300000 500000)
      (fourAcked ++ [.feedback 160 3 155 0]) s' :=
    .last hsent hstep (of_decide_eq_true hdue)
  have hwithin := within_iff_of_run (s := new (F := ℚ)) (fun _ _ => rfl)
    (show (200000 : ℚ) ≤ 300000 by norm_num) (show (300000 : ℚ) ≤ 500000 by norm_num)
    (hsent.snoc hstep)
  refine ⟨s, s', hsent, of_decide_eq_true hdue, hsent.snoc hstep, hwithin, ?_,
    hwithin.mpr (.inr hraised)⟩
  show ¬((200000 : ℚ) ≤ 150000.0 ∧ (150000.0 : ℚ) ≤ 500000)
  norm_num

/-- **A fresh controller** whose limits are above 150 kbps starts below them. -/
theorem not_within_fresh : (200000 : ℚ) ≤ 300000 ∧ (300000 : ℚ) ≤ 500000 ∧
    ∃ s' : NadaController ℚ, Run Step (new.withLimits 200000 300000 500000) [] s' ∧
      s'.getBandwidth = 150000 ∧ ¬s'.Within 200000 500000 := by
  have hbw : ((new (F := ℚ)).withLimits 200000 300000 500000).getBandwidth = 150000 := by
    show (150000.0 : ℚ) = 150000
    norm_num
  refine ⟨by norm_num, by norm_num, _, .nil, hbw, ?_⟩
  rw [Within, hbw]
  norm_num

end Rational

end NadaController

end Rmcat
