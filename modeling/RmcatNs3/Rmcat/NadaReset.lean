import Mathlib.Algebra.Order.Ring.Rat
import Mathlib.Tactic.NormNum
import RmcatNs3.Rmcat.NadaLimits

/-!
# Resetting the NADA controller

`NadaController::reset` takes the bandwidth from `m_initBw`, which the superclass sets
back only afterwards. So the controller that is left is a new one but for its bandwidth.
-/

namespace Rmcat

variable {F β : Type} [FloatOps F]

/-- A controller with its log callback; the identity is left out. -/
structure NadaObject (F β : Type) where
  ctrl : NadaController F
  logCallback : Option β

/-- The calls that the class has in public. -/
inductive NadaCall (F β : Type) where
  | call (c : Call)
  | getBandwidth
  | setCurrentBw (newBw : F)
  | setInitBw (initBw : F)
  | setMinBw (minBw : F)
  | setMaxBw (maxBw : F)
  | setLogCallback (f : Option β)
  | reset

/-- What the caller of the class sees. -/
inductive Observation (F : Type) where
  | returned (res : Option Bool) (bandwidth : F)
  | aborted (e : Abort)

namespace NadaObject

def new : NadaObject F β := ⟨.new, none⟩

def reset (s : NadaObject F β) : NadaObject F β := ⟨s.ctrl.reset, none⟩

/-- One call, with what it returns if it is a `bool`. -/
def perform (s : NadaObject F β) :
    NadaCall F β → Except Abort (Option Bool × NadaObject F β)
  | .call c => do
      let (res, ctrl) ← s.ctrl.call c
      .ok (some res, { s with ctrl })
  | .getBandwidth => .ok (none, s)
  | .setCurrentBw newBw => .ok (none, { s with ctrl := s.ctrl.setCurrentBw newBw })
  | .setInitBw initBw => .ok (none, { s with ctrl := s.ctrl.setInitBw initBw })
  | .setMinBw minBw => .ok (none, { s with ctrl := s.ctrl.setMinBw minBw })
  | .setMaxBw maxBw => .ok (none, { s with ctrl := s.ctrl.setMaxBw maxBw })
  | .setLogCallback f => .ok (none, { s with logCallback := f })
  | .reset => .ok (none, s.reset)

/-- The results of some calls, and the bandwidth after each of them. -/
def observe (s : NadaObject F β) : List (NadaCall F β) → List (Observation F)
  | [] => []
  | c :: cs =>
      match s.perform c with
      | .error e => [.aborted e]
      | .ok (res, s) => .returned res s.ctrl.getBandwidth :: s.observe cs

/-- **What a reset leaves**: a new controller with the initial bandwidth of the old one. -/
theorem reset_eq (s : NadaObject F β) :
    s.reset =
      { (new : NadaObject F β) with
        ctrl := (new : NadaObject F β).ctrl.setCurrentBw s.ctrl.base.initBw } := rfl

@[simp] theorem bandwidth_reset (s : NadaObject F β) :
    s.reset.ctrl.getBandwidth = s.ctrl.base.initBw := rfl

@[simp] theorem bandwidth_new :
    (new : NadaObject F β).ctrl.getBandwidth = (SenderBasedController.new (F := F)).initBw := rfl

theorem reset_eq_new_iff (s : NadaObject F β) :
    s.reset = new ↔ s.ctrl.base.initBw = (SenderBasedController.new (F := F)).initBw := by
  constructor
  · intro h
    have hbw := congrArg (fun s => s.ctrl.getBandwidth) h
    rwa [bandwidth_reset, bandwidth_new] at hbw
  · intro h
    rw [reset_eq, h]
    rfl

/-- The bandwidth is seen at once. -/
theorem initBw_of_observe {s : NadaObject F β}
    (h : s.reset.observe [.getBandwidth] = (new : NadaObject F β).observe [.getBandwidth]) :
    s.ctrl.base.initBw = (SenderBasedController.new (F := F)).initBw := by
  have hhead := List.head_eq_of_cons_eq h
  exact (Observation.returned.inj hhead).2

/-- **A reset controller is a new one exactly if the initial bandwidth is the default**;
if it is not, a caller sees the difference. -/
theorem reset_fresh_iff (s : NadaObject F β) :
    (s.reset = new ↔ s.ctrl.base.initBw = (SenderBasedController.new (F := F)).initBw) ∧
      ((∀ cs, s.reset.observe cs = new.observe cs) ↔
        s.ctrl.base.initBw = (SenderBasedController.new (F := F)).initBw) := by
  refine ⟨s.reset_eq_new_iff, fun h => initBw_of_observe (h _), fun h cs => ?_⟩
  rw [s.reset_eq_new_iff.mpr h]

section Rational

local instance ratOps : FloatOps ℚ := ratFloatOps

/-- **After `setInitBw(300000)`** a reset leaves a bandwidth of 300 kbps, and a new
controller has 150 kbps. -/
theorem not_reset_fresh : ∃ s : NadaObject ℚ Unit,
    new.perform (.setInitBw 300000) = .ok (none, s) ∧ s.reset ≠ new ∧
      s.reset.ctrl.getBandwidth = 300000 ∧
      (new : NadaObject ℚ Unit).ctrl.getBandwidth = 150000 := by
  have hnew : (SenderBasedController.new (F := ℚ)).initBw = 150000 := by
    show (150000.0 : ℚ) = 150000
    norm_num
  refine ⟨_, rfl, ?_, rfl, hnew⟩
  intro heq
  have hsame := (reset_eq_new_iff _).mp heq
  rw [hnew] at hsame
  revert hsame
  show ¬(300000 : ℚ) = 150000
  norm_num

end Rational

end NadaObject

end Rmcat
