import Mathlib.Data.BitVec
import RmcatNs3.Lib.MachineInt
import RmcatNs3.Lib.Runs

/-!
# Groups of arrivals

`razor/estimator/inter_arrival.{c,h}`. A packet joins the group in progress or opens
the next one, and when it opens one the group that it closes is compared with the one
before. The result of `inter_arrival_compute_deltas` says what became of the packet
besides what it returns.
-/

namespace Razor

open MachineInt Runs

def burstThresholdMs : Int := 5
def offsetThresholdMs : Int := 3000

/-- `timestamp_group_t`. -/
structure TimestampGroup where
  size : Nat
  firstTimestamp : BitVec 32
  timestamp : BitVec 32
  completeTs : Int
  lastSysTs : Int
  deriving DecidableEq, Repr

/-- `inter_arrival_t`. -/
structure InterArrival where
  curTsGroup : TimestampGroup
  prevTsGroup : TimestampGroup
  numConsecutive : Int
  burst : Int
  timeGroupLenTicks : BitVec 32
  deriving DecidableEq, Repr

/-- The arguments of `inter_arrival_compute_deltas`. -/
structure ArrivedPacket where
  timestamp : BitVec 32
  arrivalTs : Int
  systemTs : Int
  size : Nat
  deriving DecidableEq, Repr

/-- What `inter_arrival_compute_deltas` stores when it returns `0`. -/
structure Deltas where
  timestampDelta : BitVec 32
  arrivalDelta : Int
  sizeDelta : Int
  deriving DecidableEq, Repr

/-- What becomes of a packet. -/
inductive Fate where
  /-- It is one more of the group in progress. -/
  | joined
  /-- It is the first one of the next group. -/
  | opened
  /-- It is not looked at. -/
  | dropped
  /-- It is not looked at, and the groups start again. -/
  | restarted
  deriving DecidableEq, Repr

/-- The result of `inter_arrival_compute_deltas`; there are deltas if it is `0`. -/
structure Outcome where
  deltas : Option Deltas
  fate : Fate
  arr : InterArrival

namespace InterArrival

def emptyGroup : TimestampGroup := ⟨0, 0, 0, -1, 0⟩

/-- `create_inter_arrival`. -/
def create (burst : Int) (groupTicks : BitVec 32) : InterArrival where
  curTsGroup := emptyGroup
  prevTsGroup := emptyGroup
  numConsecutive := 0
  burst
  timeGroupLenTicks := groupTicks

/-- `reset_group_ts`. -/
def resetGroupTs (arr : InterArrival) : InterArrival :=
  { arr with curTsGroup := emptyGroup, prevTsGroup := emptyGroup }

/-- `inter_arrival_in_order`; `0` if it is. -/
def inOrder (arr : InterArrival) (ts : BitVec 32) : Int :=
  if arr.curTsGroup.completeTs = -1 then 0
  else if arr.curTsGroup.firstTimestamp ≤ ts then 0
  else -1

/-- `belongs_to_burst`; `0` if it does. -/
def belongsToBurst (arr : InterArrival) (ts : BitVec 32) (arrivalTs : Int) : Int :=
  if arr.burst = -1 then -1
  else
    let arrivalTsDelta := arrivalTs - arr.curTsGroup.completeTs
    let tsDelta := ts - arr.curTsGroup.timestamp
    if tsDelta = 0 then 0
    else
      let proDelta := toSigned 32 (arrivalTsDelta - tsDelta.toNat)
      if proDelta < 0 ∧ arrivalTsDelta ≤ burstThresholdMs then 0 else -1

/-- `inter_arrival_new_group`; `0` if there is one. -/
def newGroup (arr : InterArrival) (ts : BitVec 32) (arrivalTs : Int) : Int :=
  if arr.curTsGroup.completeTs = -1 then -1
  else if arr.belongsToBurst ts arrivalTs = 0 then -1
  else
    let diff := ts - arr.curTsGroup.firstTimestamp
    if diff > arr.timeGroupLenTicks then 0 else -1

/-- The end of `inter_arrival_compute_deltas`: the packet is counted. -/
def count (arr : InterArrival) (p : ArrivedPacket) : InterArrival :=
  { arr with
    curTsGroup := { arr.curTsGroup with
      size := toUnsigned 64 (arr.curTsGroup.size + p.size)
      completeTs := p.arrivalTs
      lastSysTs := p.systemTs } }

/-- The group in progress becomes the one before. -/
def openGroup (arr : InterArrival) (p : ArrivedPacket) : InterArrival :=
  { arr with
    prevTsGroup := arr.curTsGroup
    curTsGroup := { arr.curTsGroup with
      firstTimestamp := p.timestamp
      timestamp := p.timestamp
      size := 0 } }

/-- `inter_arrival_compute_deltas`. -/
def computeDeltas (arr : InterArrival) (p : ArrivedPacket) : Outcome :=
  if arr.curTsGroup.completeTs = -1 then
    let arr := { arr with
      curTsGroup := { arr.curTsGroup with
        timestamp := p.timestamp, firstTimestamp := p.timestamp } }
    ⟨none, .joined, arr.count p⟩
  else if arr.inOrder p.timestamp = -1 then ⟨none, .dropped, arr⟩
  else if arr.newGroup p.timestamp p.arrivalTs = 0 then
    if arr.prevTsGroup.completeTs ≥ 0 then
      let tsDelta := arr.curTsGroup.timestamp - arr.prevTsGroup.timestamp
      let arrDelta := arr.curTsGroup.completeTs - arr.prevTsGroup.completeTs
      let sysDelta := arr.curTsGroup.lastSysTs - arr.prevTsGroup.lastSysTs
      if arrDelta > sysDelta + offsetThresholdMs then ⟨none, .restarted, arr.resetGroupTs⟩
      else if arrDelta < 0 then
        let arr := { arr with numConsecutive := toSigned 32 (arr.numConsecutive + 1) }
        if arr.numConsecutive > 3 then ⟨none, .restarted, arr.resetGroupTs⟩
        else ⟨none, .dropped, arr⟩
      else
        let arr := { arr with numConsecutive := 0 }
        let sizeDelta := toSigned 32 (arr.curTsGroup.size - arr.prevTsGroup.size)
        ⟨some ⟨tsDelta, arrDelta, sizeDelta⟩, .opened, (arr.openGroup p).count p⟩
    else ⟨none, .opened, (arr.openGroup p).count p⟩
  else
    let arr := { arr with
      curTsGroup := { arr.curTsGroup with
        timestamp := if arr.curTsGroup.timestamp < p.timestamp then p.timestamp
          else arr.curTsGroup.timestamp } }
    ⟨none, .joined, arr.count p⟩

variable {arr : InterArrival} {p : ArrivedPacket}

/-- **What a call does**, by the fate of its packet. -/
theorem computeDeltas_cases (arr : InterArrival) (p : ArrivedPacket) :
    let r := arr.computeDeltas p
    (r.fate = .joined ∧ r.deltas = none ∧ r.arr.prevTsGroup = arr.prevTsGroup ∧
      ((arr.curTsGroup.completeTs = -1 ∧ r.arr.curTsGroup =
          ⟨toUnsigned 64 (arr.curTsGroup.size + p.size), p.timestamp, p.timestamp,
            p.arrivalTs, p.systemTs⟩) ∨
        (arr.curTsGroup.completeTs ≠ -1 ∧ r.arr.curTsGroup =
          ⟨toUnsigned 64 (arr.curTsGroup.size + p.size), arr.curTsGroup.firstTimestamp,
            if arr.curTsGroup.timestamp < p.timestamp then p.timestamp
            else arr.curTsGroup.timestamp, p.arrivalTs, p.systemTs⟩))) ∨
    (r.fate = .opened ∧ arr.curTsGroup.completeTs ≠ -1 ∧
      r.arr.prevTsGroup = arr.curTsGroup ∧
      r.arr.curTsGroup = ⟨toUnsigned 64 ((0 : Nat) + p.size), p.timestamp, p.timestamp,
        p.arrivalTs, p.systemTs⟩ ∧
      ∀ d, r.deltas = some d → 0 ≤ arr.prevTsGroup.completeTs ∧ 0 ≤ d.arrivalDelta ∧
        d = ⟨arr.curTsGroup.timestamp - arr.prevTsGroup.timestamp,
          arr.curTsGroup.completeTs - arr.prevTsGroup.completeTs,
          toSigned 32 (arr.curTsGroup.size - arr.prevTsGroup.size)⟩) ∨
    (r.fate = .dropped ∧ r.deltas = none ∧ r.arr.curTsGroup = arr.curTsGroup ∧
      r.arr.prevTsGroup = arr.prevTsGroup) ∨
    (r.fate = .restarted ∧ r.deltas = none ∧ arr.curTsGroup.completeTs ≠ -1 ∧
      r.arr.curTsGroup = emptyGroup ∧ r.arr.prevTsGroup = emptyGroup) := by
  intro r
  by_cases hnone : arr.curTsGroup.completeTs = -1
  · left
    have hr : r = _ := if_pos hnone
    rw [hr]
    exact ⟨rfl, rfl, rfl, .inl ⟨hnone, rfl⟩⟩
  by_cases horder : arr.inOrder p.timestamp = -1
  · right; right; left
    have hr : r = _ := (if_neg hnone).trans (if_pos horder)
    rw [hr]
    exact ⟨rfl, rfl, rfl, rfl⟩
  by_cases hnew : ¬ arr.newGroup p.timestamp p.arrivalTs = 0
  · left
    have hr : r = _ := (if_neg hnone).trans ((if_neg horder).trans (if_neg hnew))
    rw [hr]
    exact ⟨rfl, rfl, rfl, .inr ⟨hnone, rfl⟩⟩
  have hr : r = _ := (if_neg hnone).trans ((if_neg horder).trans (if_pos (not_not.mp hnew)))
  -- the packet opens a group; the deltas need two complete ones
  by_cases hprev : ¬ arr.prevTsGroup.completeTs ≥ 0
  · right; left
    have hr : r = _ := hr.trans (if_neg hprev)
    rw [hr]
    exact ⟨rfl, hnone, rfl, rfl, nofun⟩
  have hr := hr.trans (if_pos (not_not.mp hprev))
  by_cases hoffset : arr.curTsGroup.completeTs - arr.prevTsGroup.completeTs
      > arr.curTsGroup.lastSysTs - arr.prevTsGroup.lastSysTs + offsetThresholdMs
  · right; right; right
    have hr : r = _ := hr.trans (if_pos hoffset)
    rw [hr]
    exact ⟨rfl, rfl, hnone, rfl, rfl⟩
  -- groups that arrive in the wrong order are counted: more than three in a row restart
  have hr := hr.trans (if_neg hoffset)
  by_cases hback : arr.curTsGroup.completeTs - arr.prevTsGroup.completeTs < 0
  · have hr := hr.trans (if_pos hback)
    by_cases hmany : toSigned 32 (arr.numConsecutive + 1) > 3
    · right; right; right
      have hr : r = _ := hr.trans (if_pos hmany)
      rw [hr]
      exact ⟨rfl, rfl, hnone, rfl, rfl⟩
    · right; right; left
      have hr : r = _ := hr.trans (if_neg hmany)
      rw [hr]
      exact ⟨rfl, rfl, rfl, rfl⟩
  · right; left
    have hr : r = _ := hr.trans (if_neg hback)
    rw [hr]
    refine ⟨rfl, hnone, rfl, rfl, ?_⟩
    intro d hd
    obtain rfl := Option.some.inj hd
    exact ⟨not_not.mp hprev, Int.not_lt.mp hback, rfl⟩

end InterArrival

end Razor
