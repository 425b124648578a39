import RmcatNs3.Rmcat.SenderBasedController

/-!
# The NADA controller

`nada/ns3-rmcat/model/congestion-control/nada-controller.{h,cc}`: the
superclass files every feedback, and every `NADA_PARAM_DELTA` ms the
controller turns the metrics of the history into a new rate. `logStats` is
left out: its call is commented out in the source.
-/

namespace Rmcat

variable {F : Type} [FloatOps F]

def nadaParamDelta : BitVec 64 := 100
def nadaParamDfilt : BitVec 64 := 120
def nadaParamQeps : BitVec 64 := 10

structure NadaController (F : Type) where
  base : SenderBasedController F
  ploss : BitVec 32
  plr : F
  warpMode : Bool
  lastTimeCalc : BitVec 64
  lastTimeCalcValid : Bool
  currBw : F
  qdelay : BitVec 64
  rtt : BitVec 64
  xcurr : F
  xprev : F
  recvR : F
  avgInt : F
  currInt : BitVec 32
  lossesSeen : Bool

namespace NadaController

/-- `NadaController::NadaController`. -/
def new : NadaController F where
  base := .new
  ploss := 0
  plr := 0.0
  warpMode := false
  lastTimeCalc := 0
  lastTimeCalcValid := false
  currBw := (SenderBasedController.new (F := F)).initBw
  qdelay := 0
  rtt := 0
  xcurr := 0.0
  xprev := 0.0
  recvR := 0.0
  avgInt := 0.0
  currInt := 0
  lossesSeen := false

/-- `NadaController::reset`; the superclass comes last. -/
def reset (s : NadaController F) : NadaController F :=
  let s := { s with
    ploss := 0
    plr := 0.0
    warpMode := false
    lastTimeCalc := 0
    lastTimeCalcValid := false
    currBw := s.base.initBw
    qdelay := 0
    rtt := 0
    xcurr := 0.0
    xprev := 0.0
    recvR := 0.0
    avgInt := 0.0
    currInt := 0
    lossesSeen := false }
  { s with base := s.base.reset }

/-! ## Rate update -/

/-- Non-linear warping of the queuing delay. -/
def calcDtilde (s : NadaController F) : F :=
  let qDelay := FloatOps.ofNat s.qdelay.toNat
  if FloatOps.lt 50.0 qDelay then
    let ratio : F := 0.5 * ((qDelay - 50.0) / 50.0)
    50.0 * FloatOps.exp (-ratio)
  else qDelay

/-- The aggregate congestion signal. -/
def updateXcurr (s : NadaController F) : NadaController F :=
  let xdel : F := FloatOps.ofNat s.qdelay.toNat
  let xtilde := s.calcDtilde
  let currInt : F := FloatOps.ofNat s.currInt.toNat
  let s :=
    if s.lossesSeen ∧ FloatOps.lt currInt (7.0 * s.avgInt) then
      { s with xcurr := xtilde, warpMode := true }
    else if s.lossesSeen then
      if FloatOps.lt currInt ((7.0 + 1.0) * s.avgInt) then
        let alpha := (currInt - 7.0 * s.avgInt) / s.avgInt
        { s with xcurr := alpha * xdel + (1.0 - alpha) * xtilde }
      else { s with xcurr := xdel, warpMode := false }
    else { s with xcurr := xdel, warpMode := false }
  let plr0 := s.plr / 0.01
  let x := s.xcurr + 10.0 * plr0 * plr0
  { s with xcurr := if FloatOps.lt 500.0 x then 500.0 else x }

def updateMetrics (s : NadaController F) : Except Abort (NadaController F) := do
  let qdelay := s.base.getCurrentQdelay
  let s := { s with qdelay := qdelay.getD s.qdelay }
  let s := { s with rtt := s.base.getCurrentRTT.getD s.rtt }
  let rrate ← s.base.getCurrentRecvRate
  let s := { s with recvR := rrate.getD s.recvR }
  let loss ← s.base.getPktLossInfo
  let s := match loss with
    | none => s
    | some (nLoss, plr) =>
        { s with ploss := nLoss, plr := s.plr + 0.1 * (plr - s.plr) }
  let interval ← s.base.getLossIntervalInfo
  let s := { s with lossesSeen := interval.isSome }
  let s := match interval with
    | none => s
    | some (avgInt, currentInt) => { s with avgInt := avgInt, currInt := currentInt }
  let s := { s with xprev := s.xcurr }
  .ok (if qdelay.isSome then s.updateXcurr else s)

/-- `false` is the accelerated ramp-up mode, `true` the gradual update. -/
def getRampUpMode (s : NadaController F) : Bool :=
  decide (s.ploss > 0) || s.base.packetHistory.reverse.any fun p =>
    decide (p.owd - s.base.baseDelay > nadaParamQeps)

def calcAcceleratedRampUp (s : NadaController F) : NadaController F :=
  let denom := s.rtt + nadaParamDelta + nadaParamDfilt
  let gamma : F := 50.0 / FloatOps.ofNat denom.toNat
  let gamma := if FloatOps.lt 0.5 gamma then 0.5 else gamma
  let rnew := (1.0 + gamma) * s.recvR
  if FloatOps.lt s.currBw rnew then { s with currBw := rnew } else s

def calcGradualRateUpdate (s : NadaController F) (delta : BitVec 64) :
    NadaController F :=
  let xOffset := s.xcurr - 1.0 * 10.0 * s.base.maxBw / s.currBw
  let xDiff := s.xcurr - s.xprev
  let rOffset := s.currBw * 0.5 * (FloatOps.ofNat delta.toNat / 500.0)
    * (xOffset / 500.0)
  let rDiff := s.currBw * 0.5 * 2.0 * (xDiff / 500.0)
  { s with currBw := s.currBw - rOffset - rDiff }

def updateBw (s : NadaController F) (delta : BitVec 64) : NadaController F :=
  let s := if s.getRampUpMode then s.calcGradualRateUpdate delta
    else s.calcAcceleratedRampUp
  { s with currBw := fmax (fmin s.currBw s.base.maxBw) s.base.minBw }

/-! ## The overridden interface -/

def processSendPacket (s : NadaController F) (txTimestamp : BitVec 64)
    (sequence size : BitVec 32) : Except Abort (Bool × NadaController F) := do
  let (res, base) ← s.base.processSendPacket txTimestamp sequence size
  .ok (res, { s with base })

/-- What `processFeedback` does after the superclass has filed the feedback. -/
def updateRate (s : NadaController F) (now : BitVec 64) :
    Except Abort (NadaController F) :=
  if ¬ s.lastTimeCalcValid then
    .ok { s with lastTimeCalc := now, lastTimeCalcValid := true }
  else do
    assert (lessThan s.lastTimeCalc (now + 1)) .clockInOrder
    let delta := now - s.lastTimeCalc
    if delta ≥ nadaParamDelta then do
      let s ← s.updateMetrics
      .ok { s.updateBw delta with lastTimeCalc := now }
    else .ok s

def processFeedback (s : NadaController F) (now : BitVec 64)
    (sequence : BitVec 32) (rxTimestamp : BitVec 64) (ecn : BitVec 8) :
    Except Abort (Bool × NadaController F) := do
  let (res, base) ← s.base.processFeedback now sequence rxTimestamp ecn
  let s ← { s with base }.updateRate now
  .ok (res, s)

def getBandwidth (s : NadaController F) : F := s.currBw

def setCurrentBw (s : NadaController F) (newBw : F) : NadaController F :=
  { s with currBw := newBw }

def setHistoryLength (s : NadaController F) (lenMs : BitVec 64) : NadaController F :=
  { s with base := s.base.setHistoryLength lenMs }

def setInitBw (s : NadaController F) (initBw : F) : NadaController F :=
  { s with base := s.base.setInitBw initBw }

def setMinBw (s : NadaController F) (minBw : F) : NadaController F :=
  { s with base := s.base.setMinBw minBw }

def setMaxBw (s : NadaController F) (maxBw : F) : NadaController F :=
  { s with base := s.base.setMaxBw maxBw }

end NadaController

end Rmcat
