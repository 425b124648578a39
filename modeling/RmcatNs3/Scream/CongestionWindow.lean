import RmcatNs3.Lib.FloatRounding
import RmcatNs3.Scream.ScreamTx

/-!
# The congestion window of SCReAM

The part of `scream/model/screamTx.{h,cc}` that keeps the congestion window, beside the
sender of which it is a part. A `float` is a rational number, and its operations round to 24
binary digits; what the delay and rate estimators have come to is given with each call. The
`int`s are unbounded.
-/

namespace Scream

open FloatRounding MachineInt

def kInitMss : Int := 100
def kMinCwndMss : Int := 3
def kBytesInFlightHistInterval_us : Nat := 1000000

/-- The `float` next to a number. -/
def toFloat (x : ℚ) : ℚ := roundSigned 24 x

def fadd (x y : ℚ) : ℚ := toFloat (x + y)
def fsub (x y : ℚ) : ℚ := toFloat (x - y)
def fmul (x y : ℚ) : ℚ := toFloat (x * y)
def fdiv (x y : ℚ) : ℚ := toFloat (x / y)

structure CongestionWindow where
  lossBeta : ℚ
  ecnCeBeta : ℚ
  gainUp : ℚ
  gainDown : ℚ
  isL4s : Bool
  openWindow : Bool
  mss : Int
  cwnd : Int
  cwndMin : Int
  inFastStart : Bool
  lastBytesInFlightT_us : Nat
  lastCongestionDetectedT_us : Nat
  /-- The values of `cwnd` that it has been divided by; the source has no such field. -/
  divisors : List Int

/-- What the estimators of the sender have come to when the window is updated. -/
structure Readings where
  maxRate : ℚ
  queueDelay : ℚ
  queueDelayTarget : ℚ
  queueDelayTrend : ℚ
  l4sAlpha : ℚ
  maxBytesInFlight : ℚ
  sRtt : ℚ
  rateTransmitted : ℚ
  /-- The sum over all streams of `getMaxRate`. -/
  rateTotal : ℚ

namespace CongestionWindow

/-- The part of `ScreamTx::ScreamTx`, which leaves `lastCongestionDetectedT_us` as it is in
the memory. -/
def new (lossBeta ecnCeBeta gainUp gainDown : ℚ) (cwnd : Int) (isL4s openWindow : Bool)
    (lastCongestionDetectedT_us : Nat) : CongestionWindow where
  lossBeta := lossBeta
  ecnCeBeta := ecnCeBeta
  gainUp := gainUp
  gainDown := gainDown
  isL4s := isL4s
  openWindow := openWindow
  mss := kInitMss
  cwnd := if openWindow then 10000000 else if cwnd = 0 then kInitMss * 2 else cwnd
  cwndMin := if openWindow then 10000000 else kInitMss * 2
  inFastStart := true
  lastBytesInFlightT_us := 0
  lastCongestionDetectedT_us := lastCongestionDetectedT_us
  divisors := []

/-- `mss`, with a minimum window of so many segments. -/
def setMss (w : CongestionWindow) (mss segments : Int) : CongestionWindow :=
  let cwndMin := if w.openWindow then w.cwndMin else segments * mss
  { w with mss, cwndMin, cwnd := max w.cwnd cwndMin }

/-- `newMediaFrame`, if it does not clear the queue. -/
def newMediaFrame (w : CongestionWindow) (sizeOfNextRtp : Int) : CongestionWindow :=
  w.setMss (max w.mss sizeOfNextRtp) 2

/-- `isOkToTransmit`: every second the segments are taken to be small again. -/
def resetMss (w : CongestionWindow) (time_us : Nat) : CongestionWindow :=
  if timeSince time_us w.lastBytesInFlightT_us > kBytesInFlightHistInterval_us then
    { w.setMss kInitMss kMinCwndMss with lastBytesInFlightT_us := time_us }
  else w

/-- `addTransmitted`; the packet may meet one that is still in flight in its place. -/
def addTransmitted (w : CongestionWindow) (collides : Bool) (size : Nat) : CongestionWindow :=
  let w := if collides then { w with cwnd := w.cwndMin } else w
  w.setMss (max w.mss size) 2

/-! ## `updateCwnd` -/

def bytesNewlyAckedLimited (w : CongestionWindow) (tx : ScreamTx) (time_us : Nat) (r : Readings) :
    ℚ :=
  let dT := if tx.lastCwndUpdateT_us = 0 then toFloat 0.001
    else fmul (toFloat (timeSince time_us tx.lastCwndUpdateT_us)) (toFloat 1e-6)
  if r.maxRate > 100000 then
    min (toFloat tx.bytesNewlyAcked) (fdiv (fmul (fmul 1.25 r.maxRate) dT) 8)
  else fmul 2 (toFloat w.mss)

def offTarget (r : Readings) : ℚ := fdiv (fsub r.queueDelayTarget r.queueDelay) r.queueDelayTarget

/-- The window is used to `1 / bytesInFlightMargin`. -/
def isUsed (w : CongestionWindow) (tx : ScreamTx) (bytesInFlightMargin : ℚ) : Prop :=
  fadd (fmul (toFloat tx.bytesInFlight) bytesInFlightMargin) (toFloat tx.bytesNewlyAcked) >
    toFloat w.cwnd

instance (w : CongestionWindow) (tx : ScreamTx) (bytesInFlightMargin : ℚ) :
    Decidable (w.isUsed tx bytesInFlightMargin) :=
  inferInstanceAs (Decidable (_ < _))

/-- A loss or a mark takes the window down to a part of it. -/
def scale (w : CongestionWindow) (factor : ℚ) (time_us : Nat) : CongestionWindow :=
  { w with
    cwnd := max w.cwndMin (trunc (fmul factor (toFloat w.cwnd)))
    lastCongestionDetectedT_us := time_us
    inFastStart := false }

def ecnFactor (w : CongestionWindow) (r : Readings) : ℚ :=
  if w.isL4s then fsub 1 (fdiv r.l4sAlpha 2) else w.ecnCeBeta

/-- "In fast start" -/
def fastStart (w : CongestionWindow) (tx : ScreamTx) (time_us : Nat) (r : Readings) :
    CongestionWindow :=
  if r.queueDelayTrend < 0.2 then
    if w.isUsed tx 1.5 then
      { w with cwnd := trunc (fadd (toFloat w.cwnd) (w.bytesNewlyAckedLimited tx time_us r)) }
    else w
  else { w with inFastStart := false }

/-- "queue delay below target, increase CWND" -/
def increase (w : CongestionWindow) (tx : ScreamTx) (time_us : Nat) (r : Readings) :
    CongestionWindow :=
  if w.isUsed tx (toFloat 1.2) then
    let acked := w.bytesNewlyAckedLimited tx time_us r
    let increment :=
      fdiv (fmul (fmul (fmul w.gainUp (offTarget r)) acked) (toFloat w.mss)) (toFloat w.cwnd)
    { w with
      cwnd := w.cwnd + trunc (fadd increment 0.5)
      divisors := w.divisors ++ [w.cwnd] }
  else w

/-- "Limit the CWND reduction to at most a quarter window" -/
def reduction (w : CongestionWindow) (tx : ScreamTx) (r : Readings) : ℚ :=
  let delta := -fdiv (fmul (fmul (fmul w.gainDown (offTarget r)) (toFloat tx.bytesNewlyAcked))
    (toFloat w.mss)) (toFloat w.cwnd)
  toFloat (min (trunc delta) (w.cwnd.tdiv 4) : Int)

/-- "Queue delay above target." -/
def reduce (w : CongestionWindow) (tx : ScreamTx) (time_us : Nat) (r : Readings) :
    CongestionWindow :=
  let cwnd := w.cwnd - trunc (w.reduction tx r)
  { w with
    cwnd
    divisors := w.divisors ++ [w.cwnd] ++ if r.rateTotal < 100000 then [cwnd] else []
    lastCongestionDetectedT_us := time_us }

/-- "Congestion window validation", and the minimum. -/
def validate (w : CongestionWindow) (r : Readings) : CongestionWindow :=
  let cwnd := if r.maxBytesInFlight > 5000 then min w.cwnd (trunc r.maxBytesInFlight) else w.cwnd
  let cwnd := if r.sRtt < toFloat 0.01 ∧ r.queueDelayTrend < 0.1 then
      let tmp := trunc (fdiv (fmul r.rateTransmitted (toFloat 0.01)) 8)
      max cwnd (max tmp (trunc (fmul r.maxBytesInFlight 1.5)))
    else cwnd
  { w with cwnd := max w.cwndMin cwnd }

/-- "Make possible to enter fast start if OWD has been low for a while" -/
def resumeFastStart (w : CongestionWindow) (time_us : Nat) (r : Readings) : CongestionWindow :=
  if r.queueDelayTrend > 0.2 then { w with lastCongestionDetectedT_us := time_us }
  else if timeSince time_us w.lastCongestionDetectedT_us > 5000000 ∧ w.inFastStart = false then
    { w with inFastStart := true, lastCongestionDetectedT_us := time_us }
  else w

/-- What the event or the delay does to the window. -/
def adapt (w : CongestionWindow) (tx : ScreamTx) (time_us : Nat) (r : Readings) :
    CongestionWindow :=
  if tx.lossEvent then w.scale w.lossBeta time_us
  else if tx.ecnCeEvent then w.scale (w.ecnFactor r) time_us
  else if w.inFastStart then w.fastStart tx time_us r
  else if offTarget r > 0 then w.increase tx time_us r
  else w.reduce tx time_us r

def updateCwnd (w : CongestionWindow) (tx : ScreamTx) (time_us : Nat) (r : Readings) :
    CongestionWindow :=
  ((w.adapt tx time_us r).validate r).resumeFastStart time_us r

/-- The end of `incomingFeedback`, if an update is due. -/
def handleEvents (w : CongestionWindow) (tx : ScreamTx) (time_us : Nat) (r : Readings) :
    CongestionWindow :=
  let lastCwndUpdateT_us := if tx.lastCwndUpdateT_us = 0 then time_us else tx.lastCwndUpdateT_us
  if timeSince time_us lastCwndUpdateT_us > 10000 then
    w.updateCwnd { tx with lastCwndUpdateT_us } time_us r
  else w

end CongestionWindow

end Scream
