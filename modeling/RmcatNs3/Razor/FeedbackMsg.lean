import RmcatNs3.Lib.BoundedArray

/-!
# Feedback messages

`feedback_msg_t` of `razor/estimator/estimator_common.h`.
-/

namespace Razor

def rembMsg : BitVec 8 := 0x01
def lossInfoMsg : BitVec 8 := 0x02
def proxyTsMsg : BitVec 8 := 0x04

def maxFeelbackCount : Nat := 128

/-- `feedback_sample_t`. -/
structure FeedbackSample where
  seq : BitVec 16
  ts : BitVec 64
  deriving DecidableEq, Repr

/-- `feedback_msg_t`. -/
structure FeedbackMsg where
  flag : BitVec 8
  remb : BitVec 32
  fractionLoss : BitVec 8
  packetNum : BitVec 32
  baseSeq : BitVec 64
  minTs : BitVec 64
  samplesNum : BitVec 8
  samples : Vector FeedbackSample maxFeelbackCount
  deriving DecidableEq, Repr

/-- Whether a flag is set. -/
def FeedbackMsg.hasFlag (msg : FeedbackMsg) (f : BitVec 8) : Bool :=
  msg.flag &&& f == f

end Razor
