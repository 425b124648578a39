/-!
# The states of the estimators

The enumerations of `razor/estimator/estimator_common.h`, and `rate_control_input_t`
without `noise_var`, which nothing reads.
-/

namespace Razor

/-- What an over-use detector says. -/
inductive BwState where
  | kBwNormal
  | kBwUnderusing
  | kBwOverusing
  deriving DecidableEq, Repr

/-- What a rate controller does. -/
inductive RcState where
  | kRcHold
  | kRcIncrease
  | kRcDecrease
  deriving DecidableEq, Repr

/-- Where a rate controller takes the maximum to be. -/
inductive RcRegion where
  | kRcNearMax
  | kRcAboveMax
  | kRcMaxUnknown
  deriving DecidableEq, Repr

/-- `rate_control_input_t`. -/
structure RateControlInput where
  state : BwState
  incomingBitrate : Nat
  deriving DecidableEq, Repr

def kDefaultRtt : Nat := 200

end Razor
