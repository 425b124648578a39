import RmcatNs3.Razor.RateStat
import RmcatNs3.Razor.SendWindow

/-!
# The limiter of retransmissions

`sim_transport/sim_limiter.c`, and the loop of `sim_sender_ack` that asks it: a segment that an
ack asks for goes to the pacer again if the bytes of the last window leave room for it. Whether
the pacer takes it is up to congestion control.
-/

namespace Razor

namespace SimTransport

open SimProto

/-- `SIM_HEADER_SIZE`. -/
def simHeaderSize : Nat := 6

/-- `SIM_SEGMENT_HEADER_SIZE`. -/
def simSegmentHeaderSize : Nat := simHeaderSize + 24

/-- `MAX_LIMITER_RATE`. -/
def maxLimiterRate : BitVec 32 := 1024 * 1024 * 10

/-- `sim_sender_limiter_t`, with a window of `n` milliseconds. -/
structure SimLimiter (n : Nat) where
  rate : RateStat n
  maxRateBps : BitVec 32

/-- The bytes that a segment takes. -/
def segmentSize (seg : SimSegment) : Nat := seg.dataSize.toNat + simSegmentHeaderSize

namespace SimLimiter

variable {n : Nat}

/-- `sim_limiter_init`. -/
def init (n : Nat) : SimLimiter n := ⟨.init n, maxLimiterRate⟩

/-- `sim_limiter_set_max_bitrate`. -/
def setMaxBitrate (limiter : SimLimiter n) (bitrate : BitVec 32) : SimLimiter n :=
  { limiter with maxRateBps := bitrate }

/-- `sim_limiter_try`, and whether it returned zero. The rate in `float` is a parameter. -/
def tryPacket (measure : Int → Int → Int) (limiter : SimLimiter n) (size : Nat) (nowTs : Int) :
    Option (Bool × SimLimiter n) := do
  let (curRate, rate) ← limiter.rate.rate measure nowTs
  let addBitrate := size * 8 * 1000 / n
  some (!(decide (0 < curRate) &&
    decide (limiter.maxRateBps.toNat < addBitrate + curRate.toNat)), { limiter with rate })

/-- `sim_limiter_update`. -/
def update (limiter : SimLimiter n) (size : Nat) (nowTs : Int) : Option (SimLimiter n) := do
  let rate ← limiter.rate.update size nowTs
  some { limiter with rate }

/-- The loop of `sim_sender_ack` over the segments that the ack asks for and the cache has: those
that the pacer gets, and the limiter behind them. -/
def retransmit (measure : Int → Int → Int) (addPacket : SimSegment → Bool) (nowTs : Int) :
    List SimSegment → SimLimiter n → Option (List SimSegment × SimLimiter n)
  | [], limiter => some ([], limiter)
  | seg :: rest, limiter => do
      let (room, limiter) ← limiter.tryPacket measure (segmentSize seg) nowTs
      if room && addPacket seg then do
        let limiter ← limiter.update (segmentSize seg) nowTs
        let (segs, limiter) ← retransmit measure addPacket nowTs rest limiter
        some (seg :: segs, limiter)
      else retransmit measure addPacket nowTs rest limiter

end SimLimiter

end SimTransport

end Razor
