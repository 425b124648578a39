import RmcatNs3.Razor.EstimatorProxy
import RmcatNs3.Razor.FeedbackCodec

/-!
# The receiver's congestion controller

`razor/cc/receiver_congestion_controller.c` and `razor/estimator/cc_loss_stat.c`.
What `rbe_heartbeat` returns, and the estimate that it writes, are parameters:
any value may come from the estimator of the bitrate. The times that
`GET_SYS_MS` returns, the message on the stack before anything is written and
the block of the stream are parameters too. The functions that only pass values
on to that estimator are left out.
-/

namespace Razor

open MachineInt StructMemory

def kLossStatisticsWindowMs : Int := 500

/-- `cc_loss_statistics_t`. -/
structure LossStatistics where
  statTs : Int
  prevMaxId : Int
  maxId : Int
  count : Int
  wrapper : Unwrapper
  deriving DecidableEq, Repr

namespace LossStatistics

/-- `loss_statistics_init`. -/
def init : LossStatistics := ⟨-1, -1, -1, 0, .init16⟩

/-- `loss_statistics_incoming`. -/
def incoming (lossStat : LossStatistics) (seq : TransportSeq) : LossStatistics :=
  let (id, wrapper) := lossStat.wrapper.wrapUint16 seq
  { lossStat with
    wrapper
    prevMaxId := if lossStat.prevMaxId = -1 ∧ id > 0 then id - 1 else lossStat.prevMaxId
    maxId := if lossStat.maxId < id then id else lossStat.maxId
    count := toSigned 32 (lossStat.count + 1) }

/-- `loss_statistics_calculate`; the result is the one it returns, then
`fraction_loss` and `num`. -/
def calculate (lossStat : LossStatistics) (nowTs : Int) :
    Int × BitVec 8 × BitVec 32 × LossStatistics :=
  if lossStat.maxId = -1 ∨ lossStat.prevMaxId = -1 ∨
      nowTs < lossStat.statTs + kLossStatisticsWindowMs ∨
      lossStat.maxId < lossStat.prevMaxId + 20 then
    (-1, 0, 0, lossStat)
  else
    let disance := toSigned 32 (lossStat.maxId - lossStat.prevMaxId)
    if disance ≤ 0 then (-1, 0, 0, lossStat)
    else
      let fractionLoss : BitVec 8 :=
        if disance ≤ lossStat.count then 0
        else BitVec.ofInt 8
          ((toSigned 32 ((disance - lossStat.count) * 255)).tdiv disance)
      (0, fractionLoss, BitVec.ofInt 32 disance,
        { lossStat with prevMaxId := lossStat.maxId, count := 0, statTs := nowTs })

end LossStatistics

/-- `receiver_cc_t`. -/
structure ReceiverCc where
  proxy : EstimatorProxy
  lossStat : LossStatistics

/-- What `send_cb` is called with: the message, and its bytes. -/
abbrev Feedback := FeedbackMsg × List UInt8

namespace ReceiverCc

/-- `receiver_cc_create`. -/
def create : ReceiverCc := ⟨.create 0, .init⟩

/-- `receiver_cc_on_received`. -/
def onReceived (cc : ReceiverCc) (nowTs : Int) (seq : TransportSeq) (remb : Int) :
    ReceiverCc :=
  let proxy := if remb = 0 then cc.proxy else cc.proxy.incoming nowTs 0 seq
  { proxy, lossStat := cc.lossStat.incoming seq }

/-- The first half of `receiver_cc_heartbeat`: the parts of the message. -/
def collect (cc : ReceiverCc) (nowTs rbeRet : Int) (remb : BitVec 32)
    (msg : FeedbackMsg) : Option (ReceiverCc × FeedbackMsg) := do
  let msg := { msg with flag := 0, remb }
  let msg := if rbeRet = 0 then { msg with flag := msg.flag ||| rembMsg } else msg
  let (lossRet, fractionLoss, packetNum, lossStat) := cc.lossStat.calculate nowTs
  let msg := { msg with fractionLoss, packetNum }
  let msg := if lossRet = 0 then { msg with flag := msg.flag ||| lossInfoMsg } else msg
  let (proxyRet, proxy, msg) ← cc.proxy.heartbeat nowTs msg
  let msg := if proxyRet = 0 then { msg with flag := msg.flag ||| proxyTsMsg } else msg
  some ({ proxy, lossStat }, msg)

/-- `receiver_cc_heartbeat`. -/
def heartbeat (cc : ReceiverCc) (nowTs rbeRet : Int) (remb : BitVec 32)
    (msg : FeedbackMsg) (data : Mem) : Option (ReceiverCc × Option Feedback) := do
  let (cc, msg) ← cc.collect nowTs rbeRet remb msg
  if msg.flag ≠ 0 then
    let strm ← msg.encode (BinStream.init data)
    some (cc, some (msg, bytesAt strm.data 0 strm.used))
  else some (cc, none)

end ReceiverCc

end Razor
