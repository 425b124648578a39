import Mathlib.Order.Basic
import RmcatNs3.Lib.SortedMap
import RmcatNs3.Razor.FeedbackMsg
import RmcatNs3.Razor.Unwrapper

/-!
# The estimator proxy

`razor/estimator/remote_estimator_proxy.{c,h}`: the receiver's record of
arrival times, and the feedback built from it. The skiplist `arrival_times` is
the sorted map it refines. `estimator_proxy_bitrate_changed`, which nothing
calls, and the `header_size` that it reads are left out.
-/

namespace Razor

def defaultProxyIntervalTime : Int := 100
def backWindowsMs : Int := 500
def maxIdsNum : Nat := 100

/-- `estimator_proxy_t`. -/
structure EstimatorProxy where
  hbTs : Int
  sendIntervalMs : Int
  ssrc : BitVec 32
  wndStartSeq : Int
  maxArrivalSeq : Int
  arrivalTimes : SortedMap Int Int
  unwrapper : Unwrapper

namespace EstimatorProxy

/-- `estimator_proxy_create`. -/
def create (ssrc : BitVec 32) : EstimatorProxy where
  hbTs := -1
  sendIntervalMs := defaultProxyIntervalTime
  ssrc
  wndStartSeq := -1
  maxArrivalSeq := -1
  arrivalTimes := .empty
  unwrapper := .init16

/-- The loop that collects `ids` in `estimator_proxy_incoming`. -/
def collectIds (sequence arrivalTs : Int) (bindings : List (Int × Int)) : List Int :=
  bindings.foldl (fun ids b =>
    if b.1 < sequence ∧ arrivalTs ≥ b.2 + backWindowsMs ∧ ids.length < maxIdsNum then
      ids ++ [b.1]
    else ids) []

/-- `estimator_proxy_incoming`. -/
def incoming (proxy : EstimatorProxy) (arrivalTs : Int) (ssrc : BitVec 32)
    (seq : TransportSeq) : EstimatorProxy :=
  if arrivalTs < 0 then proxy
  else
    let (sequence, unwrapper) := proxy.unwrapper.wrapUint16 seq
    let proxy := { proxy with ssrc, unwrapper }
    if sequence > proxy.wndStartSeq + 32767 then proxy
    else
      let arrivalTimes :=
        if proxy.maxArrivalSeq ≤ proxy.wndStartSeq then
          let ids := collectIds sequence arrivalTs proxy.arrivalTimes.toList
          ids.foldl SortedMap.erase proxy.arrivalTimes
        else proxy.arrivalTimes
      let wndStartSeq :=
        if proxy.wndStartSeq = -1 then (seq : Int)
        else if sequence < proxy.wndStartSeq then sequence
        else proxy.wndStartSeq
      { proxy with
        wndStartSeq
        maxArrivalSeq := max proxy.maxArrivalSeq sequence
        arrivalTimes := arrivalTimes.insert sequence arrivalTs }

/-- The loop of `proxy_bulid_feelback_packet`; the result is the message and
`new_start_seq`. -/
def buildLoop (wndStartSeq : Int) :
    List (Int × Int) → FeedbackMsg → Int → Option (FeedbackMsg × Int)
  | [], msg, newStartSeq => some (msg, newStartSeq)
  | b :: rest, msg, newStartSeq =>
      if b.1 ≥ wndStartSeq then do
        let ts := BitVec.ofInt 64 b.2
        let minTs := if msg.minTs = -1 ∨ ts.slt msg.minTs then ts else msg.minTs
        let samples ← BoundedArray.store msg.samples msg.samplesNum.toNat
          ⟨BitVec.ofInt 16 b.1, ts⟩
        let msg := { msg with minTs, samples, samplesNum := msg.samplesNum + 1 }
        if msg.samplesNum.toNat ≥ maxFeelbackCount then some (msg, b.1 + 1)
        else buildLoop wndStartSeq rest msg (b.1 + 1)
      else buildLoop wndStartSeq rest msg newStartSeq

/-- `proxy_bulid_feelback_packet`; the result is the one it returns. -/
def bulidFeelbackPacket (proxy : EstimatorProxy) (msg : FeedbackMsg) :
    Option (Int × EstimatorProxy × FeedbackMsg) :=
  if proxy.maxArrivalSeq ≤ proxy.wndStartSeq ∧ proxy.arrivalTimes.size > 2 then
    some (-1, proxy, msg)
  else do
    let msg := { msg with
      minTs := -1
      samplesNum := 0
      baseSeq := BitVec.ofInt 64 proxy.wndStartSeq }
    let (msg, newStartSeq) ← buildLoop proxy.wndStartSeq proxy.arrivalTimes.toList msg (-1)
    if msg.samplesNum.toNat > 2 then
      some (0, { proxy with wndStartSeq := newStartSeq }, msg)
    else some (-1, proxy, msg)

/-- `estimator_proxy_heartbeat`. -/
def heartbeat (proxy : EstimatorProxy) (curTs : Int) (msg : FeedbackMsg) :
    Option (Int × EstimatorProxy × FeedbackMsg) :=
  if curTs ≥ proxy.hbTs + proxy.sendIntervalMs then
    { proxy with hbTs := curTs }.bulidFeelbackPacket msg
  else some (-1, proxy, msg)

end EstimatorProxy

end Razor
