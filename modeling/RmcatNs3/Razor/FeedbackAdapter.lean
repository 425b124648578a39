import RmcatNs3.Lib.BoundedArray
import RmcatNs3.Razor.FeedbackMsg
import RmcatNs3.Razor.SenderHistory

/-!
# The feedback adapter

`razor/estimator/feedback_adapter.{c,h}`. An index outside `rtts` or `packets` is
`none`; `index` is an `int` that wraps around, and `%` has the sign of it.
-/

namespace Razor

open MachineInt BoundedArray

def feedbackRttWinSize : Nat := 32
def kHistoryCacheMs : Nat := 60000

/-- `feedback_adapter_t`. -/
structure FeedbackAdapter where
  hist : SenderHistory
  minFeedbackRtt : Int
  index : Int
  rtts : Vector Int feedbackRttWinSize
  num : Nat
  packets : Vector PacketFeedback maxFeelbackCount

namespace FeedbackAdapter

/-- `feedback_adapter_init`, in a block of zeros. -/
def init : FeedbackAdapter where
  hist := .create kHistoryCacheMs
  minFeedbackRtt := 10
  index := 0
  rtts := .replicate _ (-1)
  num := 0
  packets := .replicate _ ⟨0, 0, 0, 0, 0⟩

/-- `feedback_add_packet`; `sendTs` and `nowTs` are the times that it and
`sender_history_add` read. -/
def addPacket (adapter : FeedbackAdapter) (sendTs nowTs : Int) (seq : TransportSeq)
    (size : Nat) : FeedbackAdapter :=
  let packet : PacketFeedback :=
    { createTs := sendTs, arrivalTs := -1, sendTs, sequenceNumber := seq,
      payloadSize := size }
  { adapter with hist := adapter.hist.add nowTs packet }

/-- `feedback_packet_comp`. -/
def feedbackPacketComp (p1 p2 : PacketFeedback) : Int :=
  if p1.arrivalTs < p2.arrivalTs then -1
  else if p1.arrivalTs > p2.arrivalTs then 1
  else if p1.sendTs < p2.sendTs then -1
  else 1

/-- `feedback_qsort`. -/
def feedbackQsort (adapter : FeedbackAdapter) : Option FeedbackAdapter := do
  let ps ← loadAll adapter.packets adapter.num
  let packets ← storeAll adapter.packets 0
    (ps.mergeSort fun p1 p2 => decide (feedbackPacketComp p1 p2 < 0))
  some { adapter with packets }

/-- The `rtt` of a packet, and the next entry of `rtts`. -/
def recordRtt (adapter : FeedbackAdapter) (nowTs feedbackRtt : Int) (p : PacketFeedback) :
    Option (FeedbackAdapter × Int) :=
  if p.sendTs > 0 then do
    let feedbackRtt := toSigned 32 (max (nowTs - p.sendTs) feedbackRtt)
    let rtts ← storeInt adapter.rtts (adapter.index.tmod feedbackRttWinSize) feedbackRtt
    some ({ adapter with rtts, index := toSigned 32 (adapter.index + 1) }, feedbackRtt)
  else some (adapter, feedbackRtt)

/-- The body of the first loop of `feedback_on_feedback`. -/
def onSample (adapter : FeedbackAdapter) (nowTs feedbackRtt : Int)
    (sample : FeedbackSample) : Option (FeedbackAdapter × Int) :=
  match adapter.hist.get sample.seq.toFin with
  | (none, hist) => some ({ adapter with hist }, feedbackRtt)
  | (some p, hist) => do
      let packets ← store adapter.packets adapter.num p
      let (adapter, feedbackRtt) ← { adapter with hist, packets }.recordRtt nowTs feedbackRtt p
      let packets ← store adapter.packets adapter.num { p with arrivalTs := sample.ts.toInt }
      some ({ adapter with packets, num := adapter.num + 1 }, feedbackRtt)

/-- The loop over `samples`, with `n` samples left from index `i` on. -/
def samplesLoop (nowTs : Int) (msg : FeedbackMsg) :
    Nat → Nat → FeedbackAdapter → Int → Option (FeedbackAdapter × Int)
  | 0, _, adapter, feedbackRtt => some (adapter, feedbackRtt)
  | n + 1, i, adapter, feedbackRtt => do
      let sample ← load msg.samples i
      let (adapter, feedbackRtt) ← adapter.onSample nowTs feedbackRtt sample
      samplesLoop nowTs msg n (i + 1) adapter feedbackRtt

/-- The loop over `rtts`, with `n` entries left from index `i` on. -/
def minRttLoop (rtts : Vector Int feedbackRttWinSize) : Nat → Nat → Int → Option Int
  | 0, _, minFeedbackRtt => some minFeedbackRtt
  | n + 1, i, minFeedbackRtt => do
      let rtt ← load rtts i
      minRttLoop rtts n (i + 1)
        (if minFeedbackRtt > rtt ∧ rtt > 0 then rtt else minFeedbackRtt)

/-- The update of `min_feedback_rtt`. -/
def updateMinRtt (adapter : FeedbackAdapter) (feedbackRtt : Int) : Option FeedbackAdapter :=
  if feedbackRtt > 0 then do
    let first ← load adapter.rtts 0
    let minFeedbackRtt ← minRttLoop adapter.rtts (feedbackRttWinSize - 1) 1 first
    some { adapter with minFeedbackRtt }
  else some adapter

/-- `feedback_on_feedback`; it returns `num`. -/
def onFeedback (adapter : FeedbackAdapter) (nowTs : Int) (msg : FeedbackMsg) :
    Option FeedbackAdapter := do
  let (adapter, feedbackRtt) ←
    samplesLoop nowTs msg msg.samplesNum.toNat 0 { adapter with num := 0 } (-1)
  let adapter ← adapter.updateMinRtt feedbackRtt
  adapter.feedbackQsort

end FeedbackAdapter

end Razor
