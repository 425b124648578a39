import RmcatNs3.Razor.FeedbackAdapter
import RmcatNs3.Razor.FeedbackCodec

/-!
# The sender's congestion controller

The feedback side of `razor/cc/sender_congestion_controller.c`: what
`sender_on_feedback` does with its bytes, up to the estimators and the controller
of the bitrate, which only read `packets` and `msg`. The block that
`malloc` returns and the message on the stack before anything is written are
parameters, and so are the times.
-/

namespace Razor

open BinStream StructMemory FeedbackMsg

def kMaxFeedbackSize : Nat := 1472

/-- `sender_cc_t`. -/
structure SenderCc where
  adapter : FeedbackAdapter
  strm : BinStream

namespace SenderCc

/-- `sender_cc_create`. -/
def create (data : Mem) : SenderCc := ⟨.init, .init data⟩

/-- `sender_on_send_packet`. -/
def onSendPacket (cc : SenderCc) (sendTs nowTs : Int) (seq : TransportSeq) (size : Nat) :
    SenderCc :=
  { cc with adapter := cc.adapter.addPacket sendTs nowTs seq size }

/-- `sender_on_feedback`, until the message is decoded. -/
def readFeedback (cc : SenderCc) (feedback : List UInt8) (msg : FeedbackMsg) :
    Option (BinStream × FeedbackMsg) := do
  let strm ← cc.strm.resize feedback.length
  let strm ← (strm.rewind 1).copyIn feedback
  decode { strm with used := feedback.length } msg

/-- The proxy's part of a message. -/
def onProxyPart (adapter : FeedbackAdapter) (nowTs : Int) (msg : FeedbackMsg) :
    Option FeedbackAdapter :=
  if msg.hasFlag proxyTsMsg then adapter.onFeedback nowTs msg else some adapter

/-- `sender_on_feedback`. -/
def onFeedback (cc : SenderCc) (nowTs : Int) (feedback : List UInt8) (msg : FeedbackMsg) :
    Option SenderCc :=
  if feedback.length > kMaxFeedbackSize then some cc
  else do
    let (strm, msg) ← cc.readFeedback feedback msg
    let adapter ← onProxyPart cc.adapter nowTs msg
    some { adapter, strm }

end SenderCc

end Razor
