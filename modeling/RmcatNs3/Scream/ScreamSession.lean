import RmcatNs3.Scream.AckMarking
import RmcatNs3.Scream.AckVector
import RmcatNs3.Scream.ScreamHeader
import RmcatNs3.Scream.ScreamSender

/-!
# A session of the SCReAM applications

`screamsender.{h,cc}` with its `ScreamTx`, `screamreceiver.{h,cc}` with its `ScreamRx`, and the
network between them, which may lose, repeat and reorder what it carries. The calls of a tick of
the sender come whenever, in any order: what the queue and the rates decide is an argument. The
numbers of the encoder do not wrap around here, and a frame that the queue drops leaves a gap.
Beside the state of the source stand the numbers in the cells of the ring and what the receiver
has been given.
-/

namespace Scream

open StructMemory Runs

/-- A packet on its way to the receiver, with the number that the encoder gave it. -/
structure MediaDatagram where
  number : Nat
  bytes : List UInt8

/-- `ScreamReceiver`, with whether `m_feedbackEvent` is to come, and what the socket has not been
read of. -/
structure ScreamReceiver where
  running : Bool
  first : Bool
  feedbackEvent : Bool
  screamRx : ScreamRx
  socket : List MediaDatagram

/-- A feedback on its way to the sender, with the numbers that had arrived when it was made. -/
structure FeedbackDatagram where
  arrived : List Int
  bytes : List UInt8

/-- The packets of each direction are kept in the order in which they are sent. -/
structure ScreamSession where
  now : Nat
  senderRunning : Bool
  screamTx : ScreamTx
  nextNumber : Nat
  receiver : ScreamReceiver
  media : List MediaDatagram
  feedback : List FeedbackDatagram
  /-- The number of the packet that was last put into a cell. -/
  numberIn : Nat → Nat
  /-- What `screamRx` has been called for. -/
  calls : List RxEvent
  /-- The highest numbers of the feedbacks for which the test of a bit that the vector does not
  have came out true. -/
  overlong : List Int

namespace ScreamSession

/-- The sender has registered its stream and started. -/
def start (lossBetaBelowOne : Bool) : ScreamSession where
  now := 0
  senderRunning := true
  screamTx := { ScreamTx.new lossBetaBelowOne with streams := [.new senderSsrc] }
  nextNumber := 0
  receiver := ⟨false, true, false, .new 0, []⟩
  media := []
  feedback := []
  numberIn := fun _ => 0
  calls := []
  overlong := []

/-- Milliseconds become microseconds. -/
def time_us (s : ScreamSession) : Nat := s.now * 1000

/-- The numbers that the receiver has been given. -/
def arrived (s : ScreamSession) : List Int := received senderSsrc s.calls

/-- A call of `m_screamTx`. -/
def callTx (s : ScreamSession) (e : TxEvent) : Option ScreamSession :=
  (s.screamTx.step? e).map fun screamTx => { s with screamTx }

/-- The part of `ScreamSender::Process` that sends a packet; `flags` is what the bit fields of
`rtp` held before. -/
def transmit (s : ScreamSession) (size : Nat) (flags : BitVec 16) : Option ScreamSession :=
  let seqNr := BitVec.ofNat 16 s.nextNumber
  (s.screamTx.step? (.addTransmitted s.time_us senderSsrc size seqNr)).map fun screamTx =>
    let header := ScreamHeader.rtp ⟨flags, seqNr, BitVec.ofNat 32 s.now, senderSsrc⟩
    { s with
      screamTx
      nextNumber := s.nextNumber + 1
      media := s.media ++ [⟨s.nextNumber, header.serialize ++ List.replicate size 0⟩]
      numberIn := Function.update s.numberIn (seqNr.toNat % kMaxTxPackets) s.nextNumber }

/-- `ScreamReceiver::RecvPacket` with a packet that it has read. -/
def takeMedia (s : ScreamSession) (datagram : MediaDatagram) : Option ScreamSession := do
  let (header, payload) ← ScreamHeader.deserialize datagram.bytes
  let rtp := header.rtpPayload
  let screamRx :=
    s.receiver.screamRx.receive s.time_us rtp.ssrc payload.length rtp.seqNumber false
  return { s with
    receiver := { s.receiver with
      first := false
      feedbackEvent := s.receiver.feedbackEvent || s.receiver.first
      screamRx }
    calls := s.calls ++ [.receive s.time_us rtp.ssrc payload.length datagram.number false] }

/-- `ScreamReceiver::RecvPacket`, when a packet has come to the socket. -/
def recvMedia (s : ScreamSession) (datagram : MediaDatagram) : Option ScreamSession :=
  match s.receiver.socket ++ [datagram] with
  | [] => some s
  | next :: rest =>
      if s.receiver.running then
        { s with receiver := { s.receiver with socket := rest } }.takeMedia next
      else some { s with receiver := { s.receiver with socket := next :: rest } }

/-- `ScreamReceiver::Process`, with what the struct on the stack held before. -/
def process (s : ScreamSession) (stack : Mem) : ScreamSession :=
  if s.receiver.screamRx.isFeedback then
    let result := s.receiver.screamRx.getFeedback s.time_us
    let s' := { s with
      receiver := { s.receiver with screamRx := result.2 }
      calls := s.calls ++ [.getFeedback s.time_us] }
    match result.1 with
    | none => s'
    | some fb =>
        let header := ScreamHeader.rtcp ⟨0, BitVec.ofNat 16 sizeofFeedback⟩
        { s' with feedback := s.feedback ++
            [⟨s.arrived, header.serialize ++ fb.structBytes stack⟩] }
  else s

/-- The highest of some numbers, if there is one. -/
def top : List Int → Option Int
  | [] => none
  | first :: rest => some (highest first rest)

/-- `ScreamSender::RecvPacket`, with what the buffer on the stack held before. -/
def recvFeedback (s : ScreamSession) (datagram : FeedbackDatagram) (stack : Mem)
    (overlong : Bool) : Option ScreamSession :=
  if s.senderRunning then do
    let (_, payload) ← ScreamHeader.deserialize datagram.bytes
    let feedback := Feedback.readStruct (writeBytes stack 0 payload)
    let s ← s.callTx (.incomingFeedback
      { feedback.arguments s.time_us overlong with ssrc := senderSsrc })
    return { s with overlong := if overlong then s.overlong ++ (top datagram.arrived).toList
      else s.overlong }
  else some s

/-- What happens in a session; packets are named by their place among those of their
direction. -/
inductive Turn where
  | advance (t : Nat)
  | startReceiver
  | stopReceiver
  | stopSender
  | discard (n : Nat)
  | newMediaFrame
  | getTargetBitrate
  | isOkToTransmit (slow : Bool) (prioritized : Option Nat)
  | transmit (size : Nat) (flags : BitVec 16)
  | process (stack : Mem)
  | media (i : Nat)
  | feedback (i : Nat) (stack : Mem) (overlong : Bool)

def turn (s : ScreamSession) : Turn → Option ScreamSession
  | .advance t => if s.now ≤ t then some { s with now := t } else none
  | .startReceiver => some { s with receiver := { s.receiver with running := true } }
  | .stopReceiver =>
      some { s with receiver := { s.receiver with running := false, feedbackEvent := false } }
  | .stopSender => some { s with senderRunning := false }
  | .discard n => some { s with nextNumber := s.nextNumber + n }
  | .newMediaFrame => s.callTx (.newMediaFrame s.time_us senderSsrc)
  | .getTargetBitrate => s.callTx (.getTargetBitrate senderSsrc)
  | .isOkToTransmit slow prioritized => s.callTx (.isOkToTransmit s.time_us slow prioritized)
  | .transmit size flags => s.transmit size flags
  | .process stack => if s.receiver.feedbackEvent then some (s.process stack) else none
  | .media i => s.media[i]?.bind s.recvMedia
  | .feedback i stack overlong => s.feedback[i]?.bind (s.recvFeedback · stack overlong)

def Step (s : ScreamSession) (e : Turn) (s' : ScreamSession) : Prop := s.turn e = some s'

/-- Nothing is too old: the packet that is read is within reach of the highest one, and when a
feedback arrives, the encoder has not gone half of the range beyond its highest number, or beyond
a packet that is in flight. -/
def Timely (s : ScreamSession) : Turn → Prop
  | .media i => ∀ d h, (s.receiver.socket ++ s.media[i]?.toList).head? = some d →
      top s.arrived = some h → InWindow h d.number
  | .feedback i _ _ => ∀ d h, s.feedback[i]? = some d → top d.arrived = some h →
      s.nextNumber ≤ h + 2 ^ 15 ∧ ∀ ring ∈ s.screamTx.rings, ∀ n, (ring n).isUsed = true →
        s.nextNumber ≤ s.numberIn n + 2 ^ 15
  | _ => True

end ScreamSession

end Scream
