import RmcatNs3.Rmcat.HistoryRuns
import RmcatNs3.Rmcat.NadaLimits
import RmcatNs3.Rmcat.RmcatReceiver
import RmcatNs3.Rmcat.RmcatSender

/-!
# A session of the rmcat applications

An rmcat sender with its NADA controller, a receiver, and the network between them, which may
lose, repeat and reorder what it carries. The codec yields a packet at any time, and
`SendPacket` comes at any time while the shaping buffer holds one, as its timer does; the rates
that `CalcBufferParams` computes are left out. What the controller has been told and what has
been answered stand beside the state of the source.
-/

namespace Rmcat

open SerialNumber Runs

/-- Where a session stops. -/
inductive SessionFailure where
  | sender (e : AppFailure)
  | receiver (e : AppFailure)
  | receivedLater
  | packetSize
  | emptyBuffer
  | largeBuffer
  | bufferBytes
  | controller (e : Abort)
  deriving DecidableEq, Repr

/-- The packets of each direction are kept in the order in which they are sent. -/
structure RmcatSession (F : Type) where
  now : Nat
  flowId : BitVec 32
  host : InetSocketAddress
  sequence : BitVec 32
  controller : NadaController F
  rateShapingBuf : List (BitVec 32)
  rateShapingBytes : BitVec 32
  oversleeping : List (BitVec 32 × BitVec 32)
  receiver : RmcatReceiver
  socket : List (List UInt8)
  media : List (List UInt8)
  feedback : List (InetSocketAddress × List UInt8)
  delays : List (BitVec 64)
  /-- What `processSendPacket` has been told. -/
  sent : List Sent
  /-- The feedback before it has been delivered, or is lost. -/
  heard : Nat

/-- The milliseconds that a time of 64 bits in nanoseconds counts. -/
def maxMilliSeconds : Nat := 2 ^ 63 / 10 ^ 6

namespace RmcatSession

variable {F : Type} [FloatOps F]

/-- The sender has started with a fresh controller; `bandwidths` sets its limits. -/
def start (flowId : BitVec 32) (host : InetSocketAddress) (minBw initBw maxBw : F) :
    RmcatSession F where
  now := 0
  flowId := flowId
  host := host
  sequence := 0
  controller := NadaController.new.withLimits minBw initBw maxBw
  rateShapingBuf := []
  rateShapingBytes := 0
  oversleeping := []
  receiver := .setup
  socket := []
  media := []
  feedback := []
  delays := []
  sent := []
  heard := 0

def nowMs (s : RmcatSession F) : BitVec 64 := BitVec.ofNat 64 s.now

/-- `EnqueuePacket` of the sender, when the codec yields a packet. -/
def enqueuePacket (s : RmcatSession F) (bytesToSend : BitVec 32) :
    Except SessionFailure (RmcatSession F) :=
  if 0 < bytesToSend.toNat ∧ bytesToSend.toNat ≤ defaultPacketSize then
    .ok { s with
      rateShapingBuf := s.rateShapingBuf ++ [bytesToSend]
      rateShapingBytes := s.rateShapingBytes + bytesToSend }
  else .error .packetSize

/-- What `SendPacket` of the sender does with a packet that it has taken out of the buffer. -/
def handOver (s : RmcatSession F) (bytesToSend : BitVec 32) :
    Except SessionFailure (RmcatSession F) :=
  match s.controller.processSendPacket s.nowMs s.sequence bytesToSend with
  | .error e => .error (.controller e)
  | .ok (_, controller) => .ok { s with
      oversleeping := s.oversleeping ++ [(s.sequence, bytesToSend)]
      controller
      sequence := s.sequence + 1
      sent := s.sent ++ [⟨s.nowMs, bytesToSend⟩] }

/-- `SendPacket` of the sender. -/
def sendPacket (s : RmcatSession F) : Except SessionFailure (RmcatSession F) :=
  match s.rateShapingBuf with
  | [] => .error .emptyBuffer
  | bytesToSend :: rateShapingBuf =>
      if maxQueueSizeSanity ≤ s.rateShapingBytes.toNat then .error .largeBuffer
      else if ¬(0 < bytesToSend.toNat ∧ bytesToSend.toNat ≤ defaultPacketSize) then
        .error .packetSize
      else if s.rateShapingBytes < bytesToSend then .error .bufferBytes
      else { s with
        rateShapingBuf
        rateShapingBytes := s.rateShapingBytes - bytesToSend }.handOver bytesToSend

/-- `SendOverSleep` of the sender, for a packet whose timer has run out. -/
def sendOverSleep (s : RmcatSession F) (i : Nat) : RmcatSession F :=
  match s.oversleeping[i]? with
  | none => s
  | some (seq, bytesToSend) => { s with
      oversleeping := s.oversleeping.eraseIdx i
      media := s.media ++ [(MediaHeader.mk s.flowId seq s.nowMs bytesToSend).serialize ++
        List.replicate bytesToSend.toNat 0] }

/-- `RecvPacket` of the receiver. -/
def recvMedia (s : RmcatSession F) : Except SessionFailure (RmcatSession F) :=
  if ¬s.receiver.running then .ok s
  else
    match s.socket with
    | [] => .error (.receiver .emptySocket)
    | packet :: socket =>
        match s.receiver.takePacket s.nowMs s.host packet with
        | .error e => .error (.receiver e)
        | .ok (receiver, answer, addr, gap) => .ok { s with
            receiver, socket
            feedback := s.feedback ++ [(addr, answer)]
            delays := s.delays ++ [gap] }

/-- `RecvPacket` of the sender. -/
def recvFeedback (s : RmcatSession F) (packet : List UInt8) :
    Except SessionFailure (RmcatSession F) :=
  match FeedbackHeader.deserialize packet with
  | .error e => .error (.sender e)
  | .ok (header, _) =>
      if header.flowId ≠ s.flowId then .error (.sender .otherFlow)
      else if s.nowMs < header.receiveTstmp then .error .receivedLater
      else
        match s.controller.processFeedback s.nowMs header.sequence header.receiveTstmp 0 with
        | .error e => .error (.controller e)
        | .ok (_, controller) => .ok { s with controller }

/-- What happens in a session; packets are named by their place among those of their
direction. -/
inductive Turn where
  | advance (t : Nat)
  | startReceiver
  | stopReceiver
  | enqueuePacket (bytesToSend : BitVec 32)
  | sendPacket
  | sendOverSleep (i : Nat)
  | media (i : Nat)
  | feedback (i : Nat)

/-- What can happen: the clock does not go back, the codec keeps to its packet size, the timer
of `SendPacket` runs while there is something to send, and the network carries what has been
sent to the address of its receiver. -/
def Enabled (s : RmcatSession F) : Turn → Prop
  | .advance t => s.now ≤ t ∧ t < maxMilliSeconds
  | .startReceiver | .stopReceiver => True
  | .enqueuePacket bytesToSend =>
      0 < bytesToSend.toNat ∧ bytesToSend.toNat ≤ defaultPacketSize
  | .sendPacket => s.rateShapingBuf ≠ []
  | .sendOverSleep i => i < s.oversleeping.length
  | .media i => i < s.media.length
  | .feedback i => s.feedback[i]?.map (·.1) = some s.host

instance (s : RmcatSession F) (e : Turn) : Decidable (s.Enabled e) :=
  match e with
  | .advance _ | .enqueuePacket _ => inferInstanceAs (Decidable (_ ∧ _))
  | .sendPacket => inferInstanceAs (Decidable (_ ≠ _))
  | .startReceiver | .stopReceiver => inferInstanceAs (Decidable True)
  | .sendOverSleep _ | .media _ => inferInstanceAs (Decidable (_ < _))
  | .feedback _ => inferInstanceAs (Decidable (_ = _))

def turn (s : RmcatSession F) : Turn → Except SessionFailure (RmcatSession F)
  | .advance t => .ok { s with now := t }
  | .startReceiver => .ok { s with receiver := s.receiver.startApplication }
  | .stopReceiver => .ok { s with receiver := s.receiver.stopApplication }
  | .enqueuePacket bytesToSend => s.enqueuePacket bytesToSend
  | .sendPacket => s.sendPacket
  | .sendOverSleep i => .ok (s.sendOverSleep i)
  | .media i => { s with socket := s.socket ++ s.media[i]?.toList }.recvMedia
  | .feedback i =>
      match s.feedback[i]? with
      | none => .ok s
      | some (_, packet) => { s with heard := i + 1 }.recvFeedback packet

/-- A turn that does not fail. -/
def Step (s : RmcatSession F) (e : Turn) (s' : RmcatSession F) : Prop :=
  s.Enabled e ∧ s.turn e = .ok s'

end RmcatSession

end Rmcat
