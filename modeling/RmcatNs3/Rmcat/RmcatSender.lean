import RmcatNs3.Lib.EventQueue
import RmcatNs3.Lib.MachineInt
import RmcatNs3.Lib.Runs

/-!
# The rmcat sender

`nada/ns3-rmcat/model/apps/rmcat-sender.{h,cc}`, with `USE_BUFFER` set. The codec, the
controller and the socket are not part of this model: the packet that the codec yields and
the rates that come with a feedback are arguments of the event in which this happens, and
what the controller is passed is kept. The time that a packet takes at a rate, a product of
`double`s, is a parameter. An assertion that fails gives `none`.
-/

namespace Rmcat

open MachineInt

def defaultPacketSize : Nat := 1000
def maxQueueSizeSanity : Nat := 80 * 1000 * 1000

inductive RmcatEvent where
  | enqueuePacket
  | sendPacket (msSlept : Nat)
  | sendOverSleep (seq bytesToSend : BitVec 32)
  deriving DecidableEq

/-- `SendPacket`, with any argument. -/
def RmcatEvent.IsSend : RmcatEvent → Prop
  | .sendPacket _ => True
  | .enqueuePacket | .sendOverSleep _ _ => False

/-- A call of `processSendPacket`. -/
structure ProcessedPacket where
  txTimestamp : Nat
  sequence : BitVec 32
  size : BitVec 32
  deriving DecidableEq

/-- `R` stands for the rates. -/
structure RmcatSender (R : Type) where
  initBw : R
  paused : Bool
  sequence : BitVec 32
  enqueueEvent : EventId
  sendEvent : EventId
  sendOversleepEvent : EventId
  rVin : R
  rSend : R
  rateShapingBuf : List (BitVec 32)
  rateShapingBytes : BitVec 32
  nextSendTstmp : Nat
  queue : EventQueue RmcatEvent
  /-- Whether `StartApplication` has run, and the calls of the controller; the source has
  no such fields. -/
  started : Bool
  processed : List ProcessedPacket

namespace RmcatSender

variable {R : Type}

/-- `RmcatSender::RmcatSender`, and `SetRinit`. -/
def new (zero initBw : R) : RmcatSender R where
  initBw := initBw
  paused := false
  sequence := 0
  enqueueEvent := none
  sendEvent := none
  sendOversleepEvent := none
  rVin := zero
  rSend := zero
  rateShapingBuf := []
  rateShapingBytes := 0
  nextSendTstmp := 0
  queue := .empty
  started := false
  processed := []

def nowMs (s : RmcatSender R) : Nat := getMilliSeconds s.queue.now

/-- `StartApplication`, whose limits are in order. -/
def startApplication (s : RmcatSender R) : RmcatSender R :=
  { s with
    sequence := 0
    rVin := s.initBw
    rSend := s.initBw
    enqueueEvent := s.queue.nextId
    queue := s.queue.schedule 0 .enqueuePacket
    nextSendTstmp := 0
    started := true }

/-- What `StopApplication` does, and `PauseResume` on a pause. -/
def clearBuffer (s : RmcatSender R) : RmcatSender R :=
  { s with
    queue :=
      ((s.queue.cancel s.enqueueEvent).cancel s.sendEvent).cancel s.sendOversleepEvent
    rateShapingBuf := []
    rateShapingBytes := 0 }

/-- `StopApplication`. -/
def stopApplication (s : RmcatSender R) : RmcatSender R := s.clearBuffer

/-- `PauseResume`. -/
def pauseResume (s : RmcatSender R) (pause : Bool) : Option (RmcatSender R) :=
  if pause ≠ s.paused then
    let s :=
      if pause then s.clearBuffer
      else { s with
        rVin := s.initBw
        rSend := s.initBw
        enqueueEvent := s.queue.nextId
        queue := s.queue.schedule 0 .enqueuePacket
        nextSendTstmp := 0 }
    some { s with paused := pause }
  else none

/-- The end of `EnqueuePacket`: the send timer starts if the buffer was empty. -/
def startSendTimer (s : RmcatSender R) : RmcatSender R :=
  if s.rateShapingBuf.length = 1 then
    let now := s.nowMs
    let msToNextSentPacket := if now < s.nextSendTstmp then s.nextSendTstmp - now else 0
    { s with
      sendEvent := s.queue.nextId
      queue :=
        s.queue.schedule (milliSeconds msToNextSentPacket) (.sendPacket msToNextSentPacket) }
  else s

/-- `EnqueuePacket`, when the codec yields a packet of `bytesToSend` and the time to the next
one in nanoseconds. -/
def enqueuePacket (s : RmcatSender R) (bytesToSend tNext : Nat) : Option (RmcatSender R) :=
  if 0 < bytesToSend ∧ bytesToSend ≤ defaultPacketSize then
    some { s with
      rateShapingBuf := s.rateShapingBuf ++ [BitVec.ofNat 32 bytesToSend]
      rateShapingBytes := s.rateShapingBytes + BitVec.ofNat 32 bytesToSend
      enqueueEvent := s.queue.nextId
      queue := s.queue.schedule tNext .enqueuePacket : RmcatSender R }.startSendTimer
  else none

/-- The end of `SendPacket`: the timer starts again if there are packets left. -/
def scheduleNext (s : RmcatSender R) (msToNextSentPacket : Nat) : RmcatSender R :=
  if s.rateShapingBuf.length = 0 then
    { s with nextSendTstmp := toUnsigned 64 (s.nowMs + msToNextSentPacket) }
  else
    { s with
      sendEvent := s.queue.nextId
      queue :=
        s.queue.schedule (milliSeconds msToNextSentPacket) (.sendPacket msToNextSentPacket) }

/-- `SendPacket`; `ms` is the time that some bytes take at a rate, `rand` a random number. -/
def sendPacket (ms : BitVec 32 → R → Nat) (s : RmcatSender R) (msSlept rand : Nat) :
    Option (RmcatSender R) :=
  match s.rateShapingBuf with
  | [] => none
  | bytesToSend :: rateShapingBuf =>
      if s.rateShapingBytes.toNat < maxQueueSizeSanity ∧ 0 < bytesToSend.toNat ∧
          bytesToSend.toNat ≤ defaultPacketSize ∧ bytesToSend ≤ s.rateShapingBytes then
        let oversleepMs := toUnsigned 64 (msSlept * (rand % 100) : Nat) / 10000
        some ({ s with
          rateShapingBuf
          rateShapingBytes := s.rateShapingBytes - bytesToSend
          sendOversleepEvent := s.queue.nextId
          queue := s.queue.schedule (milliSeconds oversleepMs)
            (.sendOverSleep s.sequence bytesToSend)
          processed := s.processed ++ [⟨s.nowMs, s.sequence, bytesToSend⟩]
          sequence := s.sequence + 1 : RmcatSender R }.scheduleNext (ms bytesToSend s.rSend))
      else none

/-- `RecvPacket`, with the rates that `CalcBufferParams` computes. -/
def recvPacket (s : RmcatSender R) (rVin rSend : R) : RmcatSender R := { s with rVin, rSend }

/-! ## Events -/

/-- What happens to a sender. The numbers are those that the codec and `rand` yield in the
event that runs. -/
inductive RmcatInput (R : Type) where
  | startApplication
  | pauseResume (pause : Bool)
  | stopApplication
  | recvPacket (rVin rSend : R)
  | advance (t : Nat)
  | runEvent (bytesToSend tNext rand : Nat)

/-- An event of the queue runs; `SendOverSleep` hands the packet to the socket. -/
def fire (ms : BitVec 32 → R → Nat) (s : RmcatSender R) (bytesToSend tNext rand : Nat) :
    RmcatEvent → Option (RmcatSender R)
  | .enqueuePacket => s.enqueuePacket bytesToSend tNext
  | .sendPacket msSlept => s.sendPacket ms msSlept rand
  | .sendOverSleep _ _ => some s

/-- One input. The application starts once, and what else happens comes after that. -/
def step (ms : BitVec 32 → R → Nat) (s : RmcatSender R) :
    RmcatInput R → Option (RmcatSender R)
  | .startApplication => if s.started then none else some s.startApplication
  | .pauseResume pause => if s.started then s.pauseResume pause else none
  | .stopApplication => if s.started then some s.stopApplication else none
  | .recvPacket rVin rSend => if s.started then some (s.recvPacket rVin rSend) else none
  | .advance t => do
      let queue ← s.queue.advance? t
      some { s with queue }
  | .runEvent bytesToSend tNext rand => do
      let (e, queue) ← s.queue.pop
      { s with queue }.fire ms bytesToSend tNext rand e.action

end RmcatSender

end Rmcat
