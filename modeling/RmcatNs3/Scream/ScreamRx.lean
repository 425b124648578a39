import Mathlib.Data.BitVec
import RmcatNs3.Lib.MachineInt

/-!
# The receiver of SCReAM

`ScreamRx` keeps one `Stream` for every source and hands out, as feedback, the
highest sequence number of a stream and a vector of the packets received before
it. The computation of the feedback interval is left out: nothing here reads it.
-/

namespace Scream

open MachineInt

def kAckVectorBits : Nat := 64

/-- `ULLONG_MAX` -/
def ullongMax : Nat := 2 ^ 64 - 1

structure Stream where
  ssrc : BitVec 32
  highestSeqNr : BitVec 16
  highestSeqNrTx : BitVec 16
  receiveTimestamp : Nat
  ackVector : BitVec 64
  ecnCeMarkedBytes : Nat
  lastFeedbackT_us : Nat
  nRtpSinceLastRtcp : Nat
  firstReceived : Bool
  ix : Nat

namespace Stream

/-- `Stream::Stream`; `ix` is set by the owner. -/
def new (ssrc : BitVec 32) (ix : Nat) : Stream where
  ssrc := ssrc
  highestSeqNr := 0
  highestSeqNrTx := 0
  receiveTimestamp := 0
  ackVector := 0
  ecnCeMarkedBytes := 0
  lastFeedbackT_us := 0
  nRtpSinceLastRtcp := 0
  firstReceived := false
  ix := ix

def isMatch (s : Stream) (ssrc : BitVec 32) : Bool := s.ssrc == ssrc

/-- `seqNrExt` -/
def seqNrExt (seqNr highestSeqNr : BitVec 16) : Nat :=
  if seqNr < highestSeqNr ∧ highestSeqNr.toNat - seqNr.toNat > 16384 then
    seqNr.toNat + 65536
  else seqNr.toNat

/-- `highestSeqNrExt` -/
def highestSeqNrExt (seqNr highestSeqNr : BitVec 16) : Nat :=
  if highestSeqNr < seqNr ∧ seqNr.toNat - highestSeqNr.toNat > 16384 then
    highestSeqNr.toNat + 65536
  else highestSeqNr.toNat

/-- The highest sequence number and the ACK vector after a packet. -/
def update (highestSeqNr seqNr : BitVec 16) (ackVector : BitVec 64) :
    BitVec 16 × BitVec 64 :=
  let seqExt := seqNrExt seqNr highestSeqNr
  let highestExt := highestSeqNrExt seqNr highestSeqNr
  if seqExt ≥ highestExt then
    let diff := toUnsigned 16 (seqExt - highestExt)
    (seqNr,
      if diff = 0 then ackVector
      else if diff ≥ kAckVectorBits then 0
      else ackVector <<< diff ||| 1#64 <<< (diff - 1))
  else
    let diff := toUnsigned 16 (highestExt - seqExt)
    (highestSeqNr,
      if diff < kAckVectorBits then ackVector ||| 1#64 <<< (diff - 1) else ackVector)

def receive (s : Stream) (time_us : Nat) (size : Int) (seqNr : BitVec 16) (isEcnCe : Bool) :
    Stream :=
  let highestSeqNr := if s.firstReceived then s.highestSeqNr else seqNr - 1
  let updated := update highestSeqNr seqNr s.ackVector
  { s with
    nRtpSinceLastRtcp := s.nRtpSinceLastRtcp + 1
    firstReceived := true
    highestSeqNr := updated.1
    ackVector := updated.2
    receiveTimestamp := toUnsigned 32 (time_us / 1000 : Nat)
    ecnCeMarkedBytes :=
      if isEcnCe then toUnsigned 16 (s.ecnCeMarkedBytes + size) else s.ecnCeMarkedBytes }

end Stream

structure ScreamRx where
  ssrc : BitVec 32
  lastFeedbackT_us : Nat
  ix : Nat
  streams : List Stream

/-- What `getFeedback` returns. -/
structure Feedback where
  ssrc : BitVec 32
  receiveTimestamp : Nat
  highestSeqNr : BitVec 16
  ackVector : BitVec 64
  ecnCeMarkedBytes : Nat

namespace ScreamRx

def new (ssrc : BitVec 32) : ScreamRx where
  ssrc := ssrc
  lastFeedbackT_us := 0
  ix := 0
  streams := []

/-- The loop of `receive`: `none` if no stream matches. -/
def receiveLoop (ssrc : BitVec 32) (f : Stream → Stream) : List Stream → Option (List Stream)
  | [] => none
  | stream :: rest =>
      if stream.isMatch ssrc then some (f stream :: rest)
      else (receiveLoop ssrc f rest).map (stream :: ·)

def receive (s : ScreamRx) (time_us : Nat) (ssrc : BitVec 32) (size : Int) (seqNr : BitVec 16)
    (isEcnCe : Bool) : ScreamRx :=
  match receiveLoop ssrc (fun stream => stream.receive time_us size seqNr isEcnCe) s.streams with
  | some streams => { s with streams := streams }
  | none =>
      let stream := (Stream.new ssrc s.ix).receive time_us size seqNr isEcnCe
      { s with ix := s.ix + 1, streams := s.streams ++ [stream] }

/-- The loop of `getFeedback`: the position of the stream that waits longest. -/
def feedbackLoop : List Stream → Nat → Nat → Option Nat → Option Nat
  | [], _, _, stream => stream
  | candidate :: rest, i, minT_us, stream =>
      if candidate.nRtpSinceLastRtcp > 0 ∧ candidate.lastFeedbackT_us < minT_us then
        feedbackLoop rest (i + 1) candidate.lastFeedbackT_us (some i)
      else feedbackLoop rest (i + 1) minT_us stream

def getFeedback (s : ScreamRx) (time_us : Nat) : Option Feedback × ScreamRx :=
  match feedbackLoop s.streams 0 ullongMax none with
  | none => (none, s)
  | some i =>
      (s.streams[i]?.map fun stream =>
          { ssrc := stream.ssrc
            receiveTimestamp := stream.receiveTimestamp
            highestSeqNr := stream.highestSeqNr
            ackVector := stream.ackVector
            ecnCeMarkedBytes := stream.ecnCeMarkedBytes },
        { s with
          lastFeedbackT_us := time_us
          streams := s.streams.modify i fun stream =>
            { stream with
              highestSeqNrTx := stream.highestSeqNr
              lastFeedbackT_us := time_us
              nRtpSinceLastRtcp := 0 } })

end ScreamRx

end Scream
