import Mathlib.Algebra.Ring.Nat
import RmcatNs3.Lib.Runs
import RmcatNs3.Multipath.MpSender

/-!
# The pacing of one path

`AddPacePacket`, `IncreaseBudget`, `UseBudget` and `PaceCallback` of
`multipathvideo/model/path.cc` with the loop of `MpSender::OnBwProbe`, as one path sees
them: with `m_total`, and with what the path hands to the sender in place of the sender.
A path also keeps a record here, which the source does not: what its budget was granted
and charged, what was queued on it and what it has put on the wire.
-/

namespace Multipath

open Razor Runs

/-- What a path puts on the wire: a packet of its queue, or a piece of a probe. -/
inductive Wire where
  | media (ele : PacePacket) (transportSeq : BitVec 16)
  | probe (dataSize : BitVec 16) (transportSeq : BitVec 16)
  deriving DecidableEq, Repr

namespace Wire

def transportSeq : Wire → BitVec 16
  | media _ seq => seq
  | probe _ seq => seq

/-- The packet of the queue, if it is one. -/
def media? : Wire → Option PacePacket
  | media ele _ => some ele
  | probe _ _ => none

/-- The bytes with the headers. -/
def bytes : Wire → Nat
  | media ele _ => ele.len.toNat
  | probe dataSize _ => dataSize.toNat + headerLen.toNat

end Wire

/-- A path with `m_total`, and with the record of its pacing. -/
structure PacedPath extends Path where
  total : BitVec 64
  granted : Nat
  charged : Nat
  queued : List PacePacket
  wire : List Wire

/-- The path before anything is queued on it. -/
def Path.unpaced (p : Path) : PacedPath where
  toPath := p
  total := 0
  granted := 0
  charged := 0
  queued := []
  wire := []

namespace PacedPath

/-- `Path::AddPacePacket`. -/
def addPacePacket (p : PacedPath) (packetId : BitVec 32) (retrans : BitVec 8)
    (size : BitVec 32) (now : Nat) : PacedPath :=
  { p with
    toPath := p.toPath.addPacePacket packetId retrans size now
    total := p.total + size.setWidth 64
    queued := p.queued ++ [⟨packetId, retrans, size, now⟩] }

/-- `Path::IncreaseBudget`, which grants `1.25 * m_minRate * delta_ts / 8000` bytes. -/
def increaseBudget (p : PacedPath) (deltaTs : BitVec 32) : PacedPath :=
  { p with
    toPath := p.toPath.increaseBudget deltaTs
    granted := p.granted + 5 * p.minRate.toNat * deltaTs.toNat / (4 * 1000 * 8) }

/-- `Path::UseBudget`. -/
def useBudget (p : PacedPath) (bytes : BitVec 32) : PacedPath :=
  { p with toPath := p.toPath.useBudget bytes, charged := p.charged + bytes.toNat }

/-- A packet is handed to `OnPacePacket`. -/
def sendMedia (p : PacedPath) (ele : PacePacket) : PacedPath :=
  { p.useBudget ele.len with
    total := p.total - ele.len.setWidth 64
    wire := p.wire ++ [.media ele p.transSeq]
    transSeq := p.transSeq + 1 }

/-- The loop of `PaceCallback`, over the packets of the queue. -/
def paceLoop : PacedPath → List PacePacket → PacedPath
  | p, [] => { p with paceQueue := [] }
  | p, ele :: rest =>
      if p.byteRemaining.slt 0 then { p with paceQueue := ele :: rest }
      else paceLoop (p.sendMedia ele) rest

/-- The loop of `OnBwProbe`: pieces no larger than their headers are not sent. -/
def probeLoop : PacedPath → List (BitVec 16) → PacedPath
  | p, [] => p
  | p, split :: rest =>
      if headerLen.toNat < split.toNat then
        probeLoop { p with
          wire := p.wire ++ [.probe (split - headerLen.setWidth 16) p.transSeq]
          transSeq := p.transSeq + 1 } rest
      else probeLoop p rest

/-- The part of `PaceCallback` behind the loop. The split of a probe asserts that it is
not too large. -/
def probe (p : PacedPath) : Option PacedPath :=
  if p.paceQueue = [] ∧ (0 : BitVec 32).slt p.byteRemaining then
    match MpSender.frameSplit p.byteRemaining.toNat with
    | none => none
    | some splits =>
        let p := p.probeLoop splits
        some (p.useBudget p.byteRemaining)
  else some p

/-- `Path::PaceCallback`, but for the timer that it starts again. -/
def paceCallback (p : PacedPath) (now : Nat) (expired : Bool) : Option PacedPath :=
  let p := p.increaseBudget (BitVec.ofNat 32 now - BitVec.ofNat 32 p.lastUpdate)
  if expired then
    match (p.paceLoop p.paceQueue).probe with
    | none => none
    | some p => some { p with lastUpdate := now }
  else some p

/-! ## Runs -/

/-- What a path meets, each at some time. -/
inductive PaceInput where
  | addPacePacket (packetId : BitVec 32) (retrans : BitVec 8) (size : BitVec 32)
  | paceCallback

/-- The simulator runs a callback when its timer expires. -/
def step? (p : PacedPath) (e : Nat × PaceInput) : Option PacedPath :=
  match e.2 with
  | .addPacePacket packetId retrans size => some (p.addPacePacket packetId retrans size e.1)
  | .paceCallback => p.paceCallback e.1 true

def Step (p : PacedPath) (e : Nat × PaceInput) (p' : PacedPath) : Prop :=
  step? p e = some p'

/-- The bytes in the queue. -/
def queuedBytes (p : PacedPath) : Nat := (p.paceQueue.map fun ele => ele.len.toNat).sum

end PacedPath

end Multipath
