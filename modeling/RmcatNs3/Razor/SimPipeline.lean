import RmcatNs3.Lib.Runs
import RmcatNs3.Razor.FrameSegments
import RmcatNs3.Razor.PaceSender

/-!
# The sender of video and its pacer

`SimSender` keeps the segments it has made in `m_cache` and their packet ids in the
pacer, which calls `PacePacketSend` when it is time for one. The callback touches
nothing of the pacer, so the calls that `pace_try_transmit` records are answered behind
it, in their order. What the callback tells the congestion controller (`on_send`,
`m_sentSeqCb`) is left out.
-/

namespace Razor

namespace SimSender

/-- The segments that a call of `PutFakeData` makes. -/
def madeSegments (snd : SimSender) (ftype : BitVec 8) (size : BitVec 32) (nowMs : Nat) :
    List Segment :=
  let splits := frameSplit snd.segmentSize.toNat size.toNat
  let timestamp :=
    if snd.firstTs = -1 then 0 else BitVec.ofNat 32 nowMs - snd.firstTs.setWidth 32
  let fields : FrameFields :=
    { fid := snd.frameId, timestamp, total := splits.length, ftype, remb := snd.remb }
  fields.segments snd.packetId 0 splits

/-- `SimSender::PacePacketSend` with `m_sendPacket` set; the result is the segment and
the payload of the packet that it is called with. -/
def pacePacketSend (snd : SimSender) (nowMs : Nat) (packetId : BitVec 32) :
    SimSender × Option (Segment × Nat) :=
  match snd.cache.lookup packetId.toNat with
  | none => (snd, none)
  | some segment =>
      let sendTs := BitVec.ofNat 16 nowMs - snd.firstTs.setWidth 16
        - segment.timestamp.setWidth 16
      let transportSeq := snd.transportSeq + 1
      let segment := { segment with sendTs, transportSeq }
      ({ snd with transportSeq, cache := snd.cache.erase packetId.toNat },
        some (segment, segment.dataSize.toNat))

end SimSender

/-- The callback of an endpoint's sender is this one, with `SimEndpoint::Send` behind
it. -/
theorem SimEndpoint.pacePacketSend_eq {s : SimEndpoint} {obj : Nat} {snd : SimSender}
    (h : s.sender = some (obj, snd)) (packetId : BitVec 32) :
    s.pacePacketSend packetId =
      match snd.pacePacketSend s.nowMs packetId with
      | (_, none) => s
      | (snd', some (segment, payload)) =>
          { s with sender := some (obj, snd') }.send (.seg segment) payload := by
  unfold SimEndpoint.pacePacketSend SimSender.pacePacketSend
  rw [h]
  simp only
  cases hlookup : snd.cache.lookup packetId.toNat with
  | none => rfl
  | some segment => rfl

/-- The calls of `add_packet` in the loop of `PutFakeData`, each with the address that
`calloc` returns. -/
def PaceSender.AddPackets (nowTs : Int) : PaceSender → List Segment → PaceSender → Prop
  | pace, [], pace' => pace' = pace
  | pace, seg :: rest, pace' => ∃ a, pace.que.packets a = none ∧
      AddPackets nowTs (pace.insertPacket a seg.packetId.toFin 0
        (seg.dataSize.toNat + headerLen.toNat) nowTs).2 rest pace'

/-- A sender and its pacer, with a clock. -/
structure SimPipeline where
  snd : SimSender
  pace : PaceSender
  now : Nat
  /-- The sizes of the frames that were put in, and their segments, oldest first. -/
  frames : List (Nat × List Segment)
  /-- What `m_sendPacket` was called with, oldest first. -/
  sent : List (Segment × Nat)

namespace SimPipeline

/-- The segments of all frames. -/
def made (c : SimPipeline) : List Segment := c.frames.flatMap (·.2)

/-- The sequence numbers of the packets that wait in the pacer. -/
def unsentSeqs (c : SimPipeline) : List PacketSeq :=
  c.pace.que.l.filterMap fun a =>
    (c.pace.que.packets a).bind fun ev => if ev.sent then none else some ev.seq

/-- The answer to a call of `send_cb`. -/
def answer (nowMs : Nat) (t : SimSender × List (Segment × Nat)) (call : SendCall) :
    SimSender × List (Segment × Nat) :=
  let (snd, out) := t.1.pacePacketSend nowMs (BitVec.ofFin call.packetId)
  (snd, t.2 ++ out.toList)

inductive Op where
  | putFakeData (ftype : BitVec 8) (size : BitVec 32) (nowMs : Nat)
  | heartbeat (nowMs : Nat)
  | setEstimateBitrate (bitrateBps : Nat)
  | setBitrateLimits (minSentBitrate : Nat)

def create (segmentSize : BitVec 32) (queMs sysMs : Nat) : SimPipeline where
  snd := .new segmentSize
  pace := .create true queMs sysMs
  now := sysMs
  frames := []
  sent := []

/-- One call. The clock does not go back, and the sending loop of the pacer gets the
turns it needs. -/
def Step (c : SimPipeline) : Op → SimPipeline → Prop
  | .putFakeData ftype size nowMs, c' => c.now ≤ nowMs ∧ ∃ snd pace,
      c.snd.putFakeData ftype size nowMs = some snd ∧
      c.pace.AddPackets nowMs (c.snd.madeSegments ftype size nowMs) pace ∧
      c' = { c with
        snd, pace, now := nowMs
        frames := c.frames ++ [(size.toNat, c.snd.madeSegments ftype size nowMs)] }
  | .heartbeat nowMs, c' => c.now ≤ nowMs ∧ ∃ bound pace,
      (∀ fuel, bound ≤ fuel → c.pace.tryTransmit fuel nowMs nowMs = some pace) ∧
      let t := (pace.sendLog.drop c.pace.sendLog.length).foldl (answer nowMs) (c.snd, c.sent)
      c' = { c with snd := t.1, pace, now := nowMs, sent := t.2 }
  | .setEstimateBitrate bitrateBps, c' =>
      c' = { c with pace := c.pace.setEstimateBitrate bitrateBps }
  | .setBitrateLimits minSentBitrate, c' =>
      c' = { c with pace := c.pace.setBitrateLimits minSentBitrate }

/-- A segment as it was made: `PacePacketSend` fills in two of its fields. -/
def asMade (segment : Segment) : Segment := { segment with sendTs := 0, transportSeq := 0 }

/-- What holds of a sender and its pacer between two calls. -/
structure Coupled (c : SimPipeline) : Prop where
  /-- The keys of `m_cache` are the sequence numbers of the unsent packets. -/
  keys : (c.snd.cache.toList.map (·.1)).Perm (c.unsentSeqs.map (·.val))
  /-- Every segment that was made has been handed over as it is, once, or waits in
  `m_cache`. -/
  once : c.made.Perm (c.sent.map (fun b => asMade b.1) ++ c.snd.cache.toList.map (·.2))
  payload : ∀ b ∈ c.sent, b.2 = b.1.dataSize.toNat
  transportSeq : c.sent.map (·.1.transportSeq) =
    (List.range c.sent.length).map fun n => BitVec.ofNat 16 (n + 1)
  isFrame : ∀ frame ∈ c.frames, ∃ packetId, IsFrame packetId frame.1 frame.2
  distinct : ∀ i f g, c.frames[i]? = some f → c.frames[i + 1]? = some g →
    ∀ seg ∈ f.2, ∀ seg' ∈ g.2, seg.fid ≠ seg'.fid

/-- At most `2 ^ 32` segments, the new ones included, from the oldest unsent one on,
sent or not. -/
def Fits (c : SimPipeline) : Op → Prop
  | .putFakeData ftype size nowMs =>
      c.pace.que.l.length + (c.snd.madeSegments ftype size nowMs).length ≤ 2 ^ 32
  | _ => True

/-- Fewer than `2 ^ 32` segments have been made and not handed over. -/
def FewUnsent (c : SimPipeline) : Prop := c.made.length < c.sent.length + 2 ^ 32

end SimPipeline

end Razor
