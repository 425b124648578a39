import Mathlib.Algebra.BigOperators.Group.List.Basic
import Mathlib.Algebra.Order.Field.Basic
import Mathlib.Algebra.Order.Floor.Ring
import Mathlib.Data.List.Induction
import Mathlib.Data.Rat.Floor
import Mathlib.Tactic.FieldSimp
import Mathlib.Tactic.Linarith
import Mathlib.Tactic.NormNum
import Mathlib.Tactic.Ring

/-!
# The shaped packetizer

`ShapedPacketizer` of `nada/ns3-rmcat/model/syncodecs/syncodecs.{h,cc}`, with the codec
that it reads its frames from as a parameter and exact arithmetic on rational numbers. An
assertion that fails gives `none`. The rate callback of the codecs is left out.
-/

namespace Syncodecs

def initialRate : ℚ := 150000
def epsilon : ℚ := 1e-10

/-- A packet or a frame, and the seconds to the next one. -/
structure PacketOrFrame where
  first : List UInt8
  second : ℚ
  deriving DecidableEq

/-- A codec whose states are the elements of `σ`. -/
structure Codec (σ : Type) where
  setTargetRate : σ → ℚ → σ
  nextPacketOrFrame : σ → σ
  current : σ → PacketOrFrame

structure ShapedPacketizer (σ : Type) where
  targetRate : ℚ
  currentPacketOrFrame : PacketOrFrame
  payloadSize : Nat
  innerCodec : σ
  overhead : Nat
  bytesToSend : List UInt8
  secsToNextFrame : ℚ
  lastOverheadFactor : ℚ

namespace ShapedPacketizer

variable {σ : Type} (codec : Codec σ)

/-- The number of packets that some bytes are sent in. -/
def packetsToSend (bytes payloadSize : Nat) : ℚ := (⌈(bytes : ℚ) / payloadSize⌉ : Int)

/-- The part of `nextPacketOrFrame` that reads a frame. -/
def readFrame (s : ShapedPacketizer σ) : Option (ShapedPacketizer σ) :=
  if |s.secsToNextFrame| < epsilon then
    let innerCodec := codec.setTargetRate s.innerCodec (s.targetRate / (1 + s.lastOverheadFactor))
    -- `++` asserts that the codec is valid
    if (codec.current innerCodec).first.length > 0 then
      let innerCodec := codec.nextPacketOrFrame innerCodec
      let bytesToSend := (codec.current innerCodec).first
      if bytesToSend.length > 0 then
        some { s with
          innerCodec
          bytesToSend
          secsToNextFrame := s.secsToNextFrame + (codec.current innerCodec).second
          lastOverheadFactor :=
            s.overhead * packetsToSend bytesToSend.length s.payloadSize / bytesToSend.length }
      else none
    else none
  else none

/-- The rest of `nextPacketOrFrame`, which takes a packet from the frame. -/
def takePacket (s : ShapedPacketizer σ) : Option (ShapedPacketizer σ) :=
  if s.bytesToSend.length > 0 ∧ s.secsToNextFrame ≥ 0 then
    let payloadSize := min s.payloadSize s.bytesToSend.length
    let packets := packetsToSend s.bytesToSend.length s.payloadSize
    if packets ≥ 1 then
      let secsToNextPacket := s.secsToNextFrame / packets
      some { s with
        currentPacketOrFrame := ⟨s.bytesToSend.take payloadSize, secsToNextPacket⟩
        bytesToSend := s.bytesToSend.drop payloadSize
        secsToNextFrame := s.secsToNextFrame - secsToNextPacket }
    else none
  else none

/-- `ShapedPacketizer::nextPacketOrFrame`. -/
def nextPacketOrFrame (s : ShapedPacketizer σ) : Option (ShapedPacketizer σ) :=
  if s.bytesToSend.length = 0 then (s.readFrame codec).bind takePacket else s.takePacket

/-- `ShapedPacketizer::ShapedPacketizer` before it reads the first frame. -/
def init (innerCodec : σ) (payloadSize perPacketOverhead : Nat) : ShapedPacketizer σ where
  targetRate := initialRate
  currentPacketOrFrame := ⟨[], 0⟩
  payloadSize := payloadSize
  innerCodec := innerCodec
  overhead := perPacketOverhead
  bytesToSend := []
  secsToNextFrame := 0
  lastOverheadFactor := perPacketOverhead / payloadSize

/-- `ShapedPacketizer::ShapedPacketizer`. -/
def new (innerCodec : σ) (payloadSize perPacketOverhead : Nat) : Option (ShapedPacketizer σ) := do
  let s ← (init innerCodec payloadSize perPacketOverhead).nextPacketOrFrame codec
  if s.currentPacketOrFrame.first.length > 0 then some s else none

/-- `Codec::setTargetRate`. -/
def setTargetRate (s : ShapedPacketizer σ) (newRateBps : ℚ) : ShapedPacketizer σ :=
  if newRateBps > epsilon then { s with targetRate := newRateBps } else s

/-- `Codec::operator++`. -/
def next (s : ShapedPacketizer σ) : Option (ShapedPacketizer σ) :=
  if s.currentPacketOrFrame.first.length > 0 then s.nextPacketOrFrame codec else none

/-! ## One frame -/

/-- Packets of up to `payloadSize` bytes each, in times that do not go backwards. -/
def Sized (payloadSize : Nat) (packets : List PacketOrFrame) : Prop :=
  ∀ p ∈ packets, 1 ≤ p.first.length ∧ p.first.length ≤ payloadSize ∧ 0 ≤ p.second

/-- **Lossless and time-preserving**: what the packets of a whole frame are. -/
structure Packetizes (payloadSize : Nat) (frame : PacketOrFrame) (packets : List PacketOrFrame) :
    Prop where
  sized : Sized payloadSize packets
  number : (packets.length : Int) = ⌈(frame.first.length : ℚ) / payloadSize⌉
  bytes : packets.flatMap (·.first) = frame.first
  secs : (packets.map (·.second)).sum = frame.second

/-- What holds while a frame has been sent in part. -/
structure Sending (payloadSize : Nat) (frame : PacketOrFrame) (packets : List PacketOrFrame)
    (bytesToSend : List UInt8) (secsToNextFrame : ℚ) : Prop where
  sized : Sized payloadSize packets
  number : (packets.length : Int) + ⌈(bytesToSend.length : ℚ) / payloadSize⌉ =
    ⌈(frame.first.length : ℚ) / payloadSize⌉
  bytes : packets.flatMap (·.first) ++ bytesToSend = frame.first
  secs : (packets.map (·.second)).sum + secsToNextFrame = frame.second
  nonneg : 0 ≤ secsToNextFrame
  /-- When the frame is exhausted, no time is left. -/
  exhausted : bytesToSend = [] → secsToNextFrame = 0

variable {payloadSize : Nat} {frame : PacketOrFrame} {packets : List PacketOrFrame}
  {bytesToSend : List UInt8} {secsToNextFrame : ℚ}

theorem sending_frame (payloadSize : Nat) (h : frame.first ≠ []) (hsecs : 0 ≤ frame.second) :
    Sending payloadSize frame [] frame.first frame.second where
  sized := fun p hp => absurd hp List.not_mem_nil
  number := by simp
  bytes := rfl
  secs := by simp
  nonneg := hsecs
  exhausted := fun hempty => absurd hempty h

/-- An exhausted frame has been sent as a whole. -/
theorem Sending.packetizes (h : Sending payloadSize frame packets [] secsToNextFrame) :
    Packetizes payloadSize frame packets where
  sized := h.sized
  number := by
    have hnumber := h.number
    simpa using hnumber
  bytes := by
    have hbytes := h.bytes
    rwa [List.append_nil] at hbytes
  secs := by
    have hsecs := h.secs
    rwa [h.exhausted rfl, add_zero] at hsecs

theorem packets_pos {n : Nat} (hn : 0 < n) (hpayload : 0 < payloadSize) :
    (1 : Int) ≤ ⌈(n : ℚ) / payloadSize⌉ := by
  have hpos : (0 : ℚ) < (n : ℚ) / payloadSize :=
    div_pos (Nat.cast_pos.mpr hn) (Nat.cast_pos.mpr hpayload)
  exact Int.one_le_ceil_iff.mpr hpos

/-- One packet less to send: it is the last one, or the frame has more than a payload. -/
theorem packets_drop {n : Nat} (hn : 0 < n) (hpayload : 0 < payloadSize) :
    ⌈((n - min payloadSize n : Nat) : ℚ) / payloadSize⌉ = ⌈(n : ℚ) / payloadSize⌉ - 1 := by
  have hsize : (0 : ℚ) < payloadSize := Nat.cast_pos.mpr hpayload
  rcases Nat.le_total n payloadSize with hle | hle
  · have hone : ⌈(n : ℚ) / payloadSize⌉ = 1 := by
      refine le_antisymm (Int.ceil_le.mpr ?_) (packets_pos hn hpayload)
      rw [Int.cast_one, div_le_one hsize]
      exact Nat.cast_le.mpr hle
    rw [hone, min_eq_right hle]
    simp
  · rw [min_eq_left hle, Nat.cast_sub hle, sub_div, div_self hsize.ne', ← Int.cast_one,
      Int.ceil_sub_intCast]

theorem one_le_packetsToSend {n : Nat} (hn : 0 < n) (hpayload : 0 < payloadSize) :
    1 ≤ packetsToSend n payloadSize :=
  Int.cast_one (R := ℚ) ▸ Int.cast_le.mpr (packets_pos hn hpayload)

/-- The packet that leaves nothing over is the last one. -/
theorem packetsToSend_last (hpayload : 0 < payloadSize) (hbytes : 0 < bytesToSend.length)
    (hempty : bytesToSend.drop (min payloadSize bytesToSend.length) = []) :
    packetsToSend bytesToSend.length payloadSize = 1 := by
  have hlen := congrArg List.length hempty
  have hdrop := packets_drop hbytes hpayload
  rw [List.length_drop, List.length_nil] at hlen
  rw [hlen, Nat.cast_zero, zero_div, Int.ceil_zero] at hdrop
  rw [packetsToSend, show ⌈(bytesToSend.length : ℚ) / payloadSize⌉ = 1 by omega]
  exact Int.cast_one

/-- A part of the bytes and one packet's part of the time are a packet. -/
theorem Sized.snoc {secs : ℚ} (h : Sized payloadSize packets) (hpayload : 0 < payloadSize)
    (hbytes : 0 < bytesToSend.length) (hsecs : 0 ≤ secs) :
    Sized payloadSize
      (packets ++ [⟨bytesToSend.take (min payloadSize bytesToSend.length), secs⟩]) := by
  intro p hp
  rcases List.mem_append.mp hp with hp | hp
  · exact h p hp
  · obtain rfl := List.mem_singleton.mp hp
    simp only [List.length_take]
    exact ⟨by omega, by omega, hsecs⟩

/-- **One packet** is taken from the frame, with its part of the time. -/
theorem Sending.take (h : Sending payloadSize frame packets bytesToSend secsToNextFrame)
    (hpayload : 0 < payloadSize) (hbytes : 0 < bytesToSend.length) :
    Sending payloadSize frame
      (packets ++ [⟨bytesToSend.take (min payloadSize bytesToSend.length),
        secsToNextFrame / packetsToSend bytesToSend.length payloadSize⟩])
      (bytesToSend.drop (min payloadSize bytesToSend.length))
      (secsToNextFrame - secsToNextFrame / packetsToSend bytesToSend.length payloadSize) := by
  have hone := one_le_packetsToSend hbytes hpayload
  have hpart : 0 ≤ secsToNextFrame / packetsToSend bytesToSend.length payloadSize :=
    div_nonneg h.nonneg (zero_le_one.trans hone)
  refine ⟨h.sized.snoc hpayload hbytes hpart, ?_, ?_, ?_, ?_, ?_⟩
  · have hnumber := h.number
    rw [List.length_append, List.length_singleton, List.length_drop,
      packets_drop hbytes hpayload]
    push_cast
    omega
  · have hsplit := List.take_append_drop (min payloadSize bytesToSend.length) bytesToSend
    rw [List.flatMap_append, List.append_assoc]
    simp only [List.flatMap_cons, List.flatMap_nil, List.append_nil]
    rw [hsplit]
    exact h.bytes
  · have hsecs := h.secs
    rw [List.map_append, List.sum_append, List.map_singleton, List.sum_singleton]
    linarith
  · exact sub_nonneg.mpr (div_le_self h.nonneg hone)
  · intro hempty
    -- the last packet takes all the time that is left
    rw [packetsToSend_last hpayload hbytes hempty, div_one, sub_self]

/-! ## The calls -/

/-- The states that a codec can be taken to. -/
inductive Reached (innerCodec : σ) : σ → Prop
  | start : Reached innerCodec innerCodec
  | setTargetRate {c : σ} (rate : ℚ) :
    Reached innerCodec c → Reached innerCodec (codec.setTargetRate c rate)
  | nextPacketOrFrame {c : σ} :
    Reached innerCodec c → Reached innerCodec (codec.nextPacketOrFrame c)

/-- Every frame of the codec has bytes, and a time that is not negative. -/
def Frames (innerCodec : σ) : Prop :=
  ∀ c, Reached codec innerCodec c → (codec.current c).first ≠ [] ∧ 0 ≤ (codec.current c).second

variable {codec} {innerCodec : σ} {s : ShapedPacketizer σ}

/-- No assertion fails while a frame is being sent. -/
theorem takePacket_eq (h : Sending s.payloadSize frame packets s.bytesToSend s.secsToNextFrame)
    (hpayload : 0 < s.payloadSize) (hbytes : 0 < s.bytesToSend.length) :
    ∃ s', s.takePacket = some s' ∧ s'.payloadSize = s.payloadSize ∧
      s'.innerCodec = s.innerCodec ∧ 0 < s'.currentPacketOrFrame.first.length ∧
      Sending s'.payloadSize frame (packets ++ [s'.currentPacketOrFrame]) s'.bytesToSend
        s'.secsToNextFrame := by
  have hone := one_le_packetsToSend hbytes hpayload
  have htake := h.take hpayload hbytes
  rw [takePacket, if_pos ⟨hbytes, h.nonneg⟩]
  dsimp only
  rw [if_pos hone]
  exact ⟨_, rfl, rfl, rfl, (htake.sized _ (by simp)).1, htake⟩

/-- Once a frame is exhausted, the next one is read, with all of its time. -/
theorem readFrame_eq (hcodec : Frames codec innerCodec)
    (hreached : Reached codec innerCodec s.innerCodec) (hsecs : s.secsToNextFrame = 0) :
    ∃ s', s.readFrame codec = some s' ∧ s'.payloadSize = s.payloadSize ∧
      Reached codec innerCodec s'.innerCodec ∧
      s'.bytesToSend = (codec.current s'.innerCodec).first ∧
      s'.secsToNextFrame = (codec.current s'.innerCodec).second := by
  have hzero : |s.secsToNextFrame| < epsilon := by
    rw [hsecs, abs_zero]
    norm_num [epsilon]
  have hrate := Reached.setTargetRate (s.targetRate / (1 + s.lastOverheadFactor)) hreached
  have hnext := Reached.nextPacketOrFrame hrate
  rw [readFrame, if_pos hzero]
  dsimp only
  rw [if_pos (List.length_pos_of_ne_nil (hcodec _ hrate).1),
    if_pos (List.length_pos_of_ne_nil (hcodec _ hnext).1), hsecs]
  exact ⟨_, rfl, rfl, hnext, rfl, zero_add _⟩

/-- **The next packet** comes from the frame that is being sent or, if that is exhausted,
from the next one. -/
theorem nextPacketOrFrame_eq (hcodec : Frames codec innerCodec)
    (hreached : Reached codec innerCodec s.innerCodec) (hpayload : 0 < s.payloadSize)
    (h : Sending s.payloadSize frame packets s.bytesToSend s.secsToNextFrame) :
    ∃ s', s.nextPacketOrFrame codec = some s' ∧ s'.payloadSize = s.payloadSize ∧
      Reached codec innerCodec s'.innerCodec ∧
      0 < s'.currentPacketOrFrame.first.length ∧
      (s.bytesToSend.length = 0 → Sending s'.payloadSize (codec.current s'.innerCodec)
        [s'.currentPacketOrFrame] s'.bytesToSend s'.secsToNextFrame) ∧
      (s.bytesToSend.length ≠ 0 → s'.innerCodec = s.innerCodec ∧
        Sending s'.payloadSize frame (packets ++ [s'.currentPacketOrFrame]) s'.bytesToSend
          s'.secsToNextFrame) := by
  rw [nextPacketOrFrame]
  split
  · rename_i hempty
    have hsecs := h.exhausted (List.length_eq_zero_iff.mp hempty)
    obtain ⟨s₁, hread, hsize₁, hreached₁, hbytes₁, hsecs₁⟩ := readFrame_eq hcodec hreached hsecs
    obtain ⟨hne, hnonneg⟩ := hcodec _ hreached₁
    have hstart : Sending s₁.payloadSize (codec.current s₁.innerCodec) [] s₁.bytesToSend
        s₁.secsToNextFrame := by
      rw [hbytes₁, hsecs₁]
      exact sending_frame _ hne hnonneg
    have hpos : 0 < s₁.bytesToSend.length := hbytes₁ ▸ List.length_pos_of_ne_nil hne
    obtain ⟨s', htake, hsize, hinner, hfirst, hsending⟩ :=
      takePacket_eq hstart (hsize₁ ▸ hpayload) hpos
    rw [hread]
    exact ⟨s', htake, hsize.trans hsize₁, hinner ▸ hreached₁, hfirst,
      fun _ => hinner ▸ hsending, fun hnot => absurd hempty hnot⟩
  · rename_i hmore
    obtain ⟨s', htake, hsize, hinner, hfirst, hsending⟩ :=
      takePacket_eq h hpayload (Nat.pos_of_ne_zero hmore)
    exact ⟨s', htake, hsize, hinner ▸ hreached, hfirst, fun hempty => absurd hempty hmore,
      fun _ => ⟨hinner, hsending⟩⟩

/-! ## Runs -/

/-- What the user of a packetizer calls. -/
inductive Op where
  | setTargetRate (newRateBps : ℚ)
  | next

/-- A packetizer, with the packets of the frame that it sends and of those before. -/
structure Sender (σ : Type) where
  state : ShapedPacketizer σ
  done : List (PacketOrFrame × List PacketOrFrame)
  frame : PacketOrFrame
  packets : List PacketOrFrame

/-- A call has gone from the packetizer of `r` to `s`, with one more packet. -/
def Sender.record (codec : Codec σ) (r : Sender σ) (s : ShapedPacketizer σ) : Sender σ :=
  if r.state.bytesToSend.length = 0 then
    { state := s
      done := r.done ++ [(r.frame, r.packets)]
      frame := codec.current s.innerCodec
      packets := [s.currentPacketOrFrame] }
  else { r with state := s, packets := r.packets ++ [s.currentPacketOrFrame] }

/-- A new packetizer, which has sent the first packet of the first frame. -/
def Sender.new (codec : Codec σ) (innerCodec : σ) (payloadSize perPacketOverhead : Nat) :
    Option (Sender σ) :=
  (ShapedPacketizer.new codec innerCodec payloadSize perPacketOverhead).map fun s =>
    { state := s
      done := []
      frame := codec.current s.innerCodec
      packets := [s.currentPacketOrFrame] }

def Sender.perform (codec : Codec σ) (r : Sender σ) : Op → Option (Sender σ)
  | .setTargetRate newRateBps => some { r with state := r.state.setTargetRate newRateBps }
  | .next => (r.state.next codec).map (r.record codec)

/-- The invariant of a run. -/
structure Inv (codec : Codec σ) (innerCodec : σ) (payloadSize : Nat) (r : Sender σ) : Prop where
  size : r.state.payloadSize = payloadSize
  reached : Reached codec innerCodec r.state.innerCodec
  /-- What `isValid` asserts. -/
  valid : 0 < r.state.currentPacketOrFrame.first.length
  frame : r.frame = codec.current r.state.innerCodec
  sending : Sending payloadSize r.frame r.packets r.state.bytesToSend r.state.secsToNextFrame
  done : ∀ group ∈ r.done, Packetizes payloadSize group.1 group.2

/-- The frame that comes before the first one has no bytes and no time. -/
theorem sending_init (innerCodec : σ) (payloadSize perPacketOverhead : Nat) :
    Sending payloadSize ⟨[], 0⟩ [] (init innerCodec payloadSize perPacketOverhead).bytesToSend
      (init innerCodec payloadSize perPacketOverhead).secsToNextFrame where
  sized := fun p hp => absurd hp List.not_mem_nil
  number := by simp [init]
  bytes := rfl
  secs := by simp [init]
  nonneg := le_refl 0
  exhausted := fun _ => rfl

theorem inv_new (hcodec : Frames codec innerCodec) (hpayload : 0 < payloadSize)
    (perPacketOverhead : Nat) :
    ∃ r, Sender.new codec innerCodec payloadSize perPacketOverhead = some r ∧
      Inv codec innerCodec payloadSize r := by
  obtain ⟨s, hnext, hsize, hreached, hfirst, hsending, _⟩ :=
    nextPacketOrFrame_eq (s := init innerCodec payloadSize perPacketOverhead) hcodec .start
      hpayload (sending_init innerCodec payloadSize perPacketOverhead)
  have hnew : ShapedPacketizer.new codec innerCodec payloadSize perPacketOverhead = some s := by
    rw [ShapedPacketizer.new, hnext]
    exact if_pos hfirst
  have hsize' : s.payloadSize = payloadSize := hsize
  rw [Sender.new, hnew]
  exact ⟨_, rfl, hsize', hreached, hfirst, rfl, hsize' ▸ hsending rfl,
    fun group hgroup => absurd hgroup List.not_mem_nil⟩

theorem Inv.setTargetRate {r : Sender σ} (h : Inv codec innerCodec payloadSize r)
    (newRateBps : ℚ) :
    Inv codec innerCodec payloadSize { r with state := r.state.setTargetRate newRateBps } := by
  simp only [ShapedPacketizer.setTargetRate]
  split
  · exact ⟨h.size, h.reached, h.valid, h.frame, h.sending, h.done⟩
  · exact h

/-- **Step lemma**: no assertion fails, and a frame is done when the next one starts. -/
theorem Inv.next {r : Sender σ} (h : Inv codec innerCodec payloadSize r)
    (hcodec : Frames codec innerCodec) (hpayload : 0 < payloadSize) :
    ∃ r', r.perform codec .next = some r' ∧ Inv codec innerCodec payloadSize r' := by
  obtain ⟨s, hnext, hsize, hreached, hfirst, hstart, hmore⟩ :=
    nextPacketOrFrame_eq hcodec h.reached (h.size ▸ hpayload) (h.size ▸ h.sending)
  have hsize' : s.payloadSize = payloadSize := hsize.trans h.size
  have hperform : r.perform codec .next = some (r.record codec s) := by
    rw [Sender.perform, ShapedPacketizer.next, if_pos h.valid, hnext, Option.map_some]
  refine ⟨_, hperform, ?_⟩
  rw [Sender.record]
  split
  · rename_i hempty
    refine ⟨hsize', hreached, hfirst, rfl, hsize' ▸ hstart hempty, ?_⟩
    intro group hgroup
    rcases List.mem_append.mp hgroup with hgroup | hgroup
    · exact h.done group hgroup
    · have hsending := h.sending
      rw [List.length_eq_zero_iff.mp hempty] at hsending
      rw [List.mem_singleton.mp hgroup]
      exact hsending.packetizes
  · rename_i hne
    obtain ⟨hinner, hsending⟩ := hmore hne
    exact ⟨hsize', hreached, hfirst, h.frame.trans (congrArg codec.current hinner.symm),
      hsize' ▸ hsending, h.done⟩

/-- No assertion fails in a call. -/
theorem Inv.perform {r : Sender σ} (h : Inv codec innerCodec payloadSize r)
    (hcodec : Frames codec innerCodec) (hpayload : 0 < payloadSize) (op : Op) :
    ∃ r', r.perform codec op = some r' ∧ Inv codec innerCodec payloadSize r' := by
  cases op with
  | setTargetRate newRateBps => exact ⟨_, rfl, h.setTargetRate newRateBps⟩
  | next => exact h.next hcodec hpayload

/-- **Run lemma**. -/
theorem Inv.run {r : Sender σ} (h : Inv codec innerCodec payloadSize r)
    (hcodec : Frames codec innerCodec) (hpayload : 0 < payloadSize) (ops : List Op) :
    ∃ r', ops.foldlM (Sender.perform codec) r = some r' ∧
      Inv codec innerCodec payloadSize r' := by
  induction ops generalizing r with
  | nil => exact ⟨r, rfl, h⟩
  | cons op ops ih =>
    obtain ⟨r₁, hop, h₁⟩ := h.perform hcodec hpayload op
    obtain ⟨r', hops, h'⟩ := ih h₁
    rw [List.foldlM_cons, hop]
    exact ⟨r', hops, h'⟩

/-- **The shaped packetizer is lossless and time-preserving.** No assertion fails in any
run. Every frame that is done has been sent as its bytes and its time, in as few packets as
there can be; of the frame that is being sent the bytes and the time are those of its
packets and what is left, and nothing of the time is left when none of the bytes is. -/
theorem shapedPacketizer_lossless (hcodec : Frames codec innerCodec)
    (hpayload : 0 < payloadSize) (perPacketOverhead : Nat) (ops : List Op) :
    ∃ r, (Sender.new codec innerCodec payloadSize perPacketOverhead).bind
        (ops.foldlM (Sender.perform codec)) = some r ∧
      (∀ group ∈ r.done, Packetizes payloadSize group.1 group.2) ∧
      r.frame = codec.current r.state.innerCodec ∧
      Sending payloadSize r.frame r.packets r.state.bytesToSend r.state.secsToNextFrame ∧
      (r.state.bytesToSend = [] →
        Packetizes payloadSize r.frame r.packets ∧ r.state.secsToNextFrame = 0) := by
  obtain ⟨r₀, hnew, h₀⟩ := inv_new hcodec hpayload perPacketOverhead
  obtain ⟨r, hrun, h⟩ := h₀.run hcodec hpayload ops
  rw [hnew, Option.bind_some]
  refine ⟨r, hrun, h.done, h.frame, h.sending, ?_⟩
  intro hempty
  have hsending := h.sending
  rw [hempty] at hsending
  exact ⟨hsending.packetizes, hsending.exhausted rfl⟩

/-- A codec whose frames get one byte longer each time. -/
def growing : Codec Nat where
  setTargetRate := fun c _ => c
  nextPacketOrFrame := fun c => c + 1
  current := fun c => ⟨List.replicate (c + 1) 0, c⟩

theorem frames_growing : Frames growing 0 :=
  fun c _ => ⟨List.cons_ne_nil _ _, Nat.cast_nonneg c⟩

theorem shapedPacketizer_lossless_growing :
    ∃ r, (Sender.new growing 0 3 40).bind
        ([Op.next, .setTargetRate 1000, .next, .next, .next].foldlM (Sender.perform growing)) =
          some r ∧
      (∀ group ∈ r.done, Packetizes 3 group.1 group.2) ∧
      r.frame = growing.current r.state.innerCodec ∧
      Sending 3 r.frame r.packets r.state.bytesToSend r.state.secsToNextFrame ∧
      (r.state.bytesToSend = [] →
        Packetizes 3 r.frame r.packets ∧ r.state.secsToNextFrame = 0) :=
  shapedPacketizer_lossless frames_growing (by decide) 40 _

end ShapedPacketizer

end Syncodecs
