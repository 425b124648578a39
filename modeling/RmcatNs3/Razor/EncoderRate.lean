import Mathlib.Data.List.Induction
import RmcatNs3.Lib.FloatRounding
import RmcatNs3.Lib.MachineInt
import RmcatNs3.Razor.SimMessage

/-!
# The rate of the encoder

`SimSender::ChangeBitRate` in `razor-ns3/model/sim_sender.cc`: what is left of the rate of
the transport after the headers and the losses, with every `double` rounded to its 53
binary digits. A `uint32_t` is a number modulo `2 ^ 32`. `rtt`, which is not read, and the
log line are left out.
-/

namespace Razor

open MachineInt FloatRounding

/-- The fields of `SimSender` that `ChangeBitRate` reads. -/
structure SenderRate where
  segmentSize : Nat
  lossFraction : Nat
  deriving DecidableEq, Repr

/-- What `ChangeBitRate` computes; the video rate is passed on. -/
structure EncoderRates where
  overheadBitrate : Nat
  payloadBitrate : Nat
  videoBitrateKbps : Nat
  deriving DecidableEq, Repr

namespace SenderRate

/-- What an operation on `double`s returns. -/
def double (x : ℚ) : ℚ := roundTo 53 x

/-- `SimSender::SimSender`. -/
def create : SenderRate := ⟨1000, 0⟩

/-- `SimSender::SetSegmentSize`. -/
def setSegmentSize (s : SenderRate) (segmentSize : Nat) : SenderRate := { s with segmentSize }

/-- `overhead_bitrate`. -/
def overhead (s : SenderRate) (bitrate : Nat) : Nat :=
  let packetSizeBit := toUnsigned 32 ((headerLen.toNat + s.segmentSize) * 8)
  let perPacketsSecond :=
    toUnsigned 32 ((bitrate : Int) + packetSizeBit - 1) / packetSizeBit
  toUnsigned 32 (perPacketsSecond * headerLen.toNat * 8)

/-- The new `m_lossFraction`. -/
def smoothLoss (lossFraction fractionLoss : Nat) : Nat :=
  if lossFraction = 0 then fractionLoss
  else toUnsigned 8 ((3 * lossFraction + fractionLoss) / 4 : Nat)

/-- The part of the payload that is lost, at most a half. -/
def lossOf (lossFraction : Nat) : ℚ :=
  let loss := double (lossFraction / 255)
  if loss > 0.5 then 0.5 else loss

/-- `SimSender::ChangeBitRate`. -/
def changeBitRate (s : SenderRate) (bitrate fractionLoss : Nat) : SenderRate × EncoderRates :=
  let overheadBitrate := s.overhead bitrate
  let payloadBitrate := toUnsigned 32 ((bitrate : Int) - overheadBitrate)
  let lossFraction := smoothLoss s.lossFraction fractionLoss
  let loss := lossOf lossFraction
  let videoBitrateKbps := toUnsigned 32 ⌊double (double (1 - loss) * payloadBitrate)⌋ / 1000
  ({ s with lossFraction }, { overheadBitrate, payloadBitrate, videoBitrateKbps })

/-! ## The rates of one call -/

variable {s : SenderRate}

/-- The headers of so many packets, the last of which may be partly empty, fit in the rate:
either they are few, or the payload of the others makes up for the last one. -/
theorem headers_le {bitrate size : Nat} (hbitrate : 10000 ≤ bitrate) (hsize : 0 < size) :
    (bitrate + (32 + size) * 8 - 1) / ((32 + size) * 8) * 256 ≤ bitrate := by
  generalize hq : (bitrate + (32 + size) * 8 - 1) / ((32 + size) * 8) = q
  have hmul : q * ((32 + size) * 8) ≤ bitrate + (32 + size) * 8 - 1 := by
    rw [← hq]
    exact Nat.div_mul_le_self _ _
  rcases Nat.lt_or_ge q 33 with hfew | hmany
  · omega
  · have hpayload : 32 * 1 ≤ (q - 1) * size := Nat.mul_le_mul (by omega) hsize
    have hsplit : q * ((32 + size) * 8) = q * 256 + 8 * ((q - 1) * size) + 8 * size := by
      obtain ⟨k, rfl⟩ : ∃ k, q = k + 1 := ⟨q - 1, by omega⟩
      rw [Nat.add_sub_cancel]
      ring
    omega

theorem overhead_eq {bitrate : Nat} (hlo : 10000 ≤ bitrate) (hhi : bitrate ≤ 2 ^ 32 - 2 ^ 20)
    (hsize : 0 < s.segmentSize) (hseg : s.segmentSize ≤ 65535) :
    s.overhead bitrate =
      (bitrate + (32 + s.segmentSize) * 8 - 1) / ((32 + s.segmentSize) * 8) * 256 := by
  have hle := headers_le hlo hsize
  have hbits : toUnsigned 32 ((headerLen.toNat + s.segmentSize) * 8) =
      (32 + s.segmentSize) * 8 := by
    have hlen : headerLen.toNat = 32 := rfl
    unfold toUnsigned
    omega
  have hround : toUnsigned 32 ((bitrate : Int) + ((32 + s.segmentSize) * 8 : Nat) - 1) =
      bitrate + (32 + s.segmentSize) * 8 - 1 := by
    unfold toUnsigned
    omega
  rw [overhead, hbits, hround]
  generalize (bitrate + (32 + s.segmentSize) * 8 - 1) / ((32 + s.segmentSize) * 8) = q at hle ⊢
  have hlen : headerLen.toNat = 32 := rfl
  rw [hlen]
  unfold toUnsigned
  omega

/-- The overhead is a part of the rate. -/
theorem overhead_le {bitrate : Nat} (hlo : 10000 ≤ bitrate) (hhi : bitrate ≤ 2 ^ 32 - 2 ^ 20)
    (hsize : 0 < s.segmentSize) (hseg : s.segmentSize ≤ 65535) : s.overhead bitrate ≤ bitrate := by
  rw [overhead_eq hlo hhi hsize hseg]
  exact headers_le hlo hsize

theorem double_nonneg {x : ℚ} (h : 0 ≤ x) : 0 ≤ double x := roundTo_nonneg h

theorem lossOf_nonneg (lossFraction : Nat) : 0 ≤ lossOf lossFraction := by
  unfold lossOf
  dsimp only
  split
  · norm_num
  · exact double_nonneg (div_nonneg (Nat.cast_nonneg _) (by norm_num))

theorem lossOf_le (lossFraction : Nat) : lossOf lossFraction ≤ 0.5 := by
  unfold lossOf
  dsimp only
  split
  · exact le_refl _
  · exact not_lt.mp ‹_›

/-- A part of a payload is not rounded above it. -/
theorem floor_double_le {loss : ℚ} (h0 : 0 ≤ loss) (h1 : loss ≤ 1) {payload : Nat}
    (hpayload : payload < 2 ^ 32) :
    0 ≤ ⌊double (double (1 - loss) * payload)⌋ ∧
      ⌊double (double (1 - loss) * payload)⌋ ≤ payload := by
  have hpart : 0 ≤ double (1 - loss) := double_nonneg (sub_nonneg.mpr h1)
  have hone : double (1 - loss) ≤ (1 : Nat) :=
    roundTo_le_natCast (by norm_num) (sub_nonneg.mpr h1) (by norm_num; exact h0) (by norm_num)
  have hproduct : 0 ≤ double (1 - loss) * payload := mul_nonneg hpart (Nat.cast_nonneg _)
  have hle : double (double (1 - loss) * payload) ≤ payload := by
    refine roundTo_le_natCast (by norm_num) hproduct ?_ (hpayload.trans (by norm_num))
    rw [Nat.cast_one] at hone
    exact mul_le_of_le_one_left (Nat.cast_nonneg _) hone
  refine ⟨Int.floor_nonneg.mpr (double_nonneg hproduct), ?_⟩
  rw [← Int.cast_le (R := ℚ)]
  exact (Int.floor_le _).trans hle

/-- **One call** passes on a rate that the payload holds. -/
theorem changeBitRate_rates {bitrate : Nat} (hlo : 10000 ≤ bitrate)
    (hhi : bitrate ≤ 2 ^ 32 - 2 ^ 20) (hsize : 0 < s.segmentSize)
    (hseg : s.segmentSize ≤ 65535) (fractionLoss : Nat) :
    let rates := (s.changeBitRate bitrate fractionLoss).2
    rates.overheadBitrate ≤ bitrate ∧
      rates.payloadBitrate = bitrate - rates.overheadBitrate ∧
      rates.videoBitrateKbps * 1000 ≤ rates.payloadBitrate := by
  have hle := overhead_le hlo hhi hsize hseg
  have hpayload : toUnsigned 32 ((bitrate : Int) - s.overhead bitrate) =
      bitrate - s.overhead bitrate := by
    unfold toUnsigned
    omega
  refine ⟨hle, hpayload, ?_⟩
  change toUnsigned 32 ⌊double (double (1 - lossOf (smoothLoss s.lossFraction fractionLoss)) *
      (toUnsigned 32 ((bitrate : Int) - s.overhead bitrate) : Nat))⌋ / 1000 * 1000 ≤
    toUnsigned 32 ((bitrate : Int) - s.overhead bitrate)
  have hlt := toUnsigned_lt 32 ((bitrate : Int) - s.overhead bitrate)
  generalize toUnsigned 32 ((bitrate : Int) - s.overhead bitrate) = payload at hlt ⊢
  have hloss : lossOf (smoothLoss s.lossFraction fractionLoss) ≤ 1 :=
    (lossOf_le _).trans (by norm_num)
  obtain ⟨hnonneg, hfloor⟩ := floor_double_le (lossOf_nonneg _) hloss hlt
  generalize ⌊double (double (1 - lossOf (smoothLoss s.lossFraction fractionLoss)) *
    (payload : Nat))⌋ = video at hnonneg hfloor
  have hvideo := toUnsigned_cast 32 video
  omega

/-! ## Sequences of calls -/

/-- The calls that set and read the rate. -/
inductive RateOp where
  | setSegmentSize (segmentSize : Nat)
  | changeBitRate (bitrate fractionLoss : Nat)
  deriving DecidableEq

/-- The arguments are those of a segment of up to 65535 bytes, and of a bitrate that the
bitrate controller notifies with a loss in one byte. -/
def RateOp.InRange : RateOp → Prop
  | .setSegmentSize segmentSize => 1 ≤ segmentSize ∧ segmentSize ≤ 65535
  | .changeBitRate bitrate fractionLoss =>
      10000 ≤ bitrate ∧ bitrate ≤ 2 ^ 32 - 2 ^ 20 ∧ fractionLoss < 2 ^ 8

instance (op : RateOp) : Decidable op.InRange := by
  cases op <;> unfold RateOp.InRange <;> infer_instance

def perform (s : SenderRate) : RateOp → SenderRate
  | .setSegmentSize segmentSize => s.setSegmentSize segmentSize
  | .changeBitRate bitrate fractionLoss => (s.changeBitRate bitrate fractionLoss).1

/-- The losses that some calls have been given. -/
def losses (ops : List RateOp) : List Nat :=
  ops.filterMap fun op =>
    match op with
    | .setSegmentSize _ => none
    | .changeBitRate _ fractionLoss => some fractionLoss

/-- A value is neither below nor above all of some others. -/
def Within (values : List Nat) (value : Nat) : Prop :=
  ∃ lo ∈ values, ∃ hi ∈ values, lo ≤ value ∧ value ≤ hi

/-- The smoothed loss goes towards the new one. -/
theorem Within.smoothLoss {values : List Nat} {value fractionLoss : Nat}
    (h : Within values value) (hvalue : value < 2 ^ 8) (hloss : fractionLoss < 2 ^ 8) :
    Within (values ++ [fractionLoss]) (smoothLoss value fractionLoss) := by
  obtain ⟨lo, hlo, hi, hhi, hle, hge⟩ := h
  have hnew : fractionLoss ∈ values ++ [fractionLoss] := by simp
  have hold : ∀ v ∈ values, v ∈ values ++ [fractionLoss] :=
    fun v hv => List.mem_append_left _ hv
  have hmean : toUnsigned 8 ((3 * value + fractionLoss) / 4 : Nat) =
      (3 * value + fractionLoss) / 4 := toUnsigned_of_lt (by omega)
  rw [SenderRate.smoothLoss, hmean]
  split
  · exact ⟨fractionLoss, hnew, fractionLoss, hnew, le_refl _, le_refl _⟩
  · rcases Nat.le_total fractionLoss value with hdown | hup
    · exact ⟨fractionLoss, hnew, hi, hold hi hhi, by omega, by omega⟩
    · exact ⟨lo, hold lo hlo, fractionLoss, hnew, by omega, by omega⟩

/-- **The invariant** of the sender's rate after some calls. -/
structure Fed (s : SenderRate) (ops : List RateOp) : Prop where
  size_pos : 0 < s.segmentSize
  size_le : s.segmentSize ≤ 65535
  loss_lt : s.lossFraction < 2 ^ 8
  within : losses ops = [] ∧ s.lossFraction = 0 ∨ Within (losses ops) s.lossFraction

theorem Fed.perform {ops : List RateOp} {op : RateOp} (h : Fed s ops) (hop : op.InRange) :
    Fed (s.perform op) (ops ++ [op]) := by
  cases op with
  | setSegmentSize segmentSize =>
      have hsame : losses (ops ++ [.setSegmentSize segmentSize]) = losses ops := by
        simp [losses]
      exact ⟨hop.1, hop.2, h.loss_lt, hsame ▸ h.within⟩
  | changeBitRate bitrate fractionLoss =>
      obtain ⟨_, _, hloss⟩ := hop
      have hfed : losses (ops ++ [.changeBitRate bitrate fractionLoss]) =
          losses ops ++ [fractionLoss] := by
        simp [losses]
      have hwithin : Within (losses ops ++ [fractionLoss])
          (smoothLoss s.lossFraction fractionLoss) := by
        rcases h.within with ⟨hnone, hzero⟩ | hwithin
        · -- the first value replaces the `0` of the constructor
          rw [hnone, smoothLoss, if_pos hzero]
          exact ⟨fractionLoss, by simp, fractionLoss, by simp, le_refl _, le_refl _⟩
        · exact hwithin.smoothLoss h.loss_lt hloss
      have hlt : smoothLoss s.lossFraction fractionLoss < 2 ^ 8 := by
        rw [smoothLoss]
        split
        · exact hloss
        · exact toUnsigned_lt 8 _
      exact ⟨h.size_pos, h.size_le, hlt, .inr (hfed ▸ hwithin)⟩

theorem fed_of_inRange {ops : List RateOp} (hops : ∀ op ∈ ops, op.InRange) :
    Fed (ops.foldl perform create) ops := by
  induction ops using List.reverseRecOn with
  | nil => exact ⟨by decide, by decide, by decide, .inl ⟨rfl, rfl⟩⟩
  | append_singleton ops op ih =>
      rw [List.foldl_append]
      exact (ih fun o ho => hops o (List.mem_append_left _ ho)).perform (hops op (by simp))

/-- **The encoder gets a part of the rate of the transport**: whatever rates, segment sizes
and losses came before, the overhead does not exceed the rate, the video fits in the
payload, and the smoothed loss stays among the losses that it has been given. -/
theorem changeBitRate_of_run {ops : List RateOp} {bitrate fractionLoss : Nat}
    (hops : ∀ op ∈ ops ++ [.changeBitRate bitrate fractionLoss], op.InRange) :
    let called := (ops.foldl perform create).changeBitRate bitrate fractionLoss
    called.2.overheadBitrate ≤ bitrate ∧
      called.2.payloadBitrate = bitrate - called.2.overheadBitrate ∧
      called.2.videoBitrateKbps * 1000 ≤ called.2.payloadBitrate ∧
      Within (losses (ops ++ [.changeBitRate bitrate fractionLoss])) called.1.lossFraction := by
  have hfed : Fed (ops.foldl perform create) ops :=
    fed_of_inRange fun op hop => hops op (List.mem_append_left _ hop)
  have hop : (RateOp.changeBitRate bitrate fractionLoss).InRange := hops _ (by simp)
  obtain ⟨hoverhead, hpayload, hvideo⟩ :=
    changeBitRate_rates hop.1 hop.2.1 hfed.size_pos hfed.size_le fractionLoss
  refine ⟨hoverhead, hpayload, hvideo, ?_⟩
  rcases (hfed.perform hop).within with ⟨hnone, _⟩ | hwithin
  · simp [losses] at hnone
  · exact hwithin

/-- The lowest rate in segments of one byte: there are 38 of them in a second. -/
theorem changeBitRate_of_run_small :
    let called := ([.changeBitRate 500000 255, .setSegmentSize 1].foldl perform
      create).changeBitRate 10000 0
    called.2.overheadBitrate ≤ 10000 ∧
      called.2.payloadBitrate = 10000 - called.2.overheadBitrate ∧
      called.2.videoBitrateKbps * 1000 ≤ called.2.payloadBitrate ∧
      Within (losses [.changeBitRate 500000 255, .setSegmentSize 1, .changeBitRate 10000 0])
        called.1.lossFraction :=
  @changeBitRate_of_run [.changeBitRate 500000 255, .setSegmentSize 1] 10000 0 (by decide)

end SenderRate

end Razor
