import Mathlib.Data.List.Induction
import Mathlib.Tactic.Ring

/-!
# Numbers as bytes

Fixed-width numbers written most significant byte first, as protocols put
them on the wire.
-/

namespace Bytes

/-- The low `w` bytes of `v`, most significant first. -/
def encode : Nat → Nat → List UInt8
  | 0, _ => []
  | w + 1, v => encode w (v / 256) ++ [UInt8.ofNat v]

/-- The number that `bs` spells, most significant byte first. -/
def decode (bs : List UInt8) : Nat :=
  bs.foldl (fun v b => v * 256 + b.toNat) 0

@[simp] theorem length_encode (w v : Nat) : (encode w v).length = w := by
  induction w generalizing v with
  | zero => rfl
  | succ w ih => simp [encode, ih]

@[simp] theorem decode_nil : decode [] = 0 := rfl

@[simp] theorem decode_concat (bs : List UInt8) (b : UInt8) :
    decode (bs ++ [b]) = decode bs * 256 + b.toNat := by
  simp [decode]

/-- **Decoding an encoding** gives the number back, up to the width. -/
theorem decode_encode (w v : Nat) : decode (encode w v) = v % 256 ^ w := by
  induction w generalizing v with
  | zero => simp [encode, Nat.mod_one]
  | succ w ih =>
      rw [encode, decode_concat, ih, Nat.pow_succ', Nat.mod_mul]
      have hb : (UInt8.ofNat v).toNat = v % 256 := by simp
      omega

theorem decode_encode_of_lt {w v : Nat} (h : v < 256 ^ w) :
    decode (encode w v) = v := by
  rw [decode_encode, Nat.mod_eq_of_lt h]

theorem decode_lt (bs : List UInt8) : decode bs < 256 ^ bs.length := by
  induction bs using List.reverseRecOn with
  | nil => simp
  | append_singleton bs b ih =>
      have hb := b.toNat_lt
      rw [decode_concat, List.length_append, List.length_singleton, Nat.pow_succ]
      omega

/-- **Encoding a decoding** gives the bytes back. -/
theorem encode_decode (bs : List UInt8) : encode bs.length (decode bs) = bs := by
  induction bs using List.reverseRecOn with
  | nil => rfl
  | append_singleton bs b ih =>
      have hb := b.toNat_lt
      have hdiv : (decode bs * 256 + b.toNat) / 256 = decode bs := by omega
      have hlow : UInt8.ofNat (decode bs * 256 + b.toNat) = b := by
        apply UInt8.toNat_inj.mp
        simp
      rw [List.length_append, List.length_singleton, encode, decode_concat, hdiv,
        ih, hlow]

end Bytes
