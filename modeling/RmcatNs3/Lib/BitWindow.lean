import Mathlib.Data.BitVec

/-!
# Bit windows

A word whose bits stand for the numbers below an edge: bit `k` for the number
`k + 1` below it. Sliding the window up shifts the word by as much as the edge
moves; the old edge then is below the new one.
-/

namespace BitWindow

variable {w : Nat}

/-- The bits of the word show which numbers below the edge have a property. -/
def Shows (v : BitVec w) (edge : Int) (S : Int → Prop) : Prop :=
  ∀ k, k < w → (v.getLsbD k = true ↔ S (edge - 1 - k))

variable {v : BitVec w} {edge : Int} {S S' : Int → Prop} {d : Nat}

/-- Only the numbers in the window matter. -/
theorem Shows.congr (h : Shows v edge S)
    (hS : ∀ n, edge - w ≤ n → n < edge → (S n ↔ S' n)) : Shows v edge S' := by
  intro k hk
  rw [h k hk]
  apply hS <;> omega

theorem Shows.zero (hS : ∀ n, edge - w ≤ n → n < edge → ¬ S n) : Shows 0#w edge S := by
  intro k hk
  have hout : ¬ S (edge - 1 - k) := by apply hS <;> omega
  simp [hout]

theorem getLsbD_bit (k : Nat) (hk : k < w) (hd : 0 < d) :
    (1#w <<< (d - 1)).getLsbD k = true ↔ k + 1 = d := by
  by_cases hle : k < d - 1
  · simp [hk, hle]
    omega
  · simp [hk, hle]
    omega

/-- Set the bit of one number. -/
theorem Shows.mark (h : Shows v edge S) (hd : 0 < d) :
    Shows (v ||| 1#w <<< (d - 1)) edge fun n => S n ∨ n = edge - d := by
  intro k hk
  rw [BitVec.getLsbD_or, Bool.or_eq_true, h k hk, getLsbD_bit k hk hd]
  apply or_congr_right
  omega

/-- Move the edge up by `d` and set the bit of the old edge. -/
theorem Shows.slide (h : Shows v edge S) (hd : 0 < d) :
    Shows (v <<< d ||| 1#w <<< (d - 1)) (edge + d) fun n => (n < edge ∧ S n) ∨ n = edge := by
  intro k hk
  rw [BitVec.getLsbD_or, Bool.or_eq_true, getLsbD_bit k hk hd, BitVec.getLsbD_shiftLeft]
  apply or_congr
  · by_cases hkd : k < d
    · have hnew : ¬ edge + d - 1 - k < edge := by omega
      simp [hkd, hnew]
    · have hold := h (k - d) (by omega)
      have hat : edge - 1 - ((k - d : Nat) : Int) = edge + d - 1 - k := by omega
      have hbelow : edge + d - 1 - k < edge := by omega
      rw [hat] at hold
      simp [hk, hkd, hold, hbelow]
  · omega

end BitWindow
