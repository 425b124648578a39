import Mathlib.Data.BitVec
import Mathlib.Tactic.Ring

/-!
# Serial numbers

Counters of `w` bits that wrap around, compared by their forward distance.
`dist a b` is how far `b` lies ahead of `a`; `Precedes a b` says that it
lies ahead by less than half of the number circle. `Precedes` is not
transitive, so the lemmas carry the distances themselves: distances add up
as long as the sum stays below `2 ^ w`.
-/

namespace SerialNumber

variable {w : Nat}

/-- The forward distance from `a` to `b`. -/
def dist (a b : BitVec w) : Nat := (b - a).toNat

/-- `b` lies ahead of `a` by less than half of the number circle. -/
def Precedes (a b : BitVec w) : Prop := 0 < dist a b ∧ 2 * dist a b < 2 ^ w

instance (a b : BitVec w) : Decidable (Precedes a b) :=
  inferInstanceAs (Decidable (_ ∧ _))

theorem dist_lt (a b : BitVec w) : dist a b < 2 ^ w := (b - a).isLt

@[simp] theorem dist_self (a : BitVec w) : dist a a = 0 := by simp [dist]

theorem dist_eq_zero_iff {a b : BitVec w} : dist a b = 0 ↔ a = b := by
  constructor
  · intro h
    have h0 : b - a = 0#w := BitVec.eq_of_toNat_eq (by simpa [dist] using h)
    have hb : b = b - a + a := (BitVec.sub_add_cancel b a).symm
    rw [h0, BitVec.zero_add] at hb
    exact hb.symm
  · rintro rfl
    exact dist_self a

theorem dist_eq_iff {a b : BitVec w} {d : Nat} (hd : d < 2 ^ w) :
    dist a b = d ↔ a = b - BitVec.ofNat w d := by
  constructor
  · intro h
    have hsub : b - a = BitVec.ofNat w d :=
      BitVec.eq_of_toNat_eq (by rw [BitVec.toNat_ofNat, Nat.mod_eq_of_lt hd]; exact h)
    rw [← hsub]
    ring
  · rintro rfl
    have hsub : b - (b - BitVec.ofNat w d) = BitVec.ofNat w d := by ring
    rw [dist, hsub, BitVec.toNat_ofNat, Nat.mod_eq_of_lt hd]

/-- Adding `n` moves a number forward by `n`, around the circle. -/
theorem dist_add_right (a : BitVec w) (n : BitVec w) :
    dist a (a + n) = n.toNat := by
  have h : a + n - a = n := by
    rw [BitVec.add_comm, BitVec.add_sub_cancel]
  rw [dist, h]

/-- Distances compose modulo the size of the circle. -/
theorem dist_add_mod (a b c : BitVec w) :
    (dist a b + dist b c) % 2 ^ w = dist a c := by
  have h : b - a + (c - b) = c - a := by ring
  simp only [dist]
  rw [← BitVec.toNat_add, h]

/-- **Distances add up** while they do not go once around the circle. -/
theorem dist_trans {a b c : BitVec w} (h : dist a b + dist b c < 2 ^ w) :
    dist a c = dist a b + dist b c := by
  rw [← dist_add_mod a b c, Nat.mod_eq_of_lt h]

/-- A forward distance and its way back go once around the circle. -/
theorem dist_comm {a b : BitVec w} (h : a ≠ b) :
    dist a b + dist b a = 2 ^ w := by
  have h0 : dist a b ≠ 0 := fun hz => h (dist_eq_zero_iff.mp hz)
  have hmod := dist_add_mod a b a
  rw [dist_self] at hmod
  obtain ⟨k, hk⟩ := Nat.dvd_of_mod_eq_zero hmod
  have h1 := dist_lt a b
  have h2 := dist_lt b a
  have hk1 : k = 1 := by
    rcases Nat.lt_trichotomy k 1 with hlt | heq | hgt
    · have : k = 0 := by omega
      subst this
      omega
    · exact heq
    · have : 2 ^ w * 2 ≤ 2 ^ w * k := Nat.mul_le_mul_left _ hgt
      omega
  rw [hk, hk1, Nat.mul_one]

/-- The distance between two numbers counted from a common origin. -/
theorem dist_ofNat_add (s : BitVec w) {i j : Nat} (hij : i ≤ j)
    (hj : j - i < 2 ^ w) :
    dist (s + BitVec.ofNat w i) (s + BitVec.ofNat w j) = j - i := by
  have h : s + BitVec.ofNat w j
      = s + BitVec.ofNat w i + BitVec.ofNat w (j - i) := by
    rw [BitVec.add_assoc, ← BitVec.ofNat_add, Nat.add_sub_cancel' hij]
  rw [h, dist_add_right, BitVec.toNat_ofNat, Nat.mod_eq_of_lt hj]

theorem Precedes.ne {a b : BitVec w} (h : Precedes a b) : a ≠ b := by
  rintro rfl
  simp [Precedes] at h

/-- Seen from an origin, a number no further than another lies on the way
to it. -/
theorem dist_add_of_le {o a b : BitVec w} (h : dist o a ≤ dist o b) :
    dist o a + dist a b = dist o b := by
  have hmod := dist_add_mod o a b
  have hab := dist_lt a b
  rcases Nat.lt_or_ge (dist o a + dist a b) (2 ^ w) with hlt | hge
  · rwa [Nat.mod_eq_of_lt hlt] at hmod
  · have hoa := dist_lt o a
    rw [Nat.mod_eq_sub_mod hge, Nat.mod_eq_of_lt (by omega)] at hmod
    omega

/-- Seen from a target, a number no nearer than another has it on the way. -/
theorem dist_add_of_ge {a b c : BitVec w} (h : dist b c ≤ dist a c) :
    dist a b + dist b c = dist a c := by
  have hmod := dist_add_mod a b c
  have hab := dist_lt a b
  have hbc := dist_lt b c
  rcases Nat.lt_or_ge (dist a b + dist b c) (2 ^ w) with hlt | hge
  · rwa [Nat.mod_eq_of_lt hlt] at hmod
  · rw [Nat.mod_eq_sub_mod hge, Nat.mod_eq_of_lt (by omega)] at hmod
    omega

/-- Within half a circle of a common target, `Precedes` is the opposite order of the
distances to that target. -/
theorem precedes_iff_of_target {a b c : BitVec w} (ha : 2 * dist a c < 2 ^ w)
    (hb : 2 * dist b c < 2 ^ w) : Precedes a b ↔ dist b c < dist a c := by
  by_cases hlt : dist b c < dist a c
  · have hsum := dist_add_of_ge (Nat.le_of_lt hlt)
    simp only [Precedes, hlt, iff_true]
    omega
  · simp only [hlt, iff_false]
    intro hp
    have hsum := dist_add_of_ge (Nat.not_lt.mp hlt)
    have hc := dist_comm hp.ne
    have h2 := hp.2
    omega

/-- Within half a circle of a common origin, `Precedes` is the order of the
distances from that origin. -/
theorem precedes_iff_of_half {o a b : BitVec w} (ha : 2 * dist o a < 2 ^ w)
    (hb : 2 * dist o b < 2 ^ w) : Precedes a b ↔ dist o a < dist o b := by
  rcases Nat.lt_or_ge (dist o a) (dist o b) with hlt | hge
  · have hsum := dist_add_of_le (Nat.le_of_lt hlt)
    simp only [Precedes, hlt, iff_true]
    omega
  · simp only [Nat.not_lt.mpr hge, iff_false]
    intro hp
    have hsum := dist_add_of_le hge
    have hc := dist_comm hp.ne
    have h2 := hp.2
    omega

end SerialNumber
