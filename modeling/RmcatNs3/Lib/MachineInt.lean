import Mathlib.Algebra.Group.Int.Defs
import Mathlib.Algebra.Group.Nat.Defs

/-!
# Conversions between machine integers

The value of an integer after its conversion to an unsigned or a signed type
of `w` bits. A signed operation that overflows is modelled by the conversion
of its exact result.
-/

namespace MachineInt

def toUnsigned (w : Nat) (x : Int) : Nat := (x % 2 ^ w).toNat

def toSigned (w : Nat) (x : Int) : Int := x.bmod (2 ^ w)

variable {w : Nat} {x : Int}

theorem toUnsigned_cast (w : Nat) (x : Int) : (toUnsigned w x : Int) = x % 2 ^ w :=
  Int.toNat_of_nonneg (Int.emod_nonneg x (Int.ne_of_gt (Int.pow_pos (by decide))))

theorem toUnsigned_lt (w : Nat) (x : Int) : toUnsigned w x < 2 ^ w := by
  have h := Int.emod_lt_of_pos x (show (0 : Int) < 2 ^ w from Int.pow_pos (by decide))
  rw [← toUnsigned_cast] at h
  exact_mod_cast h

theorem toUnsigned_of_lt {n : Nat} (h : n < 2 ^ w) : toUnsigned w n = n := by
  have hcast : ((n : Int) % 2 ^ w) = n :=
    Int.emod_eq_of_lt (Int.natCast_nonneg n) (by exact_mod_cast h)
  rw [toUnsigned, hcast, Int.toNat_natCast]

/-- A value of 32 bits is not changed. -/
theorem toSigned_of_bounds (hlo : -2 ^ 31 ≤ x) (hhi : x < 2 ^ 31) : toSigned 32 x = x :=
  Int.bmod_eq_of_le (by omega) (by omega)

end MachineInt
