import Mathlib.Order.Defs.PartialOrder
import Mathlib.Order.Defs.Unbundled

/-!
# The order of floating-point values

A floating-point value is a number or is not, and a comparison with what is no number is
false. The numbers are in any total preorder, so that two zeros may be equal in it and yet
differ. The minimum and the maximum are those of the C++ library: each returns its first
argument unless the comparison says otherwise, so the order of the arguments decides what
happens to a value that is no number.
-/

/-- A floating-point value. -/
inductive FloatVal (α : Type*)
  | nan
  | num (x : α)
  deriving DecidableEq

namespace FloatVal

variable {α : Type*} [Preorder α]

def lt : FloatVal α → FloatVal α → Prop
  | num x, num y => x < y
  | _, _ => False

def le : FloatVal α → FloatVal α → Prop
  | num x, num y => x ≤ y
  | _, _ => False

instance : LT (FloatVal α) := ⟨lt⟩
instance : LE (FloatVal α) := ⟨le⟩

instance [DecidableLT α] : DecidableLT (FloatVal α)
  | num x, num y => inferInstanceAs (Decidable (x < y))
  | nan, _ => isFalse id
  | num _, nan => isFalse id

instance [DecidableLE α] : DecidableLE (FloatVal α)
  | num x, num y => inferInstanceAs (Decidable (x ≤ y))
  | nan, _ => isFalse id
  | num _, nan => isFalse id

/-- A value is a number from `lo` to `hi`. -/
def Within (lo hi x : FloatVal α) : Prop := lo ≤ x ∧ x ≤ hi

instance [DecidableLE α] (lo hi x : FloatVal α) : Decidable (Within lo hi x) :=
  inferInstanceAs (Decidable (_ ∧ _))

section Order

variable {a b c lo hi : FloatVal α} {x y : α}

@[simp] theorem num_lt_num : num x < num y ↔ x < y := .rfl
@[simp] theorem num_le_num : num x ≤ num y ↔ x ≤ y := .rfl
@[simp] theorem not_nan_lt : ¬ nan < a := id
@[simp] theorem not_nan_le : ¬ nan ≤ a := id

@[simp] theorem not_lt_nan : ¬ a < nan := by
  cases a <;> exact id

@[simp] theorem not_le_nan : ¬ a ≤ nan := by
  cases a <;> exact id

theorem le_of_float_lt (h : a < b) : a ≤ b := by
  cases a with
  | nan => exact absurd h not_nan_lt
  | num x =>
      cases b with
      | nan => exact absurd h not_lt_nan
      | num y => exact le_of_lt (num_lt_num.mp h)

/-- Only numbers are below anything. -/
theorem ne_nan_of_le (h : a ≤ b) : a ≠ nan ∧ b ≠ nan := by
  constructor
  · rintro rfl
    exact not_nan_le h
  · rintro rfl
    exact not_le_nan h

theorem lt_of_float_le_of_lt (h : a ≤ b) (h' : b < c) : a < c := by
  cases a with
  | nan => exact absurd h not_nan_le
  | num x =>
      cases b with
      | nan => exact absurd h not_le_nan
      | num y =>
          cases c with
          | nan => exact absurd h' not_lt_nan
          | num z => exact num_lt_num.mpr (lt_of_le_of_lt (num_le_num.mp h) (num_lt_num.mp h'))

theorem le_of_float_le_of_le (h : a ≤ b) (h' : b ≤ c) : a ≤ c := by
  cases a with
  | nan => exact absurd h not_nan_le
  | num x =>
      cases b with
      | nan => exact absurd h not_le_nan
      | num y =>
          cases c with
          | nan => exact absurd h' not_le_nan
          | num z => exact num_le_num.mpr (le_trans (num_le_num.mp h) (num_le_num.mp h'))

theorem le_refl_of_ne (h : a ≠ nan) : a ≤ a := by
  cases a with
  | nan => exact absurd rfl h
  | num x => exact num_le_num.mpr (le_refl x)

theorem within_left (h : lo ≤ hi) : Within lo hi lo :=
  ⟨le_refl_of_ne (ne_nan_of_le h).1, h⟩

theorem within_right (h : lo ≤ hi) : Within lo hi hi :=
  ⟨h, le_refl_of_ne (ne_nan_of_le h).2⟩

/-- Of two numbers that are not in order, the other one is the smaller one or equal. -/
theorem not_lt [Std.Total fun x y : α => x ≤ y] (ha : a ≠ nan) (hb : b ≠ nan) :
    ¬ a < b ↔ b ≤ a := by
  cases a with
  | nan => exact absurd rfl ha
  | num x =>
      cases b with
      | nan => exact absurd rfl hb
      | num y =>
          rw [num_lt_num, num_le_num, lt_iff_le_not_ge, not_and, Classical.not_not]
          exact ⟨fun h => (Std.Total.total x y).elim h id, fun h _ => h⟩

end Order

/-! ## The minimum and the maximum of C++ -/

variable [DecidableLT α]

def stdMin (a b : FloatVal α) : FloatVal α := if b < a then b else a
def stdMax (a b : FloatVal α) : FloatVal α := if a < b then b else a

section Clamp

variable {lo hi : FloatVal α}

/-- The maximum with `lo` as its first argument is a number, at least `lo`. -/
theorem le_stdMax (h : lo ≠ nan) (x : FloatVal α) : lo ≤ stdMax lo x := by
  rw [stdMax]
  split
  · exact le_of_float_lt ‹_›
  · exact le_refl_of_ne h

/-- **A value between its limits**, whatever it was before: the inner maximum returns `lo`
for what is no number. -/
theorem stdMin_stdMax_within (h : lo ≤ hi) (x : FloatVal α) :
    Within lo hi (stdMin hi (stdMax lo x)) := by
  have hlo := le_stdMax (ne_nan_of_le h).1 x
  rw [stdMin]
  split
  · exact ⟨hlo, le_of_float_lt ‹_›⟩
  · exact within_right h

variable [Std.Total fun x y : α => x ≤ y]

/-- It is at most `hi` unless the other argument is above. -/
theorem stdMax_within_iff (h : lo ≤ hi) (x : FloatVal α) :
    Within lo hi (stdMax lo x) ↔ ¬ hi < x := by
  have hhi := (ne_nan_of_le h).2
  rw [stdMax]
  split
  · rename_i hlt
    have hx : x ≠ nan := (ne_nan_of_le (le_of_float_lt hlt)).2
    rw [not_lt hhi hx]
    exact ⟨And.right, fun hle => ⟨le_of_float_lt hlt, hle⟩⟩
  · rename_i hnot
    exact ⟨fun _ hlt => hnot (lt_of_float_le_of_lt h hlt), fun _ => within_left h⟩

/-- A value between its limits, with the minimum inside. -/
theorem stdMax_stdMin_within (h : lo ≤ hi) (x : FloatVal α) :
    Within lo hi (stdMax lo (stdMin hi x)) := by
  rw [stdMax_within_iff h, stdMin]
  have hhi := (ne_nan_of_le h).2
  split
  · rename_i hlt
    exact (not_lt hhi (ne_nan_of_le (le_of_float_lt hlt)).1).mpr (le_of_float_lt hlt)
  · exact (not_lt hhi hhi).mpr (le_refl_of_ne hhi)

/-- **With the value as the first argument** what is no number goes through. -/
theorem stdMin_stdMax_within_iff (h : lo ≤ hi) (x : FloatVal α) :
    Within lo hi (stdMin (stdMax x lo) hi) ↔ x ≠ nan := by
  obtain ⟨hlo, hhi⟩ := ne_nan_of_le h
  constructor
  · rintro hwithin rfl
    rw [stdMax, if_neg not_nan_lt, stdMin, if_neg not_lt_nan] at hwithin
    exact not_le_nan hwithin.1
  · intro hx
    have hmax : lo ≤ stdMax x lo := by
      rw [stdMax]
      split
      · exact le_refl_of_ne hlo
      · exact (not_lt hx hlo).mp ‹_›
    rw [stdMin]
    split
    · exact within_right h
    · exact ⟨hmax, (not_lt hhi (ne_nan_of_le hmax).2).mp ‹_›⟩

end Clamp

end FloatVal
