import Mathlib.Logic.Function.Basic

/-!
# Scans of a ring

A ring of `N` cells is a function on indices that are taken modulo `N`. A loop
over a range of unreduced indices visits the cells of `slots`; it may come past a cell
more than once.
-/

namespace RingScan

/-- The cells visited by indices from `lo` up to, but not including, `hi`. -/
def slots (N lo hi : Nat) : List Nat := (List.range' lo (hi - lo)).map (· % N)

/-- `while (x < lo) x += N;`, with fuel. -/
def liftTo (N lo : Nat) : Nat → Nat → Nat
  | 0, x => x
  | fuel + 1, x => if x < lo then liftTo N lo fuel (x + N) else x

theorem mem_slots {N lo hi n : Nat} :
    n ∈ slots N lo hi ↔ ∃ m, lo ≤ m ∧ m < hi ∧ m % N = n := by
  simp only [slots, List.mem_map, List.mem_range'_1]
  constructor
  · intro ⟨m, hm, hn⟩
    exact ⟨m, hm.1, by omega, hn⟩
  · intro ⟨m, hlo, hhi, hn⟩
    exact ⟨m, ⟨hlo, by omega⟩, hn⟩

/-- The index ends up at or above `lo`, by less than one turn, and at the same cell. -/
theorem liftTo_spec {N lo : Nat} (fuel x : Nat) (hN : 0 < N) (hx : x < lo + N)
    (hfuel : lo ≤ x + fuel) :
    lo ≤ liftTo N lo fuel x ∧ liftTo N lo fuel x < lo + N ∧
      liftTo N lo fuel x % N = x % N := by
  induction fuel generalizing x with
  | zero => exact ⟨hfuel, hx, rfl⟩
  | succ fuel ih =>
      unfold liftTo
      by_cases hlt : x < lo
      · rw [if_pos hlt]
        obtain ⟨hle, hsup, hmod⟩ := ih (x + N) (by omega) (by omega)
        exact ⟨hle, hsup, by rw [hmod, Nat.add_mod_right]⟩
      · rw [if_neg hlt]
        exact ⟨Nat.le_of_not_lt hlt, hx, rfl⟩

/-- A loop that changes every visited cell by a function that is idempotent. -/
theorem foldl_update {α : Type} {g : α → α} (hg : ∀ a, g (g a) = g a) (visited : List Nat)
    (cells : Nat → α) :
    visited.foldl (fun cells n => Function.update cells n (g (cells n))) cells =
      fun n => if n ∈ visited then g (cells n) else cells n := by
  induction visited generalizing cells with
  | nil => simp
  | cons m rest ih =>
      rw [List.foldl_cons, ih]
      funext n
      by_cases hn : n = m
      · subst hn
        simp [hg]
      · simp [hn]

end RingScan
