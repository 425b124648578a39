import Mathlib.Algebra.BigOperators.Group.List.Basic
import Mathlib.Algebra.Ring.Int.Defs
import Mathlib.Data.Nat.ModEq
import RmcatNs3.Lib.BoundedArray

/-!
# Circular buffers

An array that is read from an origin on, around its end: the `k`-th element is in the
cell `(origin + k) % n`. The origin moves up one by one, and the cell that it leaves
becomes the last one.
-/

namespace CircularBuffer

open BoundedArray

variable {α : Type} {n origin : Nat} {v v' : Vector α n} {f : Nat → α}

/-- The elements from the origin on are those of `f`. -/
def Shows (v : Vector α n) (origin : Nat) (f : Nat → α) : Prop :=
  ∀ k, k < n → load v ((origin + k) % n) = some (f k)

/-- The cell after another one. -/
def next (n i : Nat) : Nat := if i + 1 ≥ n then 0 else i + 1

theorem next_lt {i : Nat} (h : i < n) : next n i < n := by
  unfold next
  split <;> omega

theorem next_add_mod {i k : Nat} (h : i < n) : (next n i + k) % n = (i + (k + 1)) % n := by
  unfold next
  split
  · have hi : i + 1 = n := by omega
    rw [← Nat.add_assoc, Nat.add_right_comm, hi, Nat.add_mod_left, Nat.zero_add]
  · rw [Nat.add_assoc, Nat.add_comm 1 k]

/-- Different places are different cells. -/
theorem add_mod_ne {j k : Nat} (hj : j < n) (hk : k < n) (hne : j ≠ k) :
    (origin + j) % n ≠ (origin + k) % n := by
  intro heq
  have hmod : j % n = k % n := Nat.ModEq.add_left_cancel' origin heq
  rw [Nat.mod_eq_of_lt hj, Nat.mod_eq_of_lt hk] at hmod
  exact hne hmod

theorem Shows.congr {g : Nat → α} (h : Shows v origin f) (hfg : ∀ k, k < n → f k = g k) :
    Shows v origin g := by
  intro k hk
  rw [← hfg k hk]
  exact h k hk

/-- The `j`-th element is written. -/
theorem Shows.store {j : Nat} {x : α} (h : Shows v origin f) (hj : j < n)
    (hstore : store v ((origin + j) % n) x = some v') :
    Shows v' origin (fun k => if k = j then x else f k) := by
  intro k hk
  rw [load_store hstore]
  by_cases hkj : k = j
  · subst hkj
    simp
  · simp only [if_neg (add_mod_ne hk hj hkj), if_neg hkj]
    exact h k hk

/-- **The origin moves up**, once the first element has been written. -/
theorem Shows.advance {x : α} (h : Shows v origin f) (horigin : origin < n)
    (hstore : BoundedArray.store v origin x = some v') :
    Shows v' (next n origin) (fun k => if k + 1 = n then x else f (k + 1)) := by
  have hpos : 0 < n := by omega
  have hzero : (origin + 0) % n = origin := by
    rw [Nat.add_zero, Nat.mod_eq_of_lt horigin]
  have hwritten := h.store hpos (hzero.symm ▸ hstore)
  intro k hk
  rw [next_add_mod horigin]
  by_cases hlast : k + 1 = n
  · have hfirst := hwritten 0 hpos
    simp only [if_true, hzero] at hfirst
    simp only [hlast, Nat.add_mod_right, Nat.mod_eq_of_lt horigin, if_true]
    exact hfirst
  · have hnext := hwritten (k + 1) (by omega)
    simp only [if_neg (Nat.succ_ne_zero k)] at hnext
    simp only [if_neg hlast]
    exact hnext

theorem exists_shows (v : Vector α n) (origin : Nat) (h : 0 < n) : ∃ f, Shows v origin f :=
  ⟨fun k => v.get ⟨(origin + k) % n, Nat.mod_lt _ h⟩, fun _ _ => Vector.getElem?_eq_getElem _⟩

/-! ## Queues

Cells that may be in use: the first ones from the origin on hold a queue. -/

section

variable {β : Type} {held : α → Option β} {l : List β}

/-- The cells from the origin on hold the elements of a list, and the others none. -/
def Queues (v : Vector α n) (origin : Nat) (held : α → Option β) (l : List β) : Prop :=
  ∃ f, Shows v origin f ∧ ∀ k, k < n → held (f k) = l[k]?

theorem Queues.nil (hn : 0 < n) (h : ∀ i x, load v i = some x → held x = none) :
    Queues v origin held [] := by
  obtain ⟨f, hf⟩ := exists_shows v origin hn
  exact ⟨f, hf, fun k hk => h _ _ (hf k hk)⟩

/-- The cell at the origin holds the first element. -/
theorem Queues.head (h : Queues v origin held l) (horigin : origin < n) :
    ∃ x, load v origin = some x ∧ held x = l.head? := by
  obtain ⟨f, hf, hl⟩ := h
  have hn : 0 < n := Nat.zero_lt_of_lt horigin
  have hload := hf 0 hn
  rw [Nat.add_zero, Nat.mod_eq_of_lt horigin] at hload
  exact ⟨f 0, hload, by rw [hl 0 hn, List.head?_eq_getElem?]⟩

/-- An element is written after the last one. -/
theorem Queues.push {x : α} {b : β} (h : Queues v origin held l) (hlen : l.length < n)
    (hstore : store v ((origin + l.length) % n) x = some v') (hx : held x = some b) :
    Queues v' origin held (l ++ [b]) := by
  obtain ⟨f, hf, hl⟩ := h
  refine ⟨_, hf.store hlen hstore, ?_⟩
  intro k hk
  by_cases hlast : k = l.length
  · simp [hlast, hx]
  · simp only [if_neg hlast, hl k hk]
    rcases Nat.lt_or_ge k l.length with hlt | hge
    · rw [List.getElem?_append_left hlt]
    · rw [List.getElem?_eq_none hge, List.getElem?_eq_none (by simp; omega)]

/-- The cell at the origin is no longer in use, and the origin moves up. -/
theorem Queues.pop {x : α} (h : Queues v origin held l) (hlen : l.length ≤ n)
    (horigin : origin < n) (hstore : store v origin x = some v') (hx : held x = none) :
    Queues v' (next n origin) held l.tail := by
  obtain ⟨f, hf, hl⟩ := h
  refine ⟨_, hf.advance horigin hstore, ?_⟩
  intro k hk
  rw [List.getElem?_tail]
  by_cases hlast : k + 1 = n
  · simp only [if_pos hlast, hx]
    rw [List.getElem?_eq_none (by omega)]
  · simp only [if_neg hlast]
    exact hl (k + 1) (by omega)

end

/-- What writing an element does to a sum over all of them. -/
theorem sum_store (g : α → Int) {i : Nat} {x y : α} (hload : load v i = some y)
    (hstore : store v i x = some v') :
    (v'.toList.map g).sum = (v.toList.map g).sum - g y + g x := by
  have hi := store_lt hstore
  rw [BoundedArray.store, dif_pos hi, Option.some.injEq] at hstore
  subst hstore
  have hy : v[i] = y := by
    rw [load, Vector.getElem?_eq_getElem hi] at hload
    exact Option.some.inj hload
  rw [Vector.toList_set, List.map_set, List.sum_set']
  have hlen : i < (v.toList.map g).length := by simpa using hi
  rw [dif_pos hlen]
  simp only [List.getElem_map, Vector.getElem_toList, hy]
  omega

end CircularBuffer
