import Mathlib.Order.Basic
import Mathlib.Data.Fintype.Basic
import RmcatNs3.Lib.MachineInt

/-!
# Unwrapping

Counters of which only the low `w` bits are seen. A number is read as the
counter nearest to the last one that has these bits; between two at the same
distance the number itself decides, and a counter below `0` is never chosen.
-/

namespace Unwrapping

open MachineInt

/-- The low `w` bits of a counter. -/
def low (w : Nat) (s : Int) : Fin (2 ^ w) := ⟨toUnsigned w s, toUnsigned_lt w s⟩

theorem low_cast (w : Nat) (s : Int) : ((low w s : Nat) : Int) = s % 2 ^ w :=
  toUnsigned_cast w s

/-- The counter that `val` stands for after `last`. -/
def next (w : Nat) (last val : Int) : Int :=
  let ahead := (val - last) % 2 ^ w
  if 2 * ahead < 2 ^ w ∨ 2 * ahead = 2 ^ w ∧ last % 2 ^ w < val then last + ahead
  else if 2 ^ w ≤ last + ahead then last + ahead - 2 ^ w
  else last + ahead

theorem two_pow_pos (w : Nat) : (0 : Int) < 2 ^ w := Int.pow_pos (by decide)

variable {w : Nat} {last val : Int}

/-- A counter that is chosen is one of two. -/
theorem next_cases (w : Nat) (last val : Int) :
    next w last val = last + (val - last) % 2 ^ w ∨
    next w last val = last + (val - last) % 2 ^ w - 2 ^ w ∧
      2 ^ w ≤ last + (val - last) % 2 ^ w := by
  unfold next
  simp only
  split
  · exact .inl rfl
  · split
    · rename_i hle
      exact .inr ⟨rfl, hle⟩
    · exact .inl rfl

theorem next_nonneg (h : 0 ≤ last) : 0 ≤ next w last val := by
  have hahead := Int.emod_nonneg (val - last) (Int.ne_of_gt (two_pow_pos w))
  rcases next_cases w last val with heq | ⟨heq, hle⟩
  · rw [heq]
    omega
  · rw [heq]
    omega

theorem next_emod (w : Nat) (last val : Int) : next w last val % 2 ^ w = val % 2 ^ w := by
  have hsum : (last + (val - last) % 2 ^ w) % 2 ^ w = val % 2 ^ w := by
    rw [Int.add_emod_emod]
    congr 1
    omega
  rcases next_cases w last val with heq | ⟨heq, _⟩
  · rw [heq, hsum]
  · rw [heq, Int.sub_emod_right, hsum]

/-- **A counter is recovered** if it moved by less than half of the circle. -/
theorem next_eq {s : Int} (hw : 0 < w) (hs : 0 ≤ s) (hnear : (s - last).natAbs < 2 ^ (w - 1)) :
    next w last (s % 2 ^ w) = s := by
  have hhalf : (2 : Int) ^ w = 2 * 2 ^ (w - 1) := by
    rw [← Int.pow_succ', Nat.sub_one_add_one (by omega)]
  have hcast : ((2 ^ (w - 1) : Nat) : Int) = 2 ^ (w - 1) := by push_cast; rfl
  have hahead : (s % 2 ^ w - last) % 2 ^ w = (s - last) % 2 ^ w := Int.emod_sub_emod _ _ _
  unfold next
  simp only [hahead]
  rcases Int.lt_or_le s last with hlt | hge
  · -- backwards: the forward distance is more than half of the circle
    have hround : (s - last) % 2 ^ w = s - last + 2 ^ w := by
      rw [← Int.add_emod_right, Int.emod_eq_of_lt] <;> omega
    rw [hround, if_neg (by omega), if_pos (by omega)]
    omega
  · have hstay : (s - last) % 2 ^ w = s - last := Int.emod_eq_of_lt (by omega) (by omega)
    rw [hstay, if_pos (by omega)]
    omega

/-- The first number is taken as it is. -/
theorem next_zero (h0 : 0 ≤ val) (hval : val < 2 ^ w) : next w 0 val = val := by
  have hahead : (val - 0) % 2 ^ w = val := by
    rw [Int.sub_zero, Int.emod_eq_of_lt h0 hval]
  unfold next
  simp only [hahead]
  split
  · omega
  · rw [if_neg (by omega)]
    omega

/-! ## Unwrappers -/

variable {σ : Type*}

/-- What an unwrapper returns for numbers, one after the other. -/
def results {α : Type*} (unwrap : σ → α → Int × σ) : σ → List α → List Int
  | _, [] => []
  | wrap, val :: vals => (unwrap wrap val).1 :: results unwrap (unwrap wrap val).2 vals

/-- **The law of unwrapping** `w` bits. -/
structure Law (w : Nat) (unwrap : σ → Fin (2 ^ w) → Int × σ) (init : σ) : Prop where
  /-- Counters are recovered that start below `2 ^ w` and move by less than
  half of the circle. -/
  recovers : ∀ s : List Int, (∀ x ∈ s, 0 ≤ x) → (∀ x ∈ s.head?, x < 2 ^ w) →
    s.IsChain (fun a b => (b - a).natAbs < 2 ^ (w - 1)) →
    results unwrap init (s.map (low w)) = s
  /-- Whatever the numbers are, the counters have them as their low bits. -/
  congruent : ∀ vals : List (Fin (2 ^ w)),
    List.Forall₂ (fun r val => 0 ≤ r ∧ r % 2 ^ w = ((val : Nat) : Int))
      (results unwrap init vals) vals

/-- An unwrapper that remembers the last counter and chooses the next one. -/
structure Chooses (w : Nat) (unwrap : σ → Fin (2 ^ w) → Int × σ) (lastOf : σ → Int) : Prop where
  result : ∀ wrap val, 0 ≤ lastOf wrap → (unwrap wrap val).1 = next w (lastOf wrap) (val : Nat)
  last : ∀ wrap val, lastOf (unwrap wrap val).2 = (unwrap wrap val).1

variable {unwrap : σ → Fin (2 ^ w) → Int × σ} {lastOf : σ → Int} {wrap : σ}

theorem val_emod (val : Fin (2 ^ w)) : ((val : Nat) : Int) % 2 ^ w = (val : Nat) := by
  have hlt := val.isLt
  exact Int.emod_eq_of_lt (Int.natCast_nonneg _) (by exact_mod_cast hlt)

theorem Chooses.results_congruent (h : Chooses w unwrap lastOf) (h0 : 0 ≤ lastOf wrap)
    (vals : List (Fin (2 ^ w))) :
    List.Forall₂ (fun r val => 0 ≤ r ∧ r % 2 ^ w = ((val : Nat) : Int))
      (results unwrap wrap vals) vals := by
  induction vals generalizing wrap with
  | nil => exact .nil
  | cons val vals ih =>
      have hres := h.result wrap val h0
      have hpos : 0 ≤ (unwrap wrap val).1 := hres ▸ next_nonneg h0
      refine .cons ⟨hpos, ?_⟩ (ih ?_)
      · rw [hres, next_emod, val_emod]
      · rw [h.last]
        exact hpos

/-- From an unwrapper that has seen `p`, counters are recovered. -/
theorem Chooses.results_eq (h : Chooses w unwrap lastOf) (hw : 0 < w) {p : Int}
    (hp : lastOf wrap = p) {s : List Int} (h0 : ∀ x ∈ p :: s, 0 ≤ x)
    (hchain : (p :: s).IsChain (fun a b => (b - a).natAbs < 2 ^ (w - 1))) :
    results unwrap wrap (s.map (low w)) = s := by
  induction s generalizing wrap p with
  | nil => rfl
  | cons x s ih =>
      rw [List.isChain_cons_cons] at hchain
      have hres : (unwrap wrap (low w x)).1 = x := by
        rw [h.result _ _ (hp ▸ h0 p (by simp)), low_cast, hp]
        exact next_eq hw (h0 x (by simp)) hchain.1
      have hlast : lastOf (unwrap wrap (low w x)).2 = x := by rw [h.last, hres]
      rw [List.map_cons, results, hres,
        ih hlast (fun y hy => h0 y (List.mem_cons_of_mem p hy)) hchain.2]

/-- **An unwrapper that chooses the nearest counter obeys the law.** -/
theorem Chooses.law (h : Chooses w unwrap lastOf) (hw : 0 < w) {init : σ}
    (hinit : lastOf init = 0) : Law w unwrap init where
  congruent := h.results_congruent (Int.le_of_eq hinit.symm)
  recovers := by
    intro s h0 hfirst hchain
    cases s with
    | nil => rfl
    | cons x s =>
        have hx : x % 2 ^ w = x := Int.emod_eq_of_lt (h0 x (by simp)) (hfirst x (by simp))
        have hres : (unwrap init (low w x)).1 = x := by
          rw [h.result _ _ (Int.le_of_eq hinit.symm), low_cast, hinit, hx]
          exact next_zero (h0 x (by simp)) (hfirst x (by simp))
        have hlast : lastOf (unwrap init (low w x)).2 = x := by rw [h.last, hres]
        rw [List.map_cons, results, hres, h.results_eq hw hlast h0 hchain]

end Unwrapping
