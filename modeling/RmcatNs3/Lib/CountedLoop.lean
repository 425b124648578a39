import Mathlib.Data.BitVec

/-!
# Loops over a machine counter

`for (; more(i, s); ++i) body(i, s);` with a counter of `w` bits, which comes back to zero
behind its largest value. A bound that is tested with `<` ends such a loop, and one that is
tested with `<=` ends it unless it is that value. The turns are counted by fuel; `forLoop`
has one more than there are counters.
-/

namespace CountedLoop

variable {w : Nat} {σ : Type*}

/-- The loop from counter `i`, with so many tests: the counter and the state that it ends
with. -/
def loop (more : BitVec w → σ → Bool) (body : BitVec w → σ → σ) :
    Nat → BitVec w → σ → Option (BitVec w × σ)
  | 0, _, _ => none
  | n + 1, i, s => if more i s then loop more body n (i + 1) (body i s) else some (i, s)

def forLoop (more : BitVec w → σ → Bool) (body : BitVec w → σ → σ) (i : BitVec w) (s : σ) :
    Option (BitVec w × σ) :=
  loop more body (2 ^ w + 1) i s

/-- The loop ends, after some number of turns. -/
def Ends (more : BitVec w → σ → Bool) (body : BitVec w → σ → σ) (i : BitVec w) (s : σ) : Prop :=
  ∃ n, (loop more body n i s).isSome

variable {more : BitVec w → σ → Bool} {body : BitVec w → σ → σ} {i j : BitVec w} {s s' : σ}

theorem loop_of_more (n : Nat) (h : more i s = true) :
    loop more body (n + 1) i s = loop more body n (i + 1) (body i s) :=
  if_pos h

theorem loop_of_not_more (n : Nat) (h : ¬ more i s = true) :
    loop more body (n + 1) i s = some (i, s) :=
  if_neg h

/-- **The invariant rule**: what holds at the start and is kept by every turn holds at the
end, where the test fails. -/
theorem loop_invariant {I : BitVec w → σ → Prop} (h0 : I i s)
    (hturn : ∀ i s, I i s → more i s = true → I (i + 1) (body i s)) {n : Nat}
    (h : loop more body n i s = some (j, s')) : I j s' ∧ ¬ more j s' = true := by
  induction n generalizing i s with
  | zero => exact absurd h.symm (Option.some_ne_none _)
  | succ n ih =>
      by_cases hmore : more i s = true
      · rw [loop_of_more n hmore] at h
        exact ih (hturn i s h0 hmore) h
      · rw [loop_of_not_more n hmore] at h
        obtain ⟨rfl, rfl⟩ := Prod.mk.inj (Option.some.inj h)
        exact ⟨h0, hmore⟩

/-- A counter that is not the largest value does not wrap. -/
theorem toNat_add_one (h : i.toNat + 1 < 2 ^ w) : (i + 1).toNat = i.toNat + 1 := by
  have hw : 1 < 2 ^ w := by omega
  have hone : (1 : BitVec w).toNat = 1 := Nat.mod_eq_of_lt hw
  rw [BitVec.toNat_add, hone, Nat.mod_eq_of_lt h]

theorem toNat_succ_of_lt {b : BitVec w} (h : i < b) : (i + 1).toNat = i.toNat + 1 :=
  toNat_add_one (Nat.lt_of_le_of_lt h b.isLt)

/-- **A loop below a bound ends**, however its body goes and wherever it is left. -/
theorem forLoop_isSome_of_lt {b : BitVec w} (hlt : ∀ i s, more i s = true → i < b)
    (i : BitVec w) (s : σ) : (forLoop more body i s).isSome := by
  have hloop : ∀ n i s, b.toNat - i.toNat < n → (loop more body n i s).isSome := by
    intro n
    induction n with
    | zero => exact fun _ _ h => absurd h (Nat.not_lt_zero _)
    | succ n ih =>
        intro i s hn
        by_cases hmore : more i s = true
        · have hb := hlt i s hmore
          have hsucc := toNat_succ_of_lt hb
          have hi : i.toNat < b.toNat := hb
          rw [loop_of_more n hmore]
          exact ih (i + 1) (body i s) (by omega)
        · rw [loop_of_not_more n hmore]
          rfl
  have hb := b.isLt
  exact hloop (2 ^ w + 1) i s (by omega)

/-- A bound that is not the largest value is a bound for `<`, one higher. -/
theorem le_iff_lt_succ {b : BitVec w} (hb : b ≠ BitVec.allOnes w) : i ≤ b ↔ i < b + 1 := by
  have hne : b.toNat ≠ 2 ^ w - 1 := by
    intro heq
    refine hb (BitVec.eq_of_toNat_eq ?_)
    rw [heq, BitVec.toNat_allOnes]
  have hlt := b.isLt
  have hsucc : (b + 1).toNat = b.toNat + 1 := toNat_add_one (by omega)
  rw [BitVec.le_def, BitVec.lt_def, hsucc]
  omega

/-- Every counter is below the largest value, so a loop up to it takes one more turn. -/
theorem loop_allOnes (n : Nat) (i : BitVec w) (s : σ) :
    loop (fun i _ => decide (i ≤ BitVec.allOnes w)) body n i s = none := by
  induction n generalizing i s with
  | zero => rfl
  | succ n ih =>
      have hle : i ≤ BitVec.allOnes w := by
        have hlt := i.isLt
        rw [BitVec.le_def, BitVec.toNat_allOnes]
        omega
      rw [loop_of_more n (decide_eq_true hle)]
      exact ih (i + 1) (body i s)

/-- **A loop up to a bound ends** exactly if it does not begin, or the bound is not the
largest value. -/
theorem forLoop_le_isSome_iff {b : BitVec w} :
    (forLoop (fun i _ => decide (i ≤ b)) body i s).isSome ↔ b < i ∨ b ≠ BitVec.allOnes w := by
  constructor
  · intro hsome
    -- up to the largest value no test ever fails
    by_contra hnot
    obtain ⟨hle, hb⟩ := not_or.mp hnot
    obtain rfl := not_not.mp hb
    rw [forLoop, loop_allOnes] at hsome
    exact absurd hsome Bool.false_ne_true
  · rintro (hlt | hb)
    · have hnot : ¬ decide (i ≤ b) = true := by
        simpa using hlt
      rw [forLoop, loop_of_not_more _ hnot]
      rfl
    · have hbelow : ∀ (i : BitVec w) (_ : σ), decide (i ≤ b) = true → i < b + 1 :=
        fun _ _ hmore => (le_iff_lt_succ hb).mp (of_decide_eq_true hmore)
      exact forLoop_isSome_of_lt hbelow i s

/-- The tests that `forLoop` has are enough: a loop up to a bound that takes all of them
never ends. -/
theorem ends_le_iff {b : BitVec w} :
    Ends (fun i _ => decide (i ≤ b)) body i s ↔ b < i ∨ b ≠ BitVec.allOnes w := by
  constructor
  · rintro ⟨n, hsome⟩
    by_contra hnot
    obtain ⟨_, hb⟩ := not_or.mp hnot
    obtain rfl := not_not.mp hb
    rw [loop_allOnes] at hsome
    exact absurd hsome Bool.false_ne_true
  · intro h
    exact ⟨_, forLoop_le_isSome_iff.mpr h⟩

end CountedLoop
