/-!
# Arrays with checked indices

Reading and writing an array of fixed size; an index outside the array is
`none`. `storeAll` writes some values one after the other.
-/

namespace BoundedArray

variable {α : Type} {n : Nat}

def load (a : Vector α n) (i : Nat) : Option α := a[i]?

def store (a : Vector α n) (i : Nat) (x : α) : Option (Vector α n) :=
  if h : i < n then some (a.set i x h) else none

/-- Write the values from index `i` on. -/
def storeAll (a : Vector α n) (i : Nat) : List α → Option (Vector α n)
  | [] => some a
  | x :: xs => do
      let a ← store a i x
      storeAll a (i + 1) xs

/-- Read at an index that may be negative. -/
def loadInt (a : Vector α n) (i : Int) : Option α := if 0 ≤ i then load a i.toNat else none

/-- Write at an index that may be negative. -/
def storeInt (a : Vector α n) (i : Int) (x : α) : Option (Vector α n) :=
  if 0 ≤ i then store a i.toNat x else none

/-- The first `k` values. -/
def loadAll (a : Vector α n) (k : Nat) : Option (List α) :=
  if k ≤ n then some (a.toList.take k) else none

theorem load_isSome {a : Vector α n} {i : Nat} (h : i < n) : ∃ x, load a i = some x :=
  ⟨a[i], Vector.getElem?_eq_getElem h⟩

theorem store_isSome {a : Vector α n} {i : Nat} (h : i < n) (x : α) :
    ∃ a', store a i x = some a' :=
  ⟨a.set i x h, dif_pos h⟩

theorem storeInt_isSome {a : Vector α n} {i : Int} (h0 : 0 ≤ i) (h : i < n) (x : α) :
    ∃ a', storeInt a i x = some a' := by
  obtain ⟨a', hstore⟩ := store_isSome (a := a) (show i.toNat < n by omega) x
  exact ⟨a', (if_pos h0).trans hstore⟩

theorem loadAll_eq {a : Vector α n} {k : Nat} (h : k ≤ n) :
    ∃ xs, loadAll a k = some xs ∧ xs.length = k :=
  ⟨a.toList.take k, if_pos h, by simp [h]⟩

theorem store_lt {a a' : Vector α n} {i : Nat} {x : α} (h : store a i x = some a') :
    i < n := by
  unfold store at h
  split at h
  · assumption
  · cases h

/-- What is stored is found, and the other elements stay. -/
theorem load_store {a a' : Vector α n} {i : Nat} {x : α} (h : store a i x = some a')
    (j : Nat) : load a' j = if j = i then some x else load a j := by
  have hi := store_lt h
  rw [store, dif_pos hi, Option.some.injEq] at h
  subst h
  unfold load
  by_cases hj : j = i
  · subst hj
    simp [hi]
  · simp [hj, Vector.getElem?_set_ne hi (Ne.symm hj)]

/-- The values that are found from the start on are the first ones. -/
theorem take_toList_of_load {a : Vector α n} {xs : List α} {k : Nat} (hk : xs.length = k)
    (h : ∀ j, j < k → load a j = xs[j]?) : a.toList.take k = xs := by
  apply List.ext_getElem?
  intro j
  rcases Nat.lt_or_ge j k with hlt | hge
  · rw [List.getElem?_take_of_lt hlt, ← h j hlt, load]
    simp
  · have htake : (a.toList.take k).length ≤ j := Nat.le_trans (List.length_take_le ..) hge
    rw [List.getElem?_eq_none htake, List.getElem?_eq_none (hk ▸ hge)]

/-- A value that is stored behind the first ones is the next one. -/
theorem take_toList_store {a a' : Vector α n} {k : Nat} {x : α} (h : store a k x = some a') :
    a'.toList.take (k + 1) = a.toList.take k ++ [x] := by
  have hlen : (a.toList.take k).length = k := by
    rw [List.length_take, Vector.length_toList]
    exact Nat.min_eq_left (Nat.le_of_lt (store_lt h))
  refine take_toList_of_load (by rw [List.length_append, hlen, List.length_singleton])
    fun j hj => ?_
  rw [load_store h]
  by_cases hjk : j = k
  · rw [if_pos hjk, hjk, List.getElem?_append_right (Nat.le_of_eq hlen), hlen, Nat.sub_self]
    rfl
  · have hlt : j < k := by omega
    rw [if_neg hjk, List.getElem?_append_left (by rwa [hlen]), List.getElem?_take_of_lt hlt, load]
    simp

/-- The values fit, and are found where they have been written. -/
theorem storeAll_eq {xs : List α} {a : Vector α n} {i : Nat} (h : i + xs.length ≤ n) :
    ∃ a', storeAll a i xs = some a' ∧
      (∀ j, j < xs.length → load a' (i + j) = xs[j]?) ∧
      ∀ j, j < i → load a' j = load a j := by
  induction xs generalizing a i with
  | nil => exact ⟨a, rfl, nofun, fun _ _ => rfl⟩
  | cons x xs ih =>
      simp only [List.length_cons] at h
      obtain ⟨a₁, hstore⟩ := store_isSome (a := a) (show i < n by omega) x
      obtain ⟨a₂, hall, hnew, hold⟩ := ih (a := a₁) (i := i + 1) (by omega)
      refine ⟨a₂, ?_, ?_, ?_⟩
      · simp only [storeAll, hstore, Option.bind_eq_bind, Option.bind_some, hall]
      · intro j hj
        cases j with
        | zero =>
            rw [Nat.add_zero, hold i (Nat.lt_succ_self i), load_store hstore]
            simp
        | succ j =>
            have hlt : j < xs.length := by simpa using hj
            rw [show i + (j + 1) = i + 1 + j by omega, hnew j hlt]
            rfl
      · intro j hj
        rw [hold j (by omega), load_store hstore, if_neg (by omega)]

end BoundedArray
