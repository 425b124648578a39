import Mathlib.Data.List.DropRight
import Mathlib.Order.Bounds.Basic

/-!
# Monotone deques

The minimum over a sliding window. Of the records of the window the deque keeps those
that none after them is as low as: the first one is the lowest of all. A record has a
time and a value, and the times do not go back.
-/

namespace MonotoneDeque

variable {α τ β : Type*} [LinearOrder τ] [LinearOrder β]

/-- The records before `h` leave at the front. -/
def expire (time : α → τ) (h : τ) (q : List α) : List α := q.dropWhile (time · < h)

/-- The last records give way to a new one that is as low. -/
def push (value : α → β) (x : α) (q : List α) : List α := q.rdropWhile (value x ≤ value ·) ++ [x]

/-- The deque `q` stands for those records of `hist` that are not before `h`. -/
structure Valid (time : α → τ) (value : α → β) (hist q : List α) (h : τ) : Prop where
  times : hist.Pairwise (time · ≤ time ·)
  sublist : q.Sublist hist
  increasing : q.Pairwise (value · < value ·)
  live : ∀ x ∈ q, h ≤ time x
  covers : ∀ x ∈ hist, h ≤ time x → ∃ y ∈ q, time x ≤ time y ∧ value y ≤ value x

variable {time : α → τ} {value : α → β} {hist q : List α} {h h' : τ} {x : α}

theorem Valid.nil (h : τ) : Valid time value [] [] h :=
  ⟨.nil, .slnil, .nil, nofun, nofun⟩

/-- A deque of one record. -/
theorem Valid.singleton (hx : h ≤ time x) : Valid time value [x] [x] h where
  times := List.pairwise_singleton _ x
  sublist := List.Sublist.refl _
  increasing := List.pairwise_singleton _ x
  live := by
    intro y hy
    rwa [List.mem_singleton.mp hy]
  covers := fun y hy _ => ⟨y, hy, le_refl _, le_refl _⟩

theorem Valid.sorted (hv : Valid time value hist q h) : q.Pairwise (time · ≤ time ·) :=
  hv.times.sublist hv.sublist

theorem expire_sublist (q : List α) : (expire time h q).Sublist q := List.dropWhile_sublist _

/-- What is late enough stays. -/
theorem mem_expire (hx : x ∈ q) (hlate : h ≤ time x) : x ∈ expire time h q := by
  rw [← List.takeWhile_append_dropWhile (p := fun y => decide (time y < h)) (l := q)] at hx
  rcases List.mem_append.mp hx with hearly | hx
  · have hlt := List.mem_takeWhile_imp hearly
    rw [decide_eq_true_eq] at hlt
    exact absurd hlt (not_lt.mpr hlate)
  · exact hx

/-- In a sorted list only late records are left. -/
theorem le_of_mem_expire (hsorted : q.Pairwise (time · ≤ time ·)) (hx : x ∈ expire time h q) :
    h ≤ time x := by
  induction q with
  | nil => cases hx
  | cons y q ih =>
      rw [List.pairwise_cons] at hsorted
      by_cases hy : time y < h
      · exact ih hsorted.2 (by simpa [expire, hy] using hx)
      · have hmem : x ∈ y :: q := by simpa [expire, hy] using hx
        rcases List.mem_cons.mp hmem with rfl | hmem
        · exact not_lt.mp hy
        · exact le_trans (not_lt.mp hy) (hsorted.1 x hmem)

/-- **The window moves on.** -/
theorem Valid.expire (hv : Valid time value hist q h) (hle : h ≤ h') :
    Valid time value hist (expire time h' q) h' where
  times := hv.times
  sublist := (expire_sublist q).trans hv.sublist
  increasing := hv.increasing.sublist (expire_sublist q)
  live := fun _ => le_of_mem_expire hv.sorted
  covers := by
    intro x hx hlate
    obtain ⟨y, hy, htime, hvalue⟩ := hv.covers x hx (le_trans hle hlate)
    exact ⟨y, mem_expire hy (le_trans hlate htime), htime, hvalue⟩

theorem rdropWhile_sublist (p : α → Bool) (q : List α) : (q.rdropWhile p).Sublist q :=
  (List.rdropWhile_prefix p q).sublist

/-- What is lower than a new record stays, and in an increasing list all that stays is. -/
theorem mem_rdropWhile_iff (hinc : q.Pairwise (value · < value ·)) {v : β} :
    x ∈ q.rdropWhile (v ≤ value ·) ↔ x ∈ q ∧ value x < v := by
  induction q using List.reverseRecOn with
  | nil => simp
  | append_singleton q y ih =>
      obtain ⟨hq, -, hlast⟩ := List.pairwise_append.mp hinc
      by_cases hy : v ≤ value y
      · rw [List.rdropWhile_concat_pos _ _ _ (by simpa using hy), ih hq, List.mem_append,
          List.mem_singleton]
        constructor
        · rintro ⟨hx, hlt⟩
          exact ⟨.inl hx, hlt⟩
        · rintro ⟨hx | rfl, hlt⟩
          · exact ⟨hx, hlt⟩
          · exact absurd hlt (not_lt.mpr hy)
      · rw [List.rdropWhile_concat_neg _ _ _ (by simpa using hy)]
        constructor
        · intro hx
          refine ⟨hx, ?_⟩
          rcases List.mem_append.mp hx with hx | hx
          · exact lt_trans (hlast x hx y (by simp)) (not_le.mp hy)
          · rw [List.mem_singleton.mp hx]
            exact not_le.mp hy
        · exact fun hx => hx.1

/-- **A new record** is put at the end. -/
theorem Valid.push (hv : Valid time value hist q h) (hlast : ∀ y ∈ hist, time y ≤ time x)
    (hx : h ≤ time x) : Valid time value (hist ++ [x]) (push value x q) h where
  times := by
    refine List.pairwise_append.mpr ⟨hv.times, List.pairwise_singleton _ x, ?_⟩
    intro y hy z hz
    rw [List.mem_singleton.mp hz]
    exact hlast y hy
  sublist := ((rdropWhile_sublist _ q).trans hv.sublist).append (List.Sublist.refl [x])
  increasing := by
    refine List.pairwise_append.mpr ⟨hv.increasing.sublist (rdropWhile_sublist _ q),
      List.pairwise_singleton _ x, ?_⟩
    intro y hy z hz
    rw [List.mem_singleton.mp hz]
    exact ((mem_rdropWhile_iff hv.increasing).mp hy).2
  live := by
    intro y hy
    rcases List.mem_append.mp hy with hy | hy
    · exact hv.live y ((mem_rdropWhile_iff hv.increasing).mp hy).1
    · rwa [List.mem_singleton.mp hy]
  covers := by
    intro y hy hlate
    rcases List.mem_append.mp hy with hy | hy
    · obtain ⟨z, hz, htime, hvalue⟩ := hv.covers y hy hlate
      by_cases hlow : value z < value x
      · exact ⟨z, List.mem_append_left _ ((mem_rdropWhile_iff hv.increasing).mpr ⟨hz, hlow⟩),
          htime, hvalue⟩
      · -- the record that stood for it gives way
        exact ⟨x, by simp [MonotoneDeque.push], hlast y hy, le_trans (not_lt.mp hlow) hvalue⟩
    · obtain rfl := List.mem_singleton.mp hy
      exact ⟨y, by simp [MonotoneDeque.push], le_refl _, le_refl _⟩

/-- **The first record is the lowest** of the window. -/
theorem Valid.isLeast_head (hv : Valid time value hist q h) (hx : q.head? = some x) :
    IsLeast {v | ∃ y ∈ hist, h ≤ time y ∧ value y = v} (value x) := by
  obtain ⟨q', rfl⟩ : ∃ q', q = x :: q' := List.head?_eq_some_iff.mp hx
  constructor
  · exact ⟨x, hv.sublist.subset (List.mem_cons_self ..), hv.live x (List.mem_cons_self ..), rfl⟩
  · rintro v ⟨y, hy, hlate, rfl⟩
    obtain ⟨z, hz, -, hvalue⟩ := hv.covers y hy hlate
    rcases List.mem_cons.mp hz with rfl | hz
    · exact hvalue
    · exact le_trans (le_of_lt ((List.pairwise_cons.mp hv.increasing).1 z hz)) hvalue

end MonotoneDeque
