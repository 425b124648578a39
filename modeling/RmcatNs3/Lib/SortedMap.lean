import Mathlib.Order.Lattice
import Mathlib.Data.List.Sort

/-!
# Sorted maps

Finite maps whose bindings are kept in the order of their keys. The order is
part of the type, so the first binding is the least one and the binding after
a key is its successor.
-/

/-- A finite map from `K` to `V`, with its bindings in increasing order. -/
structure SortedMap (K V : Type) [LinearOrder K] where
  toList : List (K × V)
  sorted : toList.Pairwise fun a b => a.1 < b.1

namespace SortedMap

variable {K V : Type} [LinearOrder K]

@[ext] theorem ext {m m' : SortedMap K V} (h : m.toList = m'.toList) : m = m' := by
  cases m
  cases m'
  cases h
  rfl

instance : Membership (K × V) (SortedMap K V) := ⟨fun m b => b ∈ m.toList⟩

theorem mem_def {m : SortedMap K V} {b : K × V} : b ∈ m ↔ b ∈ m.toList := Iff.rfl

def empty : SortedMap K V := ⟨[], .nil⟩

def size (m : SortedMap K V) : Nat := m.toList.length

/-- The binding of a key. -/
def find? (m : SortedMap K V) (k : K) : Option (K × V) :=
  m.toList.find? fun b => decide (b.1 = k)

/-- The value bound to a key. -/
def lookup (m : SortedMap K V) (k : K) : Option V :=
  (m.find? k).map (·.2)

/-- The least binding. -/
def first? (m : SortedMap K V) : Option (K × V) := m.toList.head?

/-- The least binding with a greater key. -/
def next? (m : SortedMap K V) (k : K) : Option (K × V) :=
  m.toList.find? fun b => decide (k < b.1)

/-! ## Two sides of a key -/

/-- The bindings below a key. -/
def below (m : SortedMap K V) (k : K) : List (K × V) :=
  m.toList.filter fun b => decide (b.1 < k)

/-- The bindings above a key. -/
def above (m : SortedMap K V) (k : K) : List (K × V) :=
  m.toList.filter fun b => decide (k < b.1)

/-- Bindings on both sides of `k`, in order. -/
theorem sorted_around {l r : List (K × V)} {k : K} {v : V}
    (hl : l.Pairwise fun a b => a.1 < b.1) (hr : r.Pairwise fun a b => a.1 < b.1)
    (hlk : ∀ b ∈ l, b.1 < k) (hkr : ∀ b ∈ r, k < b.1) :
    (l ++ (k, v) :: r).Pairwise fun a b => a.1 < b.1 := by
  rw [List.pairwise_append, List.pairwise_cons]
  refine ⟨hl, ⟨hkr, hr⟩, ?_⟩
  intro a ha b hb
  rcases List.mem_cons.mp hb with rfl | hb
  · exact hlk a ha
  · exact lt_trans (hlk a ha) (hkr b hb)

theorem mem_below {m : SortedMap K V} {k : K} {b : K × V} :
    b ∈ m.below k ↔ b ∈ m ∧ b.1 < k := by
  simp [below, mem_def]

theorem mem_above {m : SortedMap K V} {k : K} {b : K × V} :
    b ∈ m.above k ↔ b ∈ m ∧ k < b.1 := by
  simp [above, mem_def]

/-! ## Updates -/

/-- Bind a key that has no binding; a binding that exists stays. -/
def insert (m : SortedMap K V) (k : K) (v : V) : SortedMap K V :=
  if (m.find? k).isSome then m
  else
    { toList := m.below k ++ (k, v) :: m.above k
      sorted := sorted_around (m.sorted.filter _) (m.sorted.filter _)
        (fun _ hb => (mem_below.mp hb).2) (fun _ hb => (mem_above.mp hb).2) }

def erase (m : SortedMap K V) (k : K) : SortedMap K V where
  toList := m.toList.filter fun b => decide (b.1 ≠ k)
  sorted := m.sorted.filter _

/-- Change the value of a key that has a binding. -/
def modify (m : SortedMap K V) (k : K) (f : V → V) : SortedMap K V where
  toList := m.toList.map fun b => if b.1 = k then (b.1, f b.2) else b
  sorted := by
    rw [List.pairwise_map]
    refine m.sorted.imp fun hlt => ?_
    split <;> split <;> exact hlt

/-! ## Bindings -/

theorem nodup_keys (m : SortedMap K V) : (m.toList.map (·.1)).Nodup := by
  rw [List.Nodup, List.pairwise_map]
  exact m.sorted.imp fun hlt => ne_of_lt hlt

/-- A key has at most one binding. -/
theorem eq_of_mem {m : SortedMap K V} {a b : K × V} (ha : a ∈ m) (hb : b ∈ m)
    (h : a.1 = b.1) : a = b :=
  List.inj_on_of_nodup_map m.nodup_keys ha hb h

theorem find?_eq_some_iff {m : SortedMap K V} {k : K} {b : K × V} :
    m.find? k = some b ↔ b ∈ m ∧ b.1 = k := by
  constructor
  · intro h
    exact ⟨List.mem_of_find?_eq_some h, by simpa using List.find?_some h⟩
  · rintro ⟨hb, rfl⟩
    cases hf : m.find? b.1 with
    | none => exact absurd hb (by simpa [mem_def] using List.find?_eq_none.mp hf b)
    | some b' =>
        have hb' := List.mem_of_find?_eq_some hf
        have hk : b'.1 = b.1 := by simpa using List.find?_some hf
        rw [eq_of_mem hb' hb hk]

theorem find?_eq_none_iff {m : SortedMap K V} {k : K} :
    m.find? k = none ↔ ∀ b ∈ m, b.1 ≠ k := by
  simp [find?, mem_def]

theorem isSome_find?_iff {m : SortedMap K V} {k : K} :
    (m.find? k).isSome ↔ ∃ b ∈ m, b.1 = k := by
  rw [Option.isSome_iff_exists]
  exact exists_congr fun b => find?_eq_some_iff

theorem mem_insert {m : SortedMap K V} {k : K} {v : V} {b : K × V} :
    b ∈ m.insert k v ↔ b ∈ m ∨ m.find? k = none ∧ b = (k, v) := by
  unfold insert
  cases hf : m.find? k with
  | some c => simp
  | none =>
      have hne := find?_eq_none_iff.mp hf
      simp only [Option.isSome_none, Bool.false_eq_true, if_false, true_and]
      rw [mem_def, List.mem_append, List.mem_cons, mem_below, mem_above]
      constructor
      · rintro (h | rfl | h)
        · exact .inl h.1
        · exact .inr rfl
        · exact .inl h.1
      · rintro (h | rfl)
        · rcases lt_trichotomy b.1 k with hlt | heq | hgt
          · exact .inl ⟨h, hlt⟩
          · exact absurd heq (hne b h)
          · exact .inr (.inr ⟨h, hgt⟩)
        · exact .inr (.inl rfl)

theorem mem_erase {m : SortedMap K V} {k : K} {b : K × V} :
    b ∈ m.erase k ↔ b ∈ m ∧ b.1 ≠ k := by
  simp [erase, mem_def]

theorem lookup_eq_some_iff {m : SortedMap K V} {k : K} {v : V} :
    m.lookup k = some v ↔ (k, v) ∈ m := by
  rw [lookup, Option.map_eq_some_iff]
  constructor
  · rintro ⟨b, hb, rfl⟩
    obtain ⟨hm, rfl⟩ := find?_eq_some_iff.mp hb
    exact hm
  · intro h
    exact ⟨(k, v), find?_eq_some_iff.mpr ⟨h, rfl⟩, rfl⟩

/-- A key is found if it is among the keys. -/
theorem isSome_find?_iff_mem_keys {m : SortedMap K V} {k : K} :
    (m.find? k).isSome ↔ k ∈ m.toList.map (·.1) := by
  rw [isSome_find?_iff, List.mem_map]
  exact Iff.rfl

/-- The keys stay when a value changes. -/
theorem keys_modify (m : SortedMap K V) (k : K) (f : V → V) :
    (m.modify k f).toList.map (·.1) = m.toList.map (·.1) := by
  rw [modify, List.map_map]
  apply List.map_congr_left
  intro b _
  rw [Function.comp_apply]
  split <;> rfl

/-- A map is determined by its bindings, and so is its order. -/
theorem toList_eq_filter {m m' : SortedMap K V} {p : K × V → Bool}
    (h : ∀ b, b ∈ m' ↔ b ∈ m ∧ p b = true) : m'.toList = m.toList.filter p := by
  have : Std.Irrefl fun a b : K × V => a.1 < b.1 := ⟨fun a => lt_irrefl a.1⟩
  have : Std.Antisymm fun a b : K × V => a.1 < b.1 :=
    ⟨fun _ _ hlt hgt => absurd hgt (lt_asymm hlt)⟩
  refine List.Pairwise.eq_of_mem_iff m'.sorted (m.sorted.filter p) fun b => ?_
  rw [List.mem_filter]
  exact h b

/-- One binding is alone in having a property. -/
theorem filter_eq_singleton {m : SortedMap K V} {p : K × V → Bool} {a : K × V}
    (h : ∀ b, b ∈ m ∧ p b = true ↔ b = a) : m.toList.filter p = [a] := by
  let alone : SortedMap K V := ⟨[a], List.pairwise_singleton _ a⟩
  have hmem : ∀ b, b ∈ alone ↔ b ∈ m ∧ p b = true := fun b => List.mem_singleton.trans (h b).symm
  exact (toList_eq_filter hmem).symm

/-- Nothing is removed under a key that is not bound. -/
theorem erase_of_lookup_eq_none {m : SortedMap K V} {k : K} (h : m.lookup k = none) :
    m.erase k = m := by
  ext1
  have hne := find?_eq_none_iff.mp (Option.map_eq_none_iff.mp h)
  exact List.filter_eq_self.mpr fun b hb => by simpa using hne b hb

/-! ## Updates at the ends -/

/-- A key above all others is bound at the end. -/
theorem insert_last_toList {m : SortedMap K V} {k : K} {v : V} (h : ∀ b ∈ m, b.1 < k) :
    (m.insert k v).toList = m.toList ++ [(k, v)] := by
  have hf : m.find? k = none := find?_eq_none_iff.mpr fun b hb => ne_of_lt (h b hb)
  have hbelow : m.below k = m.toList :=
    List.filter_eq_self.mpr fun b hb => by simpa using h b hb
  have habove : m.above k = [] :=
    List.filter_eq_nil_iff.mpr fun b hb => by simpa using le_of_lt (h b hb)
  rw [insert, hf, Option.isSome_none]
  simp only [Bool.false_eq_true, if_false, hbelow, habove]

/-- Without its least key, a map is what follows the first binding. -/
theorem erase_first_toList {m : SortedMap K V} {b : K × V} {rest : List (K × V)}
    (h : m.toList = b :: rest) : (m.erase b.1).toList = rest := by
  have hs := m.sorted
  rw [h, List.pairwise_cons] at hs
  have hrest : rest.filter (fun c => decide (c.1 ≠ b.1)) = rest :=
    List.filter_eq_self.mpr fun c hc => by simpa using (ne_of_lt (hs.1 c hc)).symm
  show m.toList.filter _ = rest
  rw [h, List.filter_cons_of_neg (by simp), hrest]

theorem nodup (m : SortedMap K V) : m.toList.Nodup := by
  refine m.sorted.imp ?_
  rintro a b hlt rfl
  exact lt_irrefl _ hlt

/-- A new binding joins the others. -/
theorem insert_perm {m : SortedMap K V} {k : K} {v : V} (h : m.find? k = none) :
    (m.insert k v).toList.Perm ((k, v) :: m.toList) := by
  have hout : (k, v) ∉ m.toList := fun hmem => find?_eq_none_iff.mp h _ hmem rfl
  rw [List.perm_ext_iff_of_nodup (nodup _) (List.nodup_cons.mpr ⟨hout, nodup m⟩)]
  intro b
  rw [← mem_def, mem_insert, List.mem_cons, ← mem_def, or_comm]
  simp only [h, true_and]

/-- A binding leaves the others. -/
theorem erase_perm {m : SortedMap K V} {b : K × V} (h : b ∈ m) :
    m.toList.Perm (b :: (m.erase b.1).toList) := by
  have hout : b ∉ (m.erase b.1).toList := fun hmem => (mem_erase.mp hmem).2 rfl
  rw [List.perm_ext_iff_of_nodup (nodup m) (List.nodup_cons.mpr ⟨hout, nodup _⟩)]
  intro c
  rw [List.mem_cons, ← mem_def, ← mem_def, mem_erase]
  constructor
  · intro hc
    by_cases hkey : c.1 = b.1
    · exact .inl (eq_of_mem hc h hkey)
    · exact .inr ⟨hc, hkey⟩
  · rintro (rfl | hc)
    · exact h
    · exact hc.1

/-- A key that comes to be bound is found. -/
theorem isSome_find?_insert (m : SortedMap K V) (k : K) (v : V) :
    ((m.insert k v).find? k).isSome := by
  rw [isSome_find?_iff]
  cases hfind : m.find? k with
  | none => exact ⟨(k, v), mem_insert.mpr (.inr ⟨hfind, rfl⟩), rfl⟩
  | some b =>
      obtain ⟨hb, hkey⟩ := find?_eq_some_iff.mp hfind
      exact ⟨b, mem_insert.mpr (.inl hb), hkey⟩

/-- Bind some keys, one after the other. -/
def insertAll (m : SortedMap K V) (bs : List (K × V)) : SortedMap K V :=
  bs.foldl (fun m b => m.insert b.1 b.2) m

/-- A key that is bound, or comes to be bound, is found. -/
theorem isSome_find?_insertAll {m : SortedMap K V} {bs : List (K × V)} {k : K}
    (h : (m.find? k).isSome ∨ k ∈ bs.map (·.1)) : ((m.insertAll bs).find? k).isSome := by
  induction bs generalizing m with
  | nil => exact h.resolve_right List.not_mem_nil
  | cons b rest ih =>
      apply ih
      rcases h with h | h
      · obtain ⟨c, hc, hkey⟩ := isSome_find?_iff.mp h
        exact .inl (isSome_find?_iff.mpr ⟨c, mem_insert.mpr (.inl hc), hkey⟩)
      · rcases List.mem_cons.mp h with rfl | h
        · exact .inl (isSome_find?_insert m b.1 b.2)
        · exact .inr h

/-- New bindings join the others. -/
theorem insertAll_perm {m : SortedMap K V} {bs : List (K × V)}
    (h : (bs.map (·.1)).Nodup) (hnew : ∀ b ∈ bs, m.find? b.1 = none) :
    (m.insertAll bs).toList.Perm (bs ++ m.toList) := by
  induction bs generalizing m with
  | nil => exact .refl _
  | cons b rest ih =>
      obtain ⟨hout, hrest⟩ := List.nodup_cons.mp h
      have hb := hnew b (List.mem_cons_self ..)
      have hnew' : ∀ c ∈ rest, (m.insert b.1 b.2).find? c.1 = none := by
        intro c hc
        refine find?_eq_none_iff.mpr ?_
        intro d hd heq
        rcases mem_insert.mp hd with hd | ⟨_, rfl⟩
        · exact find?_eq_none_iff.mp (hnew c (List.mem_cons_of_mem _ hc)) d hd heq
        · exact hout (List.mem_map.mpr ⟨c, hc, heq.symm⟩)
      refine (ih hrest hnew').trans ?_
      exact ((insert_perm hb).append_left rest).trans List.perm_middle

theorem mem_foldl_erase {ks : List K} {m : SortedMap K V} {b : K × V} :
    b ∈ ks.foldl erase m ↔ b ∈ m ∧ b.1 ∉ ks := by
  induction ks generalizing m with
  | nil => simp
  | cons k ks ih =>
      rw [List.foldl_cons, ih, mem_erase, List.mem_cons, not_or, and_assoc]

/-! ## Ranks -/

/-- The first `n` of some bindings in order are those of rank less than `n`. -/
theorem mem_take_iff {l : List (K × V)} (hs : l.Pairwise fun a b => a.1 < b.1)
    {n : Nat} {b : K × V} :
    b ∈ l.take n ↔ b ∈ l ∧ (l.filter fun a => decide (a.1 < b.1)).length < n := by
  induction l generalizing n with
  | nil => simp
  | cons a rest ih =>
      rw [List.pairwise_cons] at hs
      cases n with
      | zero => simp
      | succ n =>
          rw [List.take_succ_cons, List.mem_cons, List.mem_cons, ih hs.2]
          by_cases hab : a.1 < b.1
          · have hne : b ≠ a := by
              rintro rfl
              exact lt_irrefl _ hab
            simp [hab, hne]
          · rw [List.filter_cons_of_neg (by simpa using hab)]
            constructor
            · rintro (rfl | ⟨hb, _⟩)
              · refine ⟨.inl rfl, ?_⟩
                rw [List.filter_eq_nil_iff.mpr
                  fun c hc => by simpa using le_of_lt (hs.1 c hc)]
                exact Nat.succ_pos n
              · exact absurd (hs.1 b hb) hab
            · rintro ⟨rfl | hb, _⟩
              · exact .inl rfl
              · exact absurd (hs.1 b hb) hab

end SortedMap
