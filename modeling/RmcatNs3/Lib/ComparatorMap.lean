import Mathlib.Data.List.Pairwise
import Mathlib.Data.Set.Basic
import Mathlib.Order.Defs.Unbundled

/-!
# Maps over a comparator

An ordered map asks only its comparator which of two keys comes first, and
takes two keys for the same one if neither does. It works as a map on the keys
that the comparator tells apart.
-/

variable {K V : Type}

/-! ## Comparators -/

/-- The comparator is a strict weak order on these keys. -/
def StrictWeakOrderOn (lt : K → K → Bool) (S : Set K) : Prop :=
  IsStrictWeakOrder S fun a b => lt a b = true

/-- Neither key comes before the other. -/
def KeyEquiv (lt : K → K → Bool) (a b : K) : Prop :=
  ¬ lt a b = true ∧ ¬ lt b a = true

/-- A strict weak order that takes no two of these keys for the same one. -/
structure TellsApart (lt : K → K → Bool) (S : Set K) : Prop where
  strictWeak : StrictWeakOrderOn lt S
  equiv_iff : ∀ a ∈ S, ∀ b ∈ S, KeyEquiv lt a b ↔ a = b

namespace TellsApart

variable {lt : K → K → Bool} {S : Set K} {a b c : K}

theorem irrefl (h : TellsApart lt S) (ha : a ∈ S) : ¬ lt a a = true :=
  ((h.equiv_iff a ha a ha).mpr rfl).1

theorem trans (h : TellsApart lt S) (ha : a ∈ S) (hb : b ∈ S) (hc : c ∈ S)
    (hab : lt a b = true) (hbc : lt b c = true) : lt a c = true :=
  h.strictWeak.toIsStrictOrder.toIsTrans.trans ⟨a, ha⟩ ⟨b, hb⟩ ⟨c, hc⟩ hab hbc

theorem lt_of_not_lt (h : TellsApart lt S) (ha : a ∈ S) (hb : b ∈ S) (hne : a ≠ b)
    (hab : ¬ lt a b = true) : lt b a = true := by
  by_contra hba
  exact hne ((h.equiv_iff a ha b hb).mp ⟨hab, hba⟩)

theorem mono {T : Set K} (h : TellsApart lt S) (hT : T ⊆ S) : TellsApart lt T where
  strictWeak :=
    { irrefl := fun a => h.irrefl (hT a.2)
      trans := fun a b c => h.trans (hT a.2) (hT b.2) (hT c.2)
      incomp_trans := fun a b c => h.strictWeak.incomp_trans ⟨a, hT a.2⟩ ⟨b, hT b.2⟩ ⟨c, hT c.2⟩ }
  equiv_iff := fun a ha b hb => h.equiv_iff a (hT ha) b (hT hb)

/-- A strict total order tells its keys apart. -/
theorem of_total (hirrefl : ∀ a ∈ S, ¬ lt a a = true)
    (htrans : ∀ a ∈ S, ∀ b ∈ S, ∀ c ∈ S, lt a b = true → lt b c = true → lt a c = true)
    (htotal : ∀ a ∈ S, ∀ b ∈ S, KeyEquiv lt a b → a = b) : TellsApart lt S where
  strictWeak :=
    { irrefl := fun a => hirrefl a a.2
      trans := fun a b c => htrans a a.2 b b.2 c c.2
      incomp_trans := by
        intro a b c hab hbc
        obtain rfl : a = b := Subtype.ext (htotal a a.2 b b.2 hab)
        exact hbc }
  equiv_iff := by
    intro a ha b hb
    refine ⟨htotal a ha b hb, ?_⟩
    intro hab
    exact hab ▸ ⟨hirrefl a ha, hirrefl a ha⟩

end TellsApart

/-! ## Maps -/

/-- Bindings in the order in which the comparator has put them. -/
structure ComparatorMap (K V : Type) (lt : K → K → Bool) where
  toList : List (K × V)

namespace ComparatorMap

variable {lt : K → K → Bool}

def empty : ComparatorMap K V lt := ⟨[]⟩

/-- The binding found by walking down from the first one. -/
def findIn (lt : K → K → Bool) (k : K) : List (K × V) → Option (K × V)
  | [] => none
  | b :: rest =>
      if lt b.1 k then findIn lt k rest
      else if lt k b.1 then none
      else some b

/-- Bind a key unless a binding with an equivalent key is met. -/
def insertIn (lt : K → K → Bool) (k : K) (v : V) : List (K × V) → List (K × V)
  | [] => [(k, v)]
  | b :: rest =>
      if lt k b.1 then (k, v) :: b :: rest
      else if lt b.1 k then b :: insertIn lt k v rest
      else b :: rest

def find? (m : ComparatorMap K V lt) (k : K) : Option (K × V) :=
  findIn lt k m.toList

def insert (m : ComparatorMap K V lt) (k : K) (v : V) : ComparatorMap K V lt :=
  ⟨insertIn lt k v m.toList⟩

/-- The values, in the order of their keys. -/
def values (m : ComparatorMap K V lt) : List V :=
  m.toList.map (·.2)

theorem mem_insertIn {k : K} {v : V} {b : K × V} {l : List (K × V)}
    (hb : b ∈ insertIn lt k v l) : b = (k, v) ∨ b ∈ l := by
  induction l with
  | nil => exact .inl (List.mem_singleton.mp hb)
  | cons c rest ih =>
      unfold insertIn at hb
      split at hb
      · exact List.mem_cons.mp hb
      · split at hb
        · rcases List.mem_cons.mp hb with rfl | hb
          · exact .inr (List.mem_cons_self ..)
          · exact (ih hb).imp_right (List.mem_cons_of_mem _)
        · exact .inr hb

theorem mem_insertIn_of_mem {k : K} {v : V} {b : K × V} {l : List (K × V)}
    (hb : b ∈ l) : b ∈ insertIn lt k v l := by
  induction l with
  | nil => exact absurd hb List.not_mem_nil
  | cons c rest ih =>
      unfold insertIn
      split
      · exact List.mem_cons_of_mem _ hb
      · split
        · rcases List.mem_cons.mp hb with rfl | hb
          · exact List.mem_cons_self ..
          · exact List.mem_cons_of_mem _ (ih hb)
        · exact hb

@[simp] theorem mem_values {m : ComparatorMap K V lt} {v : V} :
    v ∈ m.values ↔ ∃ k, (k, v) ∈ m.toList := by
  simp [values]

theorem mem_values_insert {m : ComparatorMap K V lt} {k : K} {v w : V}
    (hw : w ∈ (m.insert k v).values) : w = v ∨ w ∈ m.values := by
  obtain ⟨c, hc⟩ := mem_values.mp hw
  rcases mem_insertIn hc with heq | hc
  · exact .inl (Prod.mk.inj heq).2
  · exact .inr (mem_values.mpr ⟨c, hc⟩)

/-- A value that is new is not bound twice. -/
theorem nodup_values_insert {m : ComparatorMap K V lt} {k : K} {v : V}
    (hm : m.values.Nodup) (hv : v ∉ m.values) : (m.insert k v).values.Nodup := by
  have hin : ∀ l : List (K × V), (l.map (·.2)).Nodup → v ∉ l.map (·.2) →
      ((insertIn lt k v l).map (·.2)).Nodup := by
    intro l
    induction l with
    | nil => intro _ _; exact List.pairwise_singleton ..
    | cons b rest ih =>
        intro hl hnew
        unfold insertIn
        split
        · exact List.nodup_cons.mpr ⟨hnew, hl⟩
        · split
          · obtain ⟨hb, hrest⟩ := List.nodup_cons.mp hl
            obtain ⟨hne, hnew⟩ := not_or.mp (mt List.mem_cons.mpr hnew)
            refine List.nodup_cons.mpr ⟨?_, ih hrest hnew⟩
            intro hmem
            obtain ⟨c, hc, heq⟩ := List.mem_map.mp hmem
            rcases mem_insertIn hc with rfl | hc
            · exact hne heq
            · exact hb (heq ▸ List.mem_map_of_mem hc)
          · exact hl
  exact hin m.toList hm hv

/-! ## Keys told apart -/

/-- The bindings are in the order of keys that the comparator tells apart. -/
structure Ordered (S : Set K) (m : ComparatorMap K V lt) : Prop where
  keys_mem : ∀ b ∈ m.toList, b.1 ∈ S
  pairwise : m.toList.Pairwise fun a b => lt a.1 b.1 = true

theorem Ordered.empty {S : Set K} : Ordered S (empty : ComparatorMap K V lt) where
  keys_mem := fun _ hb => absurd hb List.not_mem_nil
  pairwise := .nil

/-- A key has at most one binding. -/
theorem Ordered.eq_of_key {S : Set K} {m : ComparatorMap K V lt} (h : TellsApart lt S)
    (hm : m.Ordered S) {b c : K × V} (hb : b ∈ m.toList) (hc : c ∈ m.toList)
    (hkey : b.1 = c.1) : b = c := by
  by_contra hne
  have hpair : m.toList.Pairwise fun a b => a.1 ≠ b.1 := by
    refine List.Pairwise.imp_of_mem ?_ hm.pairwise
    intro a b ha _ hlt heq
    exact h.irrefl (hm.keys_mem a ha) (heq ▸ hlt)
  have : Std.Symm fun a b : K × V => a.1 ≠ b.1 := ⟨fun _ _ hd => hd.symm⟩
  exact hpair.forall hb hc hne hkey

theorem findIn_eq_some_iff {S : Set K} {k : K} {b : K × V} {l : List (K × V)}
    (h : TellsApart lt S) (hk : k ∈ S) (hl : ∀ b ∈ l, b.1 ∈ S)
    (hsorted : l.Pairwise fun a b => lt a.1 b.1 = true) :
    findIn lt k l = some b ↔ b ∈ l ∧ b.1 = k := by
  induction l with
  | nil => simp [findIn]
  | cons a rest ih =>
      rw [List.pairwise_cons] at hsorted
      have haS := hl a (List.mem_cons_self ..)
      have ih := ih (fun b hb => hl b (List.mem_cons_of_mem _ hb)) hsorted.2
      -- a key further down comes after the first one
      have hafter : ∀ b ∈ rest, lt a.1 b.1 = true := hsorted.1
      unfold findIn
      by_cases hak : lt a.1 k = true
      · rw [if_pos hak, ih, List.mem_cons]
        constructor
        · exact fun hb => ⟨.inr hb.1, hb.2⟩
        · rintro ⟨rfl | hb, heq⟩
          · exact absurd (heq ▸ hak) (h.irrefl hk)
          · exact ⟨hb, heq⟩
      · rw [if_neg hak]
        have hrest : ¬ ∃ b ∈ rest, b.1 = k := by
          rintro ⟨b, hb, rfl⟩
          exact hak (hafter b hb)
        by_cases hka : lt k a.1 = true
        · rw [if_pos hka]
          refine iff_of_false nofun ?_
          rintro ⟨hb, rfl⟩
          rcases List.mem_cons.mp hb with rfl | hb
          · exact h.irrefl hk hka
          · exact hrest ⟨b, hb, rfl⟩
        · rw [if_neg hka, Option.some_inj]
          have heq := (h.equiv_iff a.1 haS k hk).mp ⟨hak, hka⟩
          constructor
          · rintro rfl
            exact ⟨List.mem_cons_self .., heq⟩
          · rintro ⟨hb, rfl⟩
            rcases List.mem_cons.mp hb with rfl | hb
            · rfl
            · exact absurd ⟨b, hb, rfl⟩ hrest

theorem find?_eq_some_iff {S : Set K} {m : ComparatorMap K V lt} {k : K} {b : K × V}
    (h : TellsApart lt S) (hk : k ∈ S) (hm : m.Ordered S) :
    m.find? k = some b ↔ b ∈ m.toList ∧ b.1 = k :=
  findIn_eq_some_iff h hk hm.keys_mem hm.pairwise

theorem find?_eq_none_iff {S : Set K} {m : ComparatorMap K V lt} {k : K}
    (h : TellsApart lt S) (hk : k ∈ S) (hm : m.Ordered S) :
    m.find? k = none ↔ ∀ b ∈ m.toList, b.1 ≠ k := by
  rw [Option.eq_none_iff_forall_ne_some]
  refine forall_congr' fun b => ?_
  rw [ne_eq, find?_eq_some_iff h hk hm, not_and]

theorem mem_insertIn_self {S : Set K} {k : K} {v : V} {l : List (K × V)}
    (h : TellsApart lt S) (hk : k ∈ S) (hl : ∀ b ∈ l, b.1 ∈ S)
    (hnew : ∀ b ∈ l, b.1 ≠ k) : (k, v) ∈ insertIn lt k v l := by
  induction l with
  | nil => exact List.mem_cons_self ..
  | cons a rest ih =>
      unfold insertIn
      by_cases hka : lt k a.1 = true
      · rw [if_pos hka]
        exact List.mem_cons_self ..
      · have haS := hl a (List.mem_cons_self ..)
        rw [if_neg hka, if_pos (h.lt_of_not_lt hk haS
          (hnew a (List.mem_cons_self ..)).symm hka)]
        exact List.mem_cons_of_mem _ (ih (fun b hb => hl b (List.mem_cons_of_mem _ hb))
          fun b hb => hnew b (List.mem_cons_of_mem _ hb))

/-- A new key is bound, and all others stay bound as they were. -/
theorem mem_insert {S : Set K} {m : ComparatorMap K V lt} {k : K} {v : V} {b : K × V}
    (h : TellsApart lt S) (hk : k ∈ S) (hm : m.Ordered S) (hnew : ∀ b ∈ m.toList, b.1 ≠ k) :
    b ∈ (m.insert k v).toList ↔ b = (k, v) ∨ b ∈ m.toList := by
  constructor
  · exact mem_insertIn
  · rintro (rfl | hb)
    · exact mem_insertIn_self h hk hm.keys_mem hnew
    · exact mem_insertIn_of_mem hb

theorem insertIn_pairwise {S : Set K} {k : K} {v : V} {l : List (K × V)}
    (h : TellsApart lt S) (hk : k ∈ S) (hl : ∀ b ∈ l, b.1 ∈ S)
    (hsorted : l.Pairwise fun a b => lt a.1 b.1 = true) :
    (insertIn lt k v l).Pairwise fun a b => lt a.1 b.1 = true := by
  induction l with
  | nil => exact List.pairwise_singleton ..
  | cons a rest ih =>
      have hcons := List.pairwise_cons.mp hsorted
      have haS := hl a (List.mem_cons_self ..)
      have hrestS : ∀ b ∈ rest, b.1 ∈ S := fun b hb => hl b (List.mem_cons_of_mem _ hb)
      unfold insertIn
      by_cases hka : lt k a.1 = true
      · rw [if_pos hka, List.pairwise_cons]
        refine ⟨?_, hsorted⟩
        intro b hb
        rcases List.mem_cons.mp hb with rfl | hb
        · exact hka
        · exact h.trans hk haS (hrestS b hb) hka (hcons.1 b hb)
      · rw [if_neg hka]
        by_cases hak : lt a.1 k = true
        · rw [if_pos hak, List.pairwise_cons]
          refine ⟨?_, ih hrestS hcons.2⟩
          intro b hb
          rcases mem_insertIn hb with rfl | hb
          · exact hak
          · exact hcons.1 b hb
        · rw [if_neg hak]
          exact hsorted

theorem Ordered.insert {S : Set K} {m : ComparatorMap K V lt} {k : K} {v : V}
    (h : TellsApart lt S) (hk : k ∈ S) (hm : m.Ordered S) : (m.insert k v).Ordered S where
  keys_mem := by
    intro b hb
    rcases mem_insertIn hb with rfl | hb
    · exact hk
    · exact hm.keys_mem b hb
  pairwise := insertIn_pairwise h hk hm.keys_mem hm.pairwise

end ComparatorMap
