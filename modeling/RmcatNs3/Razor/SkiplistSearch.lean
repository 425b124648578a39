import RmcatNs3.Razor.SkiplistShape

/-!
# The search loops of the skiplist

The three loops make the same moves. Each of them returns once it is allowed
one iteration per node and level, and each either meets the key or has passed
every node below it.
-/

namespace Razor

namespace Skiplist

variable {K V : Type} [LinearOrder K] {sl : Skiplist K V} {L : List (Tower K V)}
  {key : K} {pre post : List (Tower K V)}

/-- **The move of a search** on level `i`: it reads the cell it has reached,
and finds nothing, or a node to compare the key with. -/
inductive Move (sl : Skiplist K V) (L : List (Tower K V)) (key : K) (i : Nat)
    (pre post : List (Tower K V)) : Prop
  | empty (hread : sl.read ⟨ownerOf pre, i⟩ = some none)
      (hempty : ∀ u ∈ post, ¬ i < u.iter.depth)
  | greater (t : Tower K V) (hread : sl.read ⟨ownerOf pre, i⟩ = some (some t.addr))
      (hnode : sl.nodes t.addr = some t.iter) (hgt : key < t.iter.key)
      (hahead : ∀ u ∈ post, i < u.iter.depth → key < u.iter.key)
  | equal (t : Tower K V) (hread : sl.read ⟨ownerOf pre, i⟩ = some (some t.addr))
      (hnode : sl.nodes t.addr = some t.iter) (hmem : t ∈ L)
      (heq : t.iter.key = key)
      (hahead : ∀ u ∈ post, i < u.iter.depth → key ≤ u.iter.key)
  | less (t : Tower K V) (pre' post' : List (Tower K V))
      (hread : sl.read ⟨ownerOf pre, i⟩ = some (some t.addr))
      (hnode : sl.nodes t.addr = some t.iter) (hlt : t.iter.key < key)
      (howner : ownerOf pre' = some t.addr) (hshort : post'.length < post.length)
      (hsub : post' ⊆ post) (hadv : Position L key i pre' post')

theorem Shape.move (h : Shape sl L) {i : Nat} (p : Position L key i pre post)
    (hi : i < skiplistMaxdepth) : Move sl L key i pre post := by
  have hread := h.read_cell p hi
  rcases next_on_level post i with ⟨hnone, hempty⟩ |
    ⟨mid, t, rest, rfl, hsome, hdepth, hmid⟩
  · rw [hnone] at hread
    exact .empty hread hempty
  · rw [hsome] at hread
    have hmem : t ∈ L := by
      rw [p.split]
      simp
    have hnode := h.node t hmem
    have hle := le_of_next h.sorted p hmid
    rcases lt_trichotomy t.iter.key key with hlt | heq | hgt
    · refine .less t (pre ++ mid ++ [t]) rest hread hnode hlt ?_ ?_ ?_
        (p.advance h.sorted hdepth hlt)
      · rw [ownerOf, List.getLast?_concat, Option.map_some]
      · simp only [List.length_append, List.length_cons]
        omega
      · intro u hu
        exact List.mem_append_right _ (List.mem_cons_of_mem _ hu)
    · exact .equal t hread hnode hmem heq fun u hu hd => heq ▸ hle u hu hd
    · exact .greater t hread hnode hgt fun u hu hd =>
        lt_of_lt_of_le hgt (hle u hu hd)

/-- A key that is above what lies ahead on level `0` has no node. -/
theorem Position.absent (h : Shape sl L) {i : Nat} (p : Position L key i pre post)
    (hahead : ∀ t ∈ post, 0 < t.iter.depth → key < t.iter.key) :
    ∀ t ∈ L, t.iter.key ≠ key := by
  intro t ht
  have hdepth := (h.depth t ht).1
  rw [p.split] at ht
  rcases List.mem_append.mp ht with ht | ht
  · exact ne_of_lt (p.below t ht)
  · exact ne_of_gt (hahead t ht hdepth)

/-- No node is higher than the first level. -/
theorem Shape.nothing_above (h : Shape sl L) {P : Tower K V → Prop} :
    ∀ t ∈ L, skiplistMaxdepth < t.iter.depth → P t :=
  fun t ht hd => absurd hd (Nat.not_lt.mpr (h.depth t ht).2)

/-! ## The signs of the comparison -/

theorem Shape.cmp_greater (h : Shape sl L) {k : K} (hgt : key < k) :
    sl.compareFun k key > 0 :=
  (h.compare.pos k key).mpr hgt

theorem Shape.cmp_equal (h : Shape sl L) {k : K} (heq : k = key) :
    sl.compareFun k key = 0 :=
  (h.compare.zero k key).mpr heq

theorem Shape.cmp_less (h : Shape sl L) {k : K} (hlt : k < key) :
    sl.compareFun k key < 0 := by
  have hpos := h.compare.pos k key
  have hzero := h.compare.zero k key
  by_contra hge
  rcases Int.lt_or_eq_of_le (Int.not_lt.mp hge) with hgt | heq
  · exact lt_asymm hlt (hpos.mp hgt)
  · exact ne_of_lt hlt (hzero.mp heq.symm)

/-! ## Search -/

theorem Shape.searchLoop (h : Shape sl L) (fuel : Nat) :
    ∀ {levels : Nat} {pre post : List (Tower K V)},
      levels ≤ skiplistMaxdepth → Position L key (levels - 1) pre post →
      (∀ t ∈ post, levels < t.iter.depth → key < t.iter.key) →
      levels + post.length < fuel →
      (∃ t ∈ L, t.iter.key = key ∧
        sl.searchLoop key fuel levels (ownerOf pre) = some (some t.addr)) ∨
      (∀ t ∈ L, t.iter.key ≠ key) ∧
        sl.searchLoop key fuel levels (ownerOf pre) = some none := by
  induction fuel with
  | zero =>
      intro levels pre post _ _ _ hfuel
      exact absurd hfuel (Nat.not_lt_zero _)
  | succ fuel ih =>
      intro levels pre post hlevels p hahead hfuel
      cases levels with
      | zero => exact .inr ⟨p.absent h hahead, rfl⟩
      | succ i =>
          replace p : Position L key i pre post := p
          cases h.move p (Nat.lt_of_succ_le hlevels) with
          | empty hread hempty =>
              have hstep : sl.searchLoop key (fuel + 1) (i + 1) (ownerOf pre)
                  = sl.searchLoop key fuel i (ownerOf pre) := by
                simp [Skiplist.searchLoop, hread]
              rw [hstep]
              exact ih (by omega) (p.down (Nat.sub_le _ _))
                (fun u hu hd => absurd hd (hempty u hu)) (by omega)
          | greater t hread hnode hgt hnext =>
              have hcmp := h.cmp_greater hgt
              have hstep : sl.searchLoop key (fuel + 1) (i + 1) (ownerOf pre)
                  = sl.searchLoop key fuel i (ownerOf pre) := by
                simp [Skiplist.searchLoop, hread, hnode, hcmp, Int.ne_of_gt hcmp]
              rw [hstep]
              exact ih (by omega) (p.down (Nat.sub_le _ _)) hnext (by omega)
          | equal t hread hnode hmem heq _ =>
              refine .inl ⟨t, hmem, heq, ?_⟩
              simp [Skiplist.searchLoop, hread, hnode, h.cmp_equal heq]
          | less t pre' post' hread hnode hlt howner hshort hsub hadv =>
              have hcmp := h.cmp_less hlt
              have hstep : sl.searchLoop key (fuel + 1) (i + 1) (ownerOf pre)
                  = sl.searchLoop key fuel (i + 1) (ownerOf pre') := by
                simp [Skiplist.searchLoop, hread, hnode, howner, Int.ne_of_lt hcmp,
                  not_lt_of_gt hcmp]
              rw [hstep]
              exact ih hlevels hadv (fun u hu hd => hahead u (hsub hu) hd) (by omega)

/-- **Search** returns the node of the key, or null when there is none. -/
theorem Shape.search (h : Shape sl L) (key : K) {fuel : Nat}
    (hfuel : skiplistMaxdepth + L.length < fuel) :
    (∃ t ∈ L, t.iter.key = key ∧ sl.search fuel key = some (some t.addr)) ∨
    (∀ t ∈ L, t.iter.key ≠ key) ∧ sl.search fuel key = some none :=
  h.searchLoop fuel (Nat.le_refl _) Position.start h.nothing_above hfuel

/-! ## The stack of an insertion -/

/-- The stack holds the cells in front of the key on the levels below `n`, and
`stack` is its state before. -/
def Filled (L : List (Tower K V)) (key : K) (n : Nat) (stack stack' : Stack) :
    Prop :=
  ∀ i, stack' i = if i < n then some (predCell L key i) else stack i

theorem Filled.set {n : Nat} {stack stack' : Stack} {c : Cell}
    (hc : c = predCell L key n) (hf : Filled L key n (stack.set n c) stack') :
    Filled L key (n + 1) stack stack' := by
  intro i
  rw [hf i]
  by_cases hlt : i < n
  · rw [if_pos hlt, if_pos (by omega)]
  · rw [if_neg hlt]
    by_cases heq : i = n
    · rw [Stack.set, if_pos heq, if_pos (by omega), hc, heq]
    · rw [Stack.set, if_neg heq, if_neg (by omega)]

theorem Shape.insertStackLoop (h : Shape sl L) (fuel : Nat) :
    ∀ {levels : Nat} {pre post : List (Tower K V)} {stack : Stack},
      levels ≤ skiplistMaxdepth → Position L key (levels - 1) pre post →
      (∀ t ∈ post, levels < t.iter.depth → key < t.iter.key) →
      levels + post.length < fuel →
      (∃ t ∈ L, t.iter.key = key) ∧
        sl.insertStackLoop key fuel levels (ownerOf pre) stack = some none ∨
      (∀ t ∈ L, t.iter.key ≠ key) ∧ ∃ stack',
        sl.insertStackLoop key fuel levels (ownerOf pre) stack = some (some stack') ∧
          Filled L key levels stack stack' := by
  induction fuel with
  | zero =>
      intro levels pre post stack _ _ _ hfuel
      exact absurd hfuel (Nat.not_lt_zero _)
  | succ fuel ih =>
      intro levels pre post stack hlevels p hahead hfuel
      cases levels with
      | zero => exact .inr ⟨p.absent h hahead, stack, rfl, fun _ => rfl⟩
      | succ i =>
          replace p : Position L key i pre post := p
          -- dropping a level records the cell
          have hdrop : (∀ u ∈ post, i < u.iter.depth → key < u.iter.key) →
              sl.insertStackLoop key (fuel + 1) (i + 1) (ownerOf pre) stack
                = sl.insertStackLoop key fuel i (ownerOf pre)
                  (stack.set i ⟨ownerOf pre, i⟩) →
              (∃ t ∈ L, t.iter.key = key) ∧ sl.insertStackLoop key (fuel + 1) (i + 1)
                  (ownerOf pre) stack = some none ∨
              (∀ t ∈ L, t.iter.key ≠ key) ∧ ∃ stack',
                sl.insertStackLoop key (fuel + 1) (i + 1) (ownerOf pre) stack
                  = some (some stack') ∧ Filled L key (i + 1) stack stack' := by
            intro hnext hstep
            have hcell := p.cell_eq fun u hu hd => le_of_lt (hnext u hu hd)
            rw [hstep]
            refine (ih (by omega) (p.down (Nat.sub_le _ _)) hnext (by omega)).imp
              id ?_
            rintro ⟨hne, stack', hloop, hf⟩
            exact ⟨hne, stack', hloop, hf.set hcell⟩
          cases h.move p (Nat.lt_of_succ_le hlevels) with
          | empty hread hempty =>
              refine hdrop (fun u hu hd => absurd hd (hempty u hu)) ?_
              simp [Skiplist.insertStackLoop, hread]
          | greater t hread hnode hgt hnext =>
              have hcmp := h.cmp_greater hgt
              refine hdrop hnext ?_
              simp [Skiplist.insertStackLoop, hread, hnode, hcmp]
          | equal t hread hnode hmem heq _ =>
              refine .inl ⟨⟨t, hmem, heq⟩, ?_⟩
              simp [Skiplist.insertStackLoop, hread, hnode, h.cmp_equal heq]
          | less t pre' post' hread hnode hlt howner hshort hsub hadv =>
              have hcmp := h.cmp_less hlt
              have hstep : sl.insertStackLoop key (fuel + 1) (i + 1) (ownerOf pre) stack
                  = sl.insertStackLoop key fuel (i + 1) (ownerOf pre') stack := by
                simp [Skiplist.insertStackLoop, hread, hnode, howner,
                  Int.ne_of_lt hcmp, not_lt_of_gt hcmp]
              rw [hstep]
              exact ih hlevels hadv (fun u hu hd => hahead u (hsub hu) hd) (by omega)

/-- **The stack of an insertion**: it holds the cells in front of a new key,
and is not completed for a key that has a node. -/
theorem Shape.insertStack (h : Shape sl L) (key : K) {fuel : Nat}
    (hfuel : skiplistMaxdepth + L.length < fuel) :
    (∃ t ∈ L, t.iter.key = key) ∧ sl.insertStack fuel key = some none ∨
    (∀ t ∈ L, t.iter.key ≠ key) ∧ ∃ stack,
      sl.insertStack fuel key = some (some stack) ∧
        ∀ i < skiplistMaxdepth, stack i = some (predCell L key i) := by
  refine (h.insertStackLoop fuel (Nat.le_refl _) Position.start h.nothing_above
    hfuel).imp id ?_
  rintro ⟨hne, stack, hloop, hf⟩
  exact ⟨hne, stack, hloop, fun i hi => by rw [hf i, if_pos hi]⟩

/-! ## The stack of a removal -/

theorem Shape.removeStackLoop (h : Shape sl L) (fuel : Nat) :
    ∀ {i : Nat} {pre post : List (Tower K V)} {ret : Option Addr} {stack : Stack},
      i < skiplistMaxdepth → Position L key i pre post →
      (∀ t ∈ post, i + 1 < t.iter.depth → key ≤ t.iter.key) →
      i + 1 + post.length < fuel →
      (∃ t ∈ L, t.iter.key = key ∧ ∃ stack',
        sl.removeStackLoop key fuel (i + 1) (ownerOf pre) ret stack
          = some (some t.addr, stack') ∧ Filled L key (i + 1) stack stack') ∨
      (∀ t ∈ L, t.iter.key ≠ key) ∧ ∃ stack',
        sl.removeStackLoop key fuel (i + 1) (ownerOf pre) ret stack
          = some (ret, stack') := by
  induction fuel with
  | zero =>
      intro i pre post ret stack _ _ _ hfuel
      exact absurd hfuel (Nat.not_lt_zero _)
  | succ fuel ih =>
      intro i pre post ret stack hi p hahead hfuel
      -- dropping a level records the cell
      have hdrop : ∀ {j : Nat}, i = j + 1 →
          (∀ u ∈ post, j + 1 < u.iter.depth → key ≤ u.iter.key) →
          sl.removeStackLoop key (fuel + 1) (j + 1 + 1) (ownerOf pre) ret stack
            = sl.removeStackLoop key fuel (j + 1) (ownerOf pre) ret
              (stack.set (j + 1) ⟨ownerOf pre, j + 1⟩) →
          (∃ t ∈ L, t.iter.key = key ∧ ∃ stack',
            sl.removeStackLoop key (fuel + 1) (j + 1 + 1) (ownerOf pre) ret stack
              = some (some t.addr, stack') ∧ Filled L key (j + 1 + 1) stack stack') ∨
          (∀ t ∈ L, t.iter.key ≠ key) ∧ ∃ stack',
            sl.removeStackLoop key (fuel + 1) (j + 1 + 1) (ownerOf pre) ret stack
              = some (ret, stack') := by
        rintro j rfl hle hstep
        rw [hstep]
        refine (ih (by omega) (p.down (by omega)) hle (by omega)).imp ?_ id
        rintro ⟨t, ht, heq, stack', hloop, hf⟩
        exact ⟨t, ht, heq, stack', hloop, hf.set (p.cell_eq hle)⟩
      cases h.move p hi with
      | empty hread hempty =>
          cases i with
          | zero =>
              -- level 0 ends without the key
              obtain ⟨n, rfl⟩ := Nat.exists_eq_succ_of_ne_zero
                (show fuel ≠ 0 by omega)
              refine .inr ⟨p.absent h fun u hu hd => absurd hd (hempty u hu), ?_⟩
              refine ⟨stack.set 0 ⟨ownerOf pre, 0⟩, ?_⟩
              simp [Skiplist.removeStackLoop, hread]
          | succ j =>
              refine hdrop rfl (fun u hu hd => absurd hd (hempty u hu)) ?_
              simp [Skiplist.removeStackLoop, hread]
      | greater t hread hnode hgt hnext =>
          have hcmp := h.cmp_greater hgt
          cases i with
          | zero =>
              refine .inr ⟨p.absent h hnext, stack, ?_⟩
              simp [Skiplist.removeStackLoop, hread, hnode, Int.ne_of_gt hcmp,
                not_lt_of_gt hcmp]
          | succ j =>
              refine hdrop rfl (fun u hu hd => le_of_lt (hnext u hu hd)) ?_
              simp [Skiplist.removeStackLoop, hread, hnode, Int.ne_of_gt hcmp,
                not_lt_of_gt hcmp]
      | equal t hread hnode hmem heq hle =>
          have hcmp := h.cmp_equal heq
          left
          cases i with
          | zero =>
              refine ⟨t, hmem, heq, stack.set 0 ⟨ownerOf pre, 0⟩, ?_, ?_⟩
              · simp [Skiplist.removeStackLoop, hread, hnode, hcmp]
              · exact Filled.set (p.cell_eq hle) fun _ => rfl
          | succ j =>
              -- the node is found again on every lower level
              have hstep : sl.removeStackLoop key (fuel + 1) (j + 1 + 1)
                  (ownerOf pre) ret stack = sl.removeStackLoop key fuel (j + 1)
                  (ownerOf pre) (some t.addr)
                  (stack.set (j + 1) ⟨ownerOf pre, j + 1⟩) := by
                simp [Skiplist.removeStackLoop, hread, hnode, hcmp]
              rw [hstep]
              rcases @ih j pre post (some t.addr) _ (by omega) (p.down (by omega)) hle
                (by omega) with ⟨u, hu, hku, stack', hloop, hf⟩ | ⟨hne, _⟩
              · exact ⟨u, hu, hku, stack', hloop, hf.set (p.cell_eq hle)⟩
              · exact absurd heq (hne t hmem)
      | less t pre' post' hread hnode hlt howner hshort hsub hadv =>
          have hcmp := h.cmp_less hlt
          have hstep : sl.removeStackLoop key (fuel + 1) (i + 1) (ownerOf pre) ret stack
              = sl.removeStackLoop key fuel (i + 1) (ownerOf pre') ret stack := by
            simp [Skiplist.removeStackLoop, hread, hnode, howner,
              Int.ne_of_lt hcmp, hcmp]
          rw [hstep]
          exact ih hi hadv (fun u hu hd => hahead u (hsub hu) hd) (by omega)

/-- **The stack of a removal**: the node of the key, with the cells in front of
it on all levels, or null when the key has no node. -/
theorem Shape.removeStack (h : Shape sl L) (key : K) {fuel : Nat}
    (hfuel : skiplistMaxdepth + L.length < fuel) :
    (∃ t ∈ L, t.iter.key = key ∧ ∃ stack,
      sl.removeStack fuel key = some (some t.addr, stack) ∧
        ∀ i < skiplistMaxdepth, stack i = some (predCell L key i)) ∨
    (∀ t ∈ L, t.iter.key ≠ key) ∧ ∃ stack,
      sl.removeStack fuel key = some (none, stack) := by
  refine (h.removeStackLoop fuel (i := 7) (by decide) Position.start
    h.nothing_above hfuel).imp ?_ id
  rintro ⟨t, ht, heq, stack, hloop, hf⟩
  exact ⟨t, ht, heq, stack, hloop, fun i hi => by rw [hf i]; exact if_pos hi⟩

end Skiplist

end Razor
