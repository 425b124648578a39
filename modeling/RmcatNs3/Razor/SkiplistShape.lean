import RmcatNs3.Lib.LinkedChain
import RmcatNs3.Razor.Skiplist

/-!
# The shape of a skiplist

One list of nodes, sorted by key, determines every pointer cell: the chain of
level `i` leads through the nodes of depth more than `i`. The three search
loops walk through this list; `Position` is what they know of the place they
have reached, and the cell in front of a key is the same for all of them.
-/

namespace Razor

open LinkedChain

/-- A comparator that follows the order of the keys. -/
structure Comparator {K : Type} [LinearOrder K] (cmp : K → K → Int) : Prop where
  pos : ∀ a b, 0 < cmp a b ↔ b < a
  zero : ∀ a b, cmp a b = 0 ↔ a = b

/-- The `id..._compare` functions follow the order of the numbers. -/
theorem idCompare_comparator {α : Type} [LinearOrder α] :
    Comparator (@idCompare α _) where
  pos := by
    intro a b
    unfold idCompare
    by_cases hgt : a > b
    · simp [hgt]
    · by_cases hlt : a < b
      · simp [hgt, hlt]
      · simp [hgt, hlt]
  zero := by
    intro a b
    unfold idCompare
    rcases lt_trichotomy a b with hlt | rfl | hgt
    · simp [hlt, not_lt_of_gt hlt, ne_of_lt hlt]
    · simp
    · simp [hgt, ne_of_gt hgt]

/-- An allocated node and its address. -/
structure Tower (K V : Type) where
  addr : Addr
  iter : SkiplistIter K V

/-- The binding that a node holds. -/
def Tower.binding {K V : Type} (t : Tower K V) : K × V := (t.iter.key, t.iter.val)

namespace Skiplist

variable {K V : Type}

/-- The nodes on level `i`. -/
def towersAt (L : List (Tower K V)) (i : Nat) : List (Tower K V) :=
  L.filter fun t => decide (i < t.iter.depth)

@[simp] theorem towersAt_append (L M : List (Tower K V)) (i : Nat) :
    towersAt (L ++ M) i = towersAt L i ++ towersAt M i :=
  List.filter_append ..

/-- A level is a sublist of the level below. -/
theorem towersAt_sublist (L : List (Tower K V)) (i : Nat) :
    (towersAt L (i + 1)).Sublist (towersAt L i) := by
  apply List.monotone_filter_right
  intro t ht
  simp only [decide_eq_true_eq] at ht ⊢
  omega

/-- What lies ahead on a level: nothing, or a node behind some that are not on
the level. -/
theorem next_on_level (post : List (Tower K V)) (i : Nat) :
    (towersAt post i).head? = none ∧ (∀ t ∈ post, ¬ i < t.iter.depth) ∨
    ∃ mid t rest, post = mid ++ t :: rest ∧ (towersAt post i).head? = some t ∧
      i < t.iter.depth ∧ ∀ u ∈ mid, ¬ i < u.iter.depth := by
  unfold towersAt
  rw [List.head?_filter]
  cases hf : post.find? fun t => decide (i < t.iter.depth) with
  | none =>
      left
      refine ⟨rfl, ?_⟩
      intro t ht
      simpa using List.find?_eq_none.mp hf t ht
  | some t =>
      right
      obtain ⟨ht, mid, rest, hpost, hmid⟩ := List.find?_eq_some_iff_append.mp hf
      refine ⟨mid, t, rest, hpost, rfl, by simpa using ht, ?_⟩
      intro u hu
      simpa using hmid u hu

variable [LinearOrder K]

/-- The skiplist is built over the nodes `L`. -/
structure Shape (sl : Skiplist K V) (L : List (Tower K V)) : Prop where
  compare : Comparator sl.compareFun
  sorted : L.Pairwise fun s t => s.iter.key < t.iter.key
  depth : ∀ t ∈ L, 1 ≤ t.iter.depth ∧ t.iter.depth ≤ skiplistMaxdepth
  node : ∀ t ∈ L, sl.nodes t.addr = some t.iter
  only : ∀ a iter, sl.nodes a = some iter → ⟨a, iter⟩ ∈ L
  level : ∀ i < skiplistMaxdepth,
    Chain (fun o => sl.cells ⟨o, i⟩) none ((towersAt L i).map (·.addr))
  size : sl.size = L.length

variable {sl : Skiplist K V} {L : List (Tower K V)} {key : K}

/-- Distinct nodes have distinct addresses. -/
theorem addr_nodup {nodes : Addr → Option (SkiplistIter K V)}
    (hs : L.Pairwise fun s t => s.iter.key < t.iter.key)
    (hnode : ∀ t ∈ L, nodes t.addr = some t.iter) : (L.map (·.addr)).Nodup := by
  rw [List.Nodup, List.pairwise_map]
  refine hs.imp_of_mem ?_
  intro s t hsm ht hlt heq
  have hs' := hnode s hsm
  rw [heq, hnode t ht, Option.some.injEq] at hs'
  rw [hs'] at hlt
  exact lt_irrefl _ hlt

/-- A key has at most one node. -/
theorem eq_of_key (hs : L.Pairwise fun s t => s.iter.key < t.iter.key)
    {s t : Tower K V} (hsm : s ∈ L) (ht : t ∈ L) (heq : s.iter.key = t.iter.key) :
    s = t := by
  have hnodup : (L.map (·.iter.key)).Nodup := by
    rw [List.Nodup, List.pairwise_map]
    exact hs.imp fun hlt => ne_of_lt hlt
  exact List.inj_on_of_nodup_map hnodup hsm ht heq

/-- Level `0` holds every node. -/
theorem Shape.towersAt_zero (h : Shape sl L) : towersAt L 0 = L := by
  apply List.filter_eq_self.mpr
  intro t ht
  exact decide_eq_true (h.depth t ht).1

/-! ## Positions -/

/-- The owner of the cell that a search has reached: the last node it has
passed. -/
def ownerOf (pre : List (Tower K V)) : Option Addr := (pre.getLast?).map (·.addr)

/-- A search for `key` has passed the nodes `pre`, at least level `i` of the
last one, and `post` lies ahead. -/
structure Position (L : List (Tower K V)) (key : K) (i : Nat)
    (pre post : List (Tower K V)) : Prop where
  split : L = pre ++ post
  owner : ∀ t ∈ pre.getLast?, i < t.iter.depth
  below : ∀ t ∈ pre, t.iter.key < key

variable {i : Nat} {pre post : List (Tower K V)}

theorem Position.start : Position L key i [] L where
  split := rfl
  owner := nofun
  below := nofun

theorem Position.down (p : Position L key i pre post) {j : Nat} (hj : j ≤ i) :
    Position L key j pre post where
  split := p.split
  owner := fun t ht => Nat.lt_of_le_of_lt hj (p.owner t ht)
  below := p.below

/-- The owner of the cell is the last node of its level. -/
theorem Position.ownerOf_eq (p : Position L key i pre post) :
    ownerOf pre = lastCell none ((towersAt pre i).map (·.addr)) := by
  rw [lastCell_none, List.getLast?_map, ownerOf]
  cases hlast : pre.getLast? with
  | none =>
      rw [List.getLast?_eq_none_iff.mp hlast]
      rfl
  | some t =>
      obtain ⟨front, rfl⟩ := List.getLast?_eq_some_iff.mp hlast
      have ht : towersAt [t] i = [t] := by
        simp [towersAt, p.owner t hlast]
      rw [towersAt_append, ht, List.getLast?_concat]

/-- **Reading the cell**: it exists, and points to the next node of its
level. -/
theorem Shape.read_cell (h : Shape sl L) (p : Position L key i pre post)
    (hi : i < skiplistMaxdepth) :
    sl.read ⟨ownerOf pre, i⟩ = some (((towersAt post i).head?).map (·.addr)) := by
  have hcell : sl.hasCell ⟨ownerOf pre, i⟩ = true := by
    unfold hasCell ownerOf
    cases hlast : pre.getLast? with
    | none => simpa using hi
    | some t =>
        have hmem : t ∈ L := by
          rw [p.split]
          exact List.mem_append_left _ (List.mem_of_getLast? hlast)
        simp [h.node t hmem, p.owner t hlast]
  have hchain := h.level i hi
  rw [p.split, towersAt_append, List.map_append] at hchain
  have hhead := hchain.suffix.head
  rw [← p.ownerOf_eq, List.head?_map] at hhead
  rw [read, if_pos hcell]
  exact congrArg some hhead

/-- The search moves on to a node with a lower key. -/
theorem Position.advance (h : L.Pairwise fun s t => s.iter.key < t.iter.key)
    {mid rest : List (Tower K V)} {t : Tower K V}
    (p : Position L key i pre (mid ++ t :: rest)) (hdepth : i < t.iter.depth)
    (hlt : t.iter.key < key) : Position L key i (pre ++ mid ++ [t]) rest where
  split := by
    rw [p.split]
    simp
  owner := by
    intro u hu
    rw [List.getLast?_concat, Option.mem_some_iff] at hu
    rw [← hu]
    exact hdepth
  below := by
    intro u hu
    rw [List.append_assoc, List.mem_append, List.mem_append,
      List.mem_singleton] at hu
    rcases hu with hu | hu | rfl
    · exact p.below u hu
    · rw [p.split, ← List.append_assoc, List.pairwise_append] at h
      have := h.2.2 u (List.mem_append_right _ hu) t List.mem_cons_self
      exact lt_trans this hlt
    · exact hlt

/-- The nodes below a key. -/
def lowerTowers (L : List (Tower K V)) (key : K) : List (Tower K V) :=
  L.filter fun t => decide (t.iter.key < key)

/-- The nodes above a key. -/
def upperTowers (L : List (Tower K V)) (key : K) : List (Tower K V) :=
  L.filter fun t => decide (key < t.iter.key)

/-- The cell of level `i` in front of a key. -/
def predCell (L : List (Tower K V)) (key : K) (i : Nat) : Cell :=
  ⟨lastCell none ((towersAt (lowerTowers L key) i).map (·.addr)), i⟩

/-- A search that meets no lower key on its level has reached the cell in front
of the key. -/
theorem Position.cell_eq (p : Position L key i pre post)
    (h : ∀ t ∈ post, i < t.iter.depth → key ≤ t.iter.key) :
    (⟨ownerOf pre, i⟩ : Cell) = predCell L key i := by
  have hpre : lowerTowers pre key = pre := by
    apply List.filter_eq_self.mpr
    intro t ht
    simpa using p.below t ht
  have hpost : towersAt (lowerTowers post key) i = [] := by
    apply List.filter_eq_nil_iff.mpr
    intro t ht hdepth
    obtain ⟨ht, hlt⟩ := List.mem_filter.mp ht
    simp only [decide_eq_true_eq] at hlt hdepth
    exact absurd hlt (not_lt_of_ge (h t ht hdepth))
  rw [predCell, p.ownerOf_eq]
  unfold lowerTowers at hpre hpost ⊢
  rw [p.split, List.filter_append, hpre, towersAt_append, hpost, List.append_nil]

/-- Keys ahead on a level are not below the first of them. -/
theorem le_of_next (h : L.Pairwise fun s t => s.iter.key < t.iter.key)
    {mid rest : List (Tower K V)} {t : Tower K V}
    (p : Position L key i pre (mid ++ t :: rest))
    (hmid : ∀ u ∈ mid, ¬ i < u.iter.depth) :
    ∀ u ∈ mid ++ t :: rest, i < u.iter.depth → t.iter.key ≤ u.iter.key := by
  intro u hu hdepth
  rw [p.split, List.pairwise_append] at h
  have hrest := (List.pairwise_append.mp h.2.1).2.1
  rcases List.mem_append.mp hu with hu | hu
  · exact absurd hdepth (hmid u hu)
  · rcases List.mem_cons.mp hu with rfl | hu
    · exact le_refl _
    · exact le_of_lt ((List.pairwise_cons.mp hrest).1 u hu)

end Skiplist

end Razor
