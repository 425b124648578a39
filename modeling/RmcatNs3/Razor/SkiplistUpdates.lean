import RmcatNs3.Razor.SkiplistSearch

/-!
# The updates of the skiplist

Insertion links a new node in on each of its levels, removal links a node out,
and clearing frees all nodes. Each keeps the shape of the skiplist.
-/

namespace Razor

open LinkedChain

namespace Skiplist

variable {K V : Type} {sl : Skiplist K V} {L : List (Tower K V)}

/-! ## Pointer cells -/

/-- A cell exists or not whatever the cells hold. -/
theorem hasCell_congr {sl' : Skiplist K V} (h : sl'.nodes = sl.nodes) (c : Cell) :
    sl'.hasCell c = sl.hasCell c := by
  unfold hasCell
  rw [h]

/-- The skiplist with other pointer cells. -/
def withCells (sl : Skiplist K V) (cells : Cell → Option Addr) : Skiplist K V :=
  { sl with cells }

@[simp] theorem withCells_hasCell (cells : Cell → Option Addr) (c : Cell) :
    (sl.withCells cells).hasCell c = sl.hasCell c :=
  hasCell_congr rfl c

theorem linkLevel_eq (sl : Skiplist K V) {stack : Stack} {a : Addr} {p : Option Addr} {i : Nat}
    (hstack : stack i = some ⟨p, i⟩) (hcell : sl.hasCell ⟨p, i⟩ = true)
    (hown : sl.hasCell ⟨some a, i⟩ = true) :
    linkLevel stack a sl i = some (sl.withCells fun c => if c.level = i
      then linkIn (fun o => sl.cells ⟨o, i⟩) p a c.owner else sl.cells c) := by
  have hcell' : ∀ cells, ({ sl with cells } : Skiplist K V).hasCell ⟨p, i⟩ = true :=
    fun _ => hcell
  simp only [linkLevel, hstack, Option.bind_eq_bind, Option.bind_some, read, write,
    hcell, hown, hcell', if_true, withCells, Option.some.injEq, Skiplist.mk.injEq,
    true_and, and_true]
  ext1 ⟨o, l⟩
  by_cases hl : l = i
  · subst hl
    simp [linkIn]
  · simp [hl]

theorem unlinkLevel_eq (sl : Skiplist K V) {stack : Stack} {a : Addr} {p : Option Addr} {i : Nat}
    (hstack : stack i = some ⟨p, i⟩) (hcell : sl.hasCell ⟨p, i⟩ = true)
    (hown : sl.hasCell ⟨some a, i⟩ = true) :
    unlinkLevel stack a sl i = some (sl.withCells fun c => if c.level = i
      then linkOut (fun o => sl.cells ⟨o, i⟩) p a c.owner else sl.cells c) := by
  simp only [unlinkLevel, hstack, Option.bind_eq_bind, Option.bind_some, read, write,
    hcell, hown, if_true, withCells, Option.some.injEq, Skiplist.mk.injEq, true_and,
    and_true]
  ext1 ⟨o, l⟩
  by_cases hl : l = i
  · subst hl
    simp [linkOut]
  · simp [hl]

/-- **All levels**: a loop that changes the cells of one level after the other,
each by `f` of the cells it finds. -/
theorem foldlM_levels {step : Skiplist K V → Nat → Option (Skiplist K V)}
    {f : Nat → (Option Addr → Option Addr) → Option Addr → Option Addr} {d : Nat}
    (hstep : ∀ i < d, ∀ cells, step (sl.withCells cells) i
      = some (sl.withCells fun c => if c.level = i
          then f i (fun o => cells ⟨o, i⟩) c.owner else cells c)) :
    (List.range d).foldlM step sl = some (sl.withCells fun c => if c.level < d
      then f c.level (fun o => sl.cells ⟨o, c.level⟩) c.owner else sl.cells c) := by
  induction d with
  | zero => rfl
  | succ n ih =>
      rw [List.range_succ, List.foldlM_append, ih fun i hi => hstep i (by omega),
        Option.bind_eq_bind, Option.bind_some, List.foldlM_cons,
        hstep n (Nat.lt_succ_self n), Option.bind_eq_bind, Option.bind_some,
        List.foldlM_nil]
      simp only [Option.pure_def, withCells, Option.some.injEq, Skiplist.mk.injEq,
        true_and, and_true]
      ext1 ⟨o, l⟩
      by_cases hl : l = n
      · subst hl
        simp
      · have hlt : l < n + 1 ↔ l < n := by omega
        simp [hl, hlt]

/-- The cells in front of a key exist on the levels `i < d`, and those of the
node at `a`. -/
structure Linked (sl : Skiplist K V) (stack : Stack) (a : Addr)
    (p : Nat → Option Addr) (d : Nat) : Prop where
  stack : ∀ i < d, stack i = some ⟨p i, i⟩
  pred : ∀ i < d, sl.hasCell ⟨p i, i⟩ = true
  own : ∀ i < d, sl.hasCell ⟨some a, i⟩ = true

theorem Linked.linkLevels {stack : Stack} {a : Addr} {p : Nat → Option Addr}
    {d : Nat} (h : Linked sl stack a p d) :
    (List.range d).foldlM (linkLevel stack a) sl
      = some (sl.withCells fun c => if c.level < d
          then linkIn (fun o => sl.cells ⟨o, c.level⟩) (p c.level) a c.owner
          else sl.cells c) :=
  foldlM_levels (f := fun i link => linkIn link (p i) a) fun i hi cells =>
    linkLevel_eq (sl.withCells cells) (h.stack i hi) (h.pred i hi) (h.own i hi)

theorem Linked.unlinkLevels {stack : Stack} {a : Addr} {p : Nat → Option Addr}
    {d : Nat} (h : Linked sl stack a p d) :
    (List.range d).foldlM (unlinkLevel stack a) sl
      = some (sl.withCells fun c => if c.level < d
          then linkOut (fun o => sl.cells ⟨o, c.level⟩) (p c.level) a c.owner
          else sl.cells c) :=
  foldlM_levels (f := fun i link => linkOut link (p i) a) fun i hi cells =>
    unlinkLevel_eq (sl.withCells cells) (h.stack i hi) (h.pred i hi) (h.own i hi)

/-! ## The nodes around a key -/

section Split

variable [LinearOrder K] {key : K}

theorem split_absent (hs : L.Pairwise fun s t => s.iter.key < t.iter.key)
    (hne : ∀ t ∈ L, t.iter.key ≠ key) :
    L = lowerTowers L key ++ upperTowers L key := by
  induction L with
  | nil => rfl
  | cons t rest ih =>
      rw [List.pairwise_cons] at hs
      have hrest := ih hs.2 fun u hu => hne u (List.mem_cons_of_mem _ hu)
      unfold lowerTowers upperTowers at hrest ⊢
      rcases lt_or_gt_of_ne (hne t List.mem_cons_self) with hlt | hgt
      · rw [List.filter_cons_of_pos (by simpa using hlt),
          List.filter_cons_of_neg (by simpa using le_of_lt hlt), List.cons_append,
          ← hrest]
      · have hall : ∀ u ∈ rest, key < u.iter.key := fun u hu => lt_trans hgt (hs.1 u hu)
        rw [List.filter_cons_of_neg (by simpa using le_of_lt hgt),
          List.filter_cons_of_pos (by simpa using hgt),
          List.filter_eq_nil_iff.mpr fun u hu => by simpa using le_of_lt (hall u hu),
          List.filter_eq_self.mpr fun u hu => by simpa using hall u hu]
        rfl

theorem split_present (hs : L.Pairwise fun s t => s.iter.key < t.iter.key)
    {t : Tower K V} (ht : t ∈ L) (heq : t.iter.key = key) :
    L = lowerTowers L key ++ t :: upperTowers L key := by
  subst heq
  induction L with
  | nil => cases ht
  | cons u rest ih =>
      rw [List.pairwise_cons] at hs
      unfold lowerTowers upperTowers at ih ⊢
      rcases List.mem_cons.mp ht with rfl | ht
      · rw [List.filter_cons_of_neg (by simp), List.filter_cons_of_neg (by simp),
          List.filter_eq_nil_iff.mpr fun v hv => by simpa using le_of_lt (hs.1 v hv),
          List.filter_eq_self.mpr fun v hv => by simpa using hs.1 v hv]
        rfl
      · have hlt := hs.1 t ht
        rw [List.filter_cons_of_pos (by simpa using hlt),
          List.filter_cons_of_neg (by simpa using le_of_lt hlt), List.cons_append,
          ← ih hs.2 ht]

/-- The cell in front of a key belongs to the skiplist, or to a node with a
lower key that reaches its level. -/
theorem predCell_owner {i : Nat} {b : Addr}
    (h : (predCell L key i).owner = some b) :
    ∃ t ∈ L, t.addr = b ∧ t.iter.key < key ∧ i < t.iter.depth := by
  rw [predCell, lastCell_none] at h
  obtain ⟨t, ht, rfl⟩ := List.mem_map.mp (List.mem_of_getLast? h)
  obtain ⟨ht, hdepth⟩ := List.mem_filter.mp ht
  obtain ⟨ht, hlt⟩ := List.mem_filter.mp ht
  exact ⟨t, ht, rfl, by simpa using hlt, by simpa using hdepth⟩

theorem Shape.predCell_hasCell (h : Shape sl L) (key : K) {i : Nat}
    (hi : i < skiplistMaxdepth) : sl.hasCell (predCell L key i) = true := by
  cases ho : (predCell L key i).owner with
  | none =>
      unfold hasCell
      rw [ho]
      exact decide_eq_true hi
  | some b =>
      obtain ⟨t, ht, rfl, _, hdepth⟩ := predCell_owner ho
      unfold hasCell
      rw [ho]
      dsimp only
      rw [h.node t ht]
      exact decide_eq_true hdepth

end Split

/-! ## Depths -/

theorem wbSkipDepthLoop_le (rand : Nat → Nat) (n d : Nat) :
    d ≤ wbSkipDepthLoop rand n d ∧ wbSkipDepthLoop rand n d ≤ d + n := by
  induction n generalizing d with
  | zero => exact ⟨Nat.le_refl _, Nat.le_refl _⟩
  | succ n ih =>
      unfold wbSkipDepthLoop
      split
      · omega
      · have := ih (d + 1)
        omega

/-- Every outcome of the level chooser is a depth that the skiplist has. -/
theorem wbSkipDepth_bounds (rand : Nat → Nat) :
    1 ≤ wbSkipDepth rand ∧ wbSkipDepth rand ≤ skiplistMaxdepth :=
  wbSkipDepthLoop_le rand (skiplistMaxdepth - 1) 1

/-! ## Insertion -/

section Updates

variable [LinearOrder K] {key : K}

/-- The nodes after a new one has been linked in. -/
def inserted (L : List (Tower K V)) (t : Tower K V) : List (Tower K V) :=
  lowerTowers L t.iter.key ++ t :: upperTowers L t.iter.key

omit [LinearOrder K] in
/-- The addresses of the nodes on a level are distinct cells. -/
theorem cells_nodup {M : List (Tower K V)} (h : (M.map (·.addr)).Nodup) (i : Nat) :
    (none :: ((towersAt M i).map (·.addr)).map some).Nodup := by
  rw [List.nodup_cons]
  refine ⟨by simp, ?_⟩
  refine List.Nodup.map (Option.some_injective _) ?_
  exact h.sublist (List.Sublist.map _ List.filter_sublist)

theorem Shape.addr_ne (h : Shape sl L) {a : Addr} (ha : sl.nodes a = none)
    {t : Tower K V} (ht : t ∈ L) : t.addr ≠ a := by
  rintro rfl
  rw [h.node t ht] at ha
  cases ha

theorem Shape.calloc_node (h : Shape sl L) {a : Addr} (ha : sl.nodes a = none)
    (iter : SkiplistIter K V) {t : Tower K V} (ht : t ∈ L) :
    (sl.calloc a iter).nodes t.addr = some t.iter := by
  have hta := h.addr_ne ha ht
  simp only [calloc, if_neg hta]
  exact h.node t ht

/-- The new node linked in on all of its levels. -/
def linked (sl : Skiplist K V) (L : List (Tower K V)) (t : Tower K V) :
    Skiplist K V :=
  (sl.calloc t.addr t.iter).withCells fun c => if c.level < t.iter.depth
    then linkIn (fun o => (sl.calloc t.addr t.iter).cells ⟨o, c.level⟩)
      (predCell L t.iter.key c.level).owner t.addr c.owner
    else (sl.calloc t.addr t.iter).cells c

theorem Shape.linkLevels (h : Shape sl L) {stack : Stack} {a : Addr}
    (iter : SkiplistIter K V) (ha : sl.nodes a = none)
    (hstack : ∀ i < skiplistMaxdepth, stack i = some (predCell L iter.key i))
    (hdepth : iter.depth ≤ skiplistMaxdepth) :
    (List.range iter.depth).foldlM (linkLevel stack a) (sl.calloc a iter)
      = some (linked sl L ⟨a, iter⟩) := by
  have hlinked : Linked (sl.calloc a iter) stack a
      (fun i => (predCell L iter.key i).owner) iter.depth := by
    constructor
    · exact fun i hi => hstack i (by omega)
    · intro i hi
      cases ho : (predCell L iter.key i).owner with
      | none => simp [hasCell, show i < skiplistMaxdepth by omega]
      | some b =>
          obtain ⟨t, ht, rfl, _, hd⟩ := predCell_owner ho
          simp [hasCell, h.calloc_node ha iter ht, hd]
    · intro i hi
      simp [hasCell, calloc, hi]
  exact hlinked.linkLevels

theorem mem_inserted (h : L.Pairwise fun s t => s.iter.key < t.iter.key) {t : Tower K V}
    (hne : ∀ u ∈ L, u.iter.key ≠ t.iter.key) (u : Tower K V) :
    u ∈ inserted L t ↔ u ∈ L ∨ u = t := by
  have hsplit : u ∈ L ↔ u ∈ lowerTowers L t.iter.key ∨ u ∈ upperTowers L t.iter.key := by
    rw [← List.mem_append, ← split_absent h hne]
  rw [inserted, List.mem_append, List.mem_cons, hsplit]
  tauto

theorem sorted_inserted (h : L.Pairwise fun s t => s.iter.key < t.iter.key) (t : Tower K V) :
    (inserted L t).Pairwise fun s t => s.iter.key < t.iter.key := by
  have hlow : ∀ s ∈ lowerTowers L t.iter.key, s.iter.key < t.iter.key := fun s hs => by
    simpa using (List.mem_filter.mp hs).2
  have hupp : ∀ s ∈ upperTowers L t.iter.key, t.iter.key < s.iter.key := fun s hs => by
    simpa using (List.mem_filter.mp hs).2
  rw [inserted, List.pairwise_append, List.pairwise_cons]
  refine ⟨h.filter _, ⟨hupp, h.filter _⟩, ?_⟩
  intro s hs u hu
  rcases List.mem_cons.mp hu with rfl | hu
  · exact hlow s hs
  · exact lt_trans (hlow s hs) (hupp u hu)

/-- The fresh node is on no level yet. -/
theorem Shape.calloc_level (h : Shape sl L) {a : Addr} (ha : sl.nodes a = none)
    (iter : SkiplistIter K V) {i : Nat} (hi : i < skiplistMaxdepth) :
    Chain (fun o => (sl.calloc a iter).cells ⟨o, i⟩) none
      ((towersAt L i).map (·.addr)) := by
  refine (h.level i hi).congr ?_
  intro c hc
  refine if_neg ?_
  rintro rfl
  rw [List.mem_cons] at hc
  rcases hc with hc | hc
  · cases hc
  · obtain ⟨b, hb, heq⟩ := List.mem_map.mp hc
    obtain ⟨t, ht, rfl⟩ := List.mem_map.mp hb
    exact h.addr_ne ha (List.mem_filter.mp ht).1 (Option.some.inj heq)

theorem Shape.linked_node (h : Shape sl L) {t : Tower K V} (ht : sl.nodes t.addr = none)
    (hne : ∀ u ∈ L, u.iter.key ≠ t.iter.key) :
    ∀ u ∈ inserted L t, (linked sl L t).nodes u.addr = some u.iter := by
  intro u hu
  rcases (mem_inserted h.sorted hne u).mp hu with hu | rfl
  · exact h.calloc_node ht t.iter hu
  · exact if_pos rfl

/-- Below the depth of the new node each level has it linked in. The others are as they
were. -/
theorem Shape.linked_level (h : Shape sl L) {t : Tower K V} (ht : sl.nodes t.addr = none)
    (hne : ∀ u ∈ L, u.iter.key ≠ t.iter.key) {i : Nat} (hi : i < skiplistMaxdepth) :
    Chain (fun o => (linked sl L t).cells ⟨o, i⟩) none
      ((towersAt (inserted L t) i).map (·.addr)) := by
  have hbase := h.calloc_level ht t.iter hi
  have hnodup := cells_nodup
    (addr_nodup (sorted_inserted h.sorted t) (h.linked_node ht hne)) i
  rw [split_absent h.sorted hne, towersAt_append, List.map_append] at hbase
  rw [inserted, towersAt_append] at hnodup ⊢
  by_cases hid : i < t.iter.depth
  · have htop : towersAt (t :: upperTowers L t.iter.key) i
        = t :: towersAt (upperTowers L t.iter.key) i :=
      List.filter_cons_of_pos (decide_eq_true hid)
    rw [htop, List.map_append, List.map_cons] at hnodup ⊢
    refine (hbase.linkIn hnodup).congr ?_
    intro c _
    exact if_pos hid
  · have htop : towersAt (t :: upperTowers L t.iter.key) i
        = towersAt (upperTowers L t.iter.key) i :=
      List.filter_cons_of_neg (by simpa using hid)
    rw [htop, List.map_append]
    refine hbase.congr ?_
    intro c _
    exact if_neg hid

theorem length_inserted (h : L.Pairwise fun s t => s.iter.key < t.iter.key) {t : Tower K V}
    (hne : ∀ u ∈ L, u.iter.key ≠ t.iter.key) : (inserted L t).length = L.length + 1 := by
  have hlen := congrArg List.length (split_absent h hne)
  rw [List.length_append] at hlen
  rw [inserted, List.length_append, List.length_cons]
  omega

/-- **Insertion of a new key** keeps the shape. -/
theorem Shape.insert_node (h : Shape sl L) {a : Addr} {iter : SkiplistIter K V}
    (ha : sl.nodes a = none) (hne : ∀ t ∈ L, t.iter.key ≠ iter.key)
    (hdepth : 1 ≤ iter.depth ∧ iter.depth ≤ skiplistMaxdepth) :
    Shape { linked sl L ⟨a, iter⟩ with size := sl.size + 1 }
      (inserted L ⟨a, iter⟩) := by
  have hmem := mem_inserted h.sorted (t := ⟨a, iter⟩) hne
  constructor
  · exact h.compare
  · exact sorted_inserted h.sorted _
  · intro t ht
    rcases (hmem t).mp ht with ht | rfl
    · exact h.depth t ht
    · exact hdepth
  · exact h.linked_node (t := ⟨a, iter⟩) ha hne
  · intro b it hb
    rw [hmem]
    by_cases hba : b = a
    · subst hba
      have hit : some iter = some it := (if_pos rfl).symm.trans hb
      cases hit
      exact .inr rfl
    · left
      exact h.only b it ((if_neg hba).symm.trans hb)
  · exact fun i hi => h.linked_level (t := ⟨a, iter⟩) ha hne hi
  · show sl.size + 1 = _
    rw [h.size, length_inserted h.sorted (t := ⟨a, iter⟩) hne]

/-! ## Removal -/

/-- The skiplist after the node `t` has been linked out and freed. -/
def unlinked (sl : Skiplist K V) (L : List (Tower K V)) (t : Tower K V) :
    Skiplist K V :=
  { sl with
    size := sl.size - 1
    nodes := fun a => if a = t.addr then none else sl.nodes a
    cells := fun c => if c.level < t.iter.depth
      then linkOut (fun o => sl.cells ⟨o, c.level⟩)
        (predCell L t.iter.key c.level).owner t.addr c.owner
      else sl.cells c }

/-- The nodes after one of them has been linked out. -/
def removed (L : List (Tower K V)) (key : K) : List (Tower K V) :=
  lowerTowers L key ++ upperTowers L key

theorem Shape.linked (h : Shape sl L) {stack : Stack} {t : Tower K V} (ht : t ∈ L)
    (hstack : ∀ i < skiplistMaxdepth, stack i = some (predCell L t.iter.key i)) :
    Linked sl stack t.addr (fun i => (predCell L t.iter.key i).owner)
      t.iter.depth := by
  have hd := (h.depth t ht).2
  constructor
  · exact fun i hi => hstack i (by omega)
  · exact fun i hi => h.predCell_hasCell t.iter.key (by omega)
  · intro i hi
    simp [hasCell, h.node t ht, hi]

/-- **Removal** of a node keeps the shape. -/
theorem Shape.remove_node (h : Shape sl L) {t : Tower K V} (ht : t ∈ L) :
    Shape (unlinked sl L t) (removed L t.iter.key) := by
  have hsplit := split_present h.sorted ht rfl
  have hnodup := addr_nodup h.sorted h.node
  have hmem : ∀ u, u ∈ removed L t.iter.key ↔ u ∈ L ∧ u.iter.key ≠ t.iter.key := by
    intro u
    simp only [removed, lowerTowers, upperTowers, List.mem_append, List.mem_filter,
      decide_eq_true_eq, ← and_or_left]
    rw [ne_iff_lt_or_gt]
  have hsub : (removed L t.iter.key).Sublist L := by
    conv_rhs => rw [hsplit]
    exact List.Sublist.append_left (List.sublist_cons_self _ _) _
  have haddr : ∀ u ∈ removed L t.iter.key, u.addr ≠ t.addr := by
    intro u hu heq
    obtain ⟨huL, hkey⟩ := (hmem u).mp hu
    have hu' := h.node u huL
    rw [heq, h.node t ht, Option.some.injEq] at hu'
    exact hkey (by rw [hu'])
  constructor
  · exact h.compare
  · exact h.sorted.sublist hsub
  · exact fun u hu => h.depth u (hsub.subset hu)
  · intro u hu
    exact (if_neg (haddr u hu)).trans (h.node u (hsub.subset hu))
  · intro b it hb
    by_cases hbt : b = t.addr
    · exact absurd ((if_pos hbt).symm.trans hb) nofun
    · have hin := h.only b it ((if_neg hbt).symm.trans hb)
      refine (hmem _).mpr ⟨hin, ?_⟩
      intro hkey
      exact hbt (congrArg Tower.addr (eq_of_key h.sorted hin ht hkey))
  · intro i hi
    have hbase := h.level i hi
    have hcells := cells_nodup hnodup i
    rw [hsplit, towersAt_append, List.map_append] at hbase
    rw [hsplit, towersAt_append] at hcells
    rw [removed, towersAt_append, List.map_append]
    by_cases hid : i < t.iter.depth
    · have htop : towersAt (t :: upperTowers L t.iter.key) i
          = t :: towersAt (upperTowers L t.iter.key) i :=
        List.filter_cons_of_pos (decide_eq_true hid)
      rw [htop, List.map_cons] at hbase
      rw [htop, List.map_append, List.map_cons] at hcells
      refine (hbase.linkOut hcells).congr ?_
      intro c _
      exact if_pos hid
    · have htop : towersAt (t :: upperTowers L t.iter.key) i
          = towersAt (upperTowers L t.iter.key) i :=
        List.filter_cons_of_neg (by simpa using hid)
      rw [htop] at hbase
      refine hbase.congr ?_
      intro c _
      exact if_neg hid
  · show sl.size - 1 = _
    have hlen := congrArg List.length hsplit
    rw [List.length_append, List.length_cons] at hlen
    rw [h.size, removed, List.length_append]
    omega

theorem lowerTowers_removed (L : List (Tower K V)) (key : K) :
    lowerTowers (removed L key) key = lowerTowers L key := by
  have hlow : lowerTowers (lowerTowers L key) key = lowerTowers L key :=
    List.filter_eq_self.mpr fun t ht => (List.mem_filter.mp ht).2
  have hupp : lowerTowers (upperTowers L key) key = [] := by
    apply List.filter_eq_nil_iff.mpr
    intro t ht
    have hgt : key < t.iter.key := by simpa using (List.mem_filter.mp ht).2
    simpa using le_of_lt hgt
  have happ : lowerTowers (removed L key) key
      = lowerTowers (lowerTowers L key) key ++ lowerTowers (upperTowers L key) key :=
    List.filter_append ..
  rw [happ, hlow, hupp, List.append_nil]

/-- **The successor**: after a removal the cell in front of the key points to
the next node. -/
theorem Shape.read_after (h : Shape sl (removed L key)) :
    sl.read (predCell L key 0) = some (((upperTowers L key).head?).map (·.addr)) := by
  have hcell := h.predCell_hasCell key (show 0 < skiplistMaxdepth by decide)
  have hchain := h.level 0 (by decide)
  have hupper : towersAt (upperTowers L key) 0 = upperTowers L key := by
    apply List.filter_eq_self.mpr
    intro t ht
    exact decide_eq_true (h.depth t (List.mem_append_right _ ht)).1
  rw [removed, towersAt_append, List.map_append, hupper] at hchain
  have hhead := hchain.suffix.head
  rw [predCell, lowerTowers_removed] at hcell
  rw [predCell, read, if_pos hcell, ← List.head?_map]
  exact congrArg some hhead

end Updates

end Skiplist

end Razor
