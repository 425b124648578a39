import RmcatNs3.Lib.Runs
import RmcatNs3.Lib.SortedMap
import RmcatNs3.Razor.SkiplistUpdates

/-!
# The skiplist is a sorted map

Whatever the random depths and the addresses of the nodes are, every operation
of the skiplist returns, and does to its bindings what the operation of the
sorted map does: `skiplist_refines` is that statement for whole runs.
-/

namespace Razor

open LinkedChain Runs

namespace Skiplist

variable {K V : Type} {sl : Skiplist K V} {L : List (Tower K V)}

/-! ## Clearing and iterating -/

/-- What `free_fun` has been called with after some more releases. -/
def releasing (sl : Skiplist K V) (items : List (K × V)) : List (K × V) :=
  if sl.freeFun then sl.released ++ items else sl.released

theorem callFree_eq (sl : Skiplist K V) (key : K) (val : V) :
    sl.callFree key val = { sl with released := sl.releasing [(key, val)] } := by
  unfold callFree releasing
  split <;> rfl

/-- Some nodes in their order on level `0`, from the cell of `o` on. -/
structure Row (sl : Skiplist K V) (o : Option Addr) (rest : List (Tower K V)) :
    Prop where
  chain : Chain (fun o => sl.cells ⟨o, 0⟩) o (rest.map (·.addr))
  node : ∀ t ∈ rest, sl.nodes t.addr = some t.iter
  depth : ∀ t ∈ rest, 1 ≤ t.iter.depth
  nodup : (rest.map (·.addr)).Nodup

theorem Row.tail {o : Option Addr} {t : Tower K V} {rest : List (Tower K V)}
    (h : Row sl o (t :: rest)) : Row sl (some t.addr) rest where
  chain := h.chain.2
  node := fun u hu => h.node u (List.mem_cons_of_mem _ hu)
  depth := fun u hu => h.depth u (List.mem_cons_of_mem _ hu)
  nodup := (List.nodup_cons.mp h.nodup).2

theorem Row.read_next {o : Option Addr} {t : Tower K V} {rest : List (Tower K V)}
    (h : Row sl o (t :: rest)) :
    sl.read ⟨some t.addr, 0⟩ = some (sl.cells ⟨some t.addr, 0⟩) := by
  refine if_pos ?_
  simp only [hasCell, h.node t List.mem_cons_self, decide_eq_true_eq]
  exact h.depth t List.mem_cons_self

/-- The loop of `skiplist_clear` frees the nodes of a row. -/
theorem Row.clearLoop {rest : List (Tower K V)} :
    ∀ {sl : Skiplist K V} {o : Option Addr} {fuel : Nat}, Row sl o rest →
      rest.length < fuel →
      sl.clearLoop fuel (sl.cells ⟨o, 0⟩) = some { sl with
        nodes := fun a => if a ∈ rest.map (·.addr) then none else sl.nodes a
        released := sl.releasing (rest.map Tower.binding) } := by
  induction rest with
  | nil =>
      intro sl o fuel h hfuel
      obtain ⟨n, rfl⟩ := Nat.exists_eq_succ_of_ne_zero (Nat.ne_zero_of_lt hfuel)
      have hnil : sl.cells ⟨o, 0⟩ = none := h.chain
      rw [hnil]
      simp [Skiplist.clearLoop, releasing]
  | cons t rest ih =>
      intro sl o fuel h hfuel
      obtain ⟨n, rfl⟩ := Nat.exists_eq_succ_of_ne_zero (Nat.ne_zero_of_lt hfuel)
      have hhead : sl.cells ⟨o, 0⟩ = some t.addr := h.chain.1
      have hnode := h.node t List.mem_cons_self
      -- the state after the first node has been freed
      let sl' : Skiplist K V := { sl with
        nodes := fun a => if a = t.addr then none else sl.nodes a
        released := sl.releasing [t.binding] }
      have hrow : Row sl' (some t.addr) rest := by
        refine ⟨h.tail.chain, ?_, h.tail.depth, h.tail.nodup⟩
        intro u hu
        have hne : u.addr ≠ t.addr := by
          intro heq
          have hnodup := (List.nodup_cons.mp h.nodup).1
          exact hnodup (List.mem_map.mpr ⟨u, hu, heq⟩)
        exact (if_neg hne).trans (h.tail.node u hu)
      have hstep : sl.clearLoop (n + 1) (some t.addr)
          = sl'.clearLoop n (sl'.cells ⟨some t.addr, 0⟩) := by
        simp only [Skiplist.clearLoop, h.read_next, hnode, callFree_eq, Skiplist.free,
          Option.bind_eq_bind, Option.bind_some]
        rfl
      have hlen : rest.length < n := by
        simp only [List.length_cons] at hfuel
        omega
      rw [hhead, hstep, ih hrow hlen]
      simp only [Option.some.injEq, Skiplist.mk.injEq, sl', true_and]
      constructor
      · ext1 a
        by_cases ha : a = t.addr
        · simp [ha]
        · simp [ha]
      · unfold releasing
        cases sl.freeFun <;> simp

/-- `SKIPLIST_FOREACH` visits a row in its order. -/
theorem Row.foreachLoop {rest : List (Tower K V)} :
    ∀ {o : Option Addr} {fuel : Nat}, Row sl o rest → rest.length < fuel →
      sl.foreachLoop fuel (sl.cells ⟨o, 0⟩) = some (rest.map Tower.binding) := by
  induction rest with
  | nil =>
      intro o fuel h hfuel
      obtain ⟨n, rfl⟩ := Nat.exists_eq_succ_of_ne_zero (Nat.ne_zero_of_lt hfuel)
      have hnil : sl.cells ⟨o, 0⟩ = none := h.chain
      rw [hnil]
      rfl
  | cons t rest ih =>
      intro o fuel h hfuel
      obtain ⟨n, rfl⟩ := Nat.exists_eq_succ_of_ne_zero (Nat.ne_zero_of_lt hfuel)
      have hhead : sl.cells ⟨o, 0⟩ = some t.addr := h.chain.1
      have hlen : rest.length < n := by
        simp only [List.length_cons] at hfuel
        omega
      rw [hhead]
      simp only [Skiplist.foreachLoop, h.node t List.mem_cons_self, h.read_next,
        ih h.tail hlen, Option.bind_eq_bind, Option.bind_some]
      rfl

theorem Row.of_shape [LinearOrder K] (h : Shape sl L) : Row sl none L where
  chain := by
    have hchain := h.level 0 (by decide)
    rwa [h.towersAt_zero] at hchain
  node := h.node
  depth := fun t ht => (h.depth t ht).1
  nodup := addr_nodup h.sorted h.node

/-! ## Operations -/

/-- One call of the skiplist; an insertion comes with the random numbers of
its level chooser and the address of its node. -/
inductive SkiplistOp (K V : Type) where
  | insert (rand : Nat → Nat) (a : Addr) (key : K) (val : V)
  | remove (key : K)
  | search (key : K)
  | foreach
  | clear

/-- What a call gives back: the binding that the returned pointer leads to, or
the bindings that the iteration has visited. -/
inductive Reply (K V : Type) where
  | done
  | iter (binding : Option (K × V))
  | items (bindings : List (K × V))

/-- The binding of the node that a pointer leads to. -/
def deref (sl : Skiplist K V) (p : Option Addr) : Option (Option (K × V)) :=
  match p with
  | none => some none
  | some a => (sl.nodes a).map fun iter => some (iter.key, iter.val)

def step (sl : Skiplist K V) (fuel : Nat) :
    SkiplistOp K V → Option (Reply K V × Skiplist K V)
  | .insert rand a key val => do
      let sl ← sl.insert fuel rand a key val
      some (.done, sl)
  | .remove key => do
      let (p, sl) ← sl.remove fuel key
      let b ← sl.deref p
      some (.iter b, sl)
  | .search key => do
      let p ← sl.search fuel key
      let b ← sl.deref p
      some (.iter b, sl)
  | .foreach => do
      let items ← sl.foreach fuel
      some (.items items, sl)
  | .clear => do
      let sl ← sl.clear fuel
      some (.done, sl)

/-- The address that `calloc` returns is not in use. -/
def SkiplistOp.Fresh (sl : Skiplist K V) : SkiplistOp K V → Prop
  | .insert _ a _ _ => sl.nodes a = none
  | _ => True

/-- The call returns: its loops end, however many iterations they are allowed
from some number on. -/
def Returns (sl : Skiplist K V) (op : SkiplistOp K V) (r : Reply K V)
    (sl' : Skiplist K V) : Prop :=
  ∃ bound, ∀ fuel, bound ≤ fuel → sl.step fuel op = some (r, sl')

/-- A call has one outcome. -/
theorem Returns.unique {op : SkiplistOp K V} {r r' : Reply K V}
    {sl₁ sl₂ : Skiplist K V} (h₁ : Returns sl op r sl₁) (h₂ : Returns sl op r' sl₂) :
    r = r' ∧ sl₁ = sl₂ := by
  obtain ⟨b₁, h₁⟩ := h₁
  obtain ⟨b₂, h₂⟩ := h₂
  have heq := (h₁ _ (Nat.le_max_left b₁ b₂)).symm.trans (h₂ _ (Nat.le_max_right b₁ b₂))
  simpa using heq

/-- The iterations that are enough for every loop. -/
def enough (L : List (Tower K V)) : Nat := skiplistMaxdepth + L.length + 1

theorem length_lt_of_enough {fuel : Nat} (h : enough L ≤ fuel) : L.length < fuel := by
  unfold enough at h
  omega

/-! ## The sorted map -/

section Spec

variable [LinearOrder K]

/-- The map, and the items that have been released. -/
structure MapState (K V : Type) [LinearOrder K] where
  map : SortedMap K V
  released : List (K × V)

/-- The map after some more releases, if there is a `free_fun`. -/
def MapState.release (m : MapState K V) (freeFun : Bool) (items : List (K × V)) :
    MapState K V :=
  { m with released := if freeFun then m.released ++ items else m.released }

/-- What the skiplist is for. -/
def specStep (freeFun : Bool) (m : MapState K V) :
    SkiplistOp K V → Reply K V × MapState K V
  | .insert _ _ key val =>
      match m.map.find? key with
      | none => (.done, { m with map := m.map.insert key val })
      | some _ => (.done, m.release freeFun [(key, val)])
  | .remove key =>
      match m.map.find? key with
      | none => (.iter none, m)
      | some b => (.iter (m.map.next? key),
          ({ m with map := m.map.erase key } : MapState K V).release freeFun [b])
  | .search key => (.iter (m.map.find? key), m)
  | .foreach => (.items m.map.toList, m)
  | .clear => (.done,
      ({ m with map := .empty } : MapState K V).release freeFun m.map.toList)

/-- The skiplist over the nodes `L` holds the bindings of the map, and has
released the same items. -/
structure Refines (sl : Skiplist K V) (L : List (Tower K V)) (m : MapState K V) :
    Prop where
  shape : Shape sl L
  bindings : m.map.toList = L.map Tower.binding
  released : sl.released = m.released

variable {m : MapState K V} {key : K}

/-! ## Keys of nodes and keys of bindings -/

theorem Refines.find?_some (h : Refines sl L m) {t : Tower K V} (ht : t ∈ L)
    (heq : t.iter.key = key) : m.map.find? key = some t.binding := by
  rw [SortedMap.find?_eq_some_iff, SortedMap.mem_def, h.bindings]
  exact ⟨List.mem_map_of_mem ht, heq⟩

theorem Refines.find?_none (h : Refines sl L m) (hne : ∀ t ∈ L, t.iter.key ≠ key) :
    m.map.find? key = none := by
  rw [SortedMap.find?_eq_none_iff]
  intro b hb
  rw [SortedMap.mem_def, h.bindings] at hb
  obtain ⟨t, ht, rfl⟩ := List.mem_map.mp hb
  exact hne t ht

theorem Refines.below_eq (h : Refines sl L m) (key : K) :
    m.map.below key = (lowerTowers L key).map Tower.binding := by
  rw [SortedMap.below, h.bindings, List.filter_map]
  rfl

theorem Refines.above_eq (h : Refines sl L m) (key : K) :
    m.map.above key = (upperTowers L key).map Tower.binding := by
  rw [SortedMap.above, h.bindings, List.filter_map]
  rfl

theorem Refines.deref_some (h : Refines sl L m) {t : Tower K V} (ht : t ∈ L) :
    sl.deref (some t.addr) = some (some t.binding) := by
  rw [deref, h.shape.node t ht]
  rfl

theorem Refines.next?_eq (h : Refines sl L m) (key : K) :
    m.map.next? key = ((upperTowers L key).head?).map Tower.binding := by
  rw [SortedMap.next?, h.bindings, List.find?_map, upperTowers, List.head?_filter]
  rfl

/-- The pointer to the successor leads to its binding. -/
theorem deref_head (h : Shape sl (removed L key)) :
    sl.deref (((upperTowers L key).head?).map (·.addr))
      = some (((upperTowers L key).head?).map Tower.binding) := by
  cases hu : (upperTowers L key).head? with
  | none => rfl
  | some u =>
      have hmem : u ∈ removed L key :=
        List.mem_append_right _ (List.mem_of_head? hu)
      simp only [Option.map_some, deref, h.node u hmem]
      rfl

theorem Refines.erase_eq (h : Refines sl L m) {t : Tower K V} (ht : t ∈ L) :
    (m.map.erase t.iter.key).toList
      = (removed L t.iter.key).map Tower.binding := by
  have hfilter : L.filter (fun u => decide (u.iter.key ≠ t.iter.key))
      = removed L t.iter.key := by
    have hlow : ∀ u ∈ lowerTowers L t.iter.key, decide (u.iter.key ≠ t.iter.key) := by
      intro u hu
      have hlt : u.iter.key < t.iter.key := by simpa using (List.mem_filter.mp hu).2
      exact decide_eq_true (ne_of_lt hlt)
    have hupp : ∀ u ∈ upperTowers L t.iter.key, decide (u.iter.key ≠ t.iter.key) := by
      intro u hu
      have hgt : t.iter.key < u.iter.key := by simpa using (List.mem_filter.mp hu).2
      exact decide_eq_true (ne_of_gt hgt)
    conv_lhs => rw [split_present h.shape.sorted ht rfl]
    rw [List.filter_append, List.filter_cons_of_neg (by simp),
      List.filter_eq_self.mpr hlow, List.filter_eq_self.mpr hupp]
    rfl
  show m.map.toList.filter _ = _
  rw [h.bindings, List.filter_map, ← hfilter]
  rfl

/-! ## Each operation -/

theorem Refines.insert (h : Refines sl L m) (rand : Nat → Nat) {a : Addr}
    (ha : sl.nodes a = none) (key : K) (val : V) :
    ∃ sl' L', (∀ fuel, enough L ≤ fuel →
        sl.step fuel (.insert rand a key val) = some (.done, sl')) ∧
      sl'.freeFun = sl.freeFun ∧
      Refines sl' L' (specStep sl.freeFun m (.insert rand a key val)).2 := by
  by_cases hkey : ∃ t ∈ L, t.iter.key = key
  · -- the old binding stays, and the new item is released
    obtain ⟨t, ht, heq⟩ := hkey
    refine ⟨sl.callFree key val, L, ?_, ?_, ?_⟩
    · intro fuel hfuel
      rcases h.shape.insertStack key hfuel with ⟨_, hstack⟩ | ⟨hne, _⟩
      · simp [step, Skiplist.insert, hstack]
      · exact absurd heq (hne t ht)
    · rw [callFree_eq]
    · simp only [specStep, h.find?_some ht heq]
      rw [callFree_eq]
      refine ⟨{ h.shape with }, h.bindings, ?_⟩
      show sl.releasing _ = _
      unfold releasing MapState.release
      rw [h.released]
  · -- one node joins, at whatever depth
    have hne : ∀ t ∈ L, t.iter.key ≠ key := fun t ht heq => hkey ⟨t, ht, heq⟩
    let iter : SkiplistIter K V := ⟨key, val, wbSkipDepth rand⟩
    have hdepth := wbSkipDepth_bounds rand
    refine ⟨{ linked sl L ⟨a, iter⟩ with size := sl.size + 1 },
      inserted L ⟨a, iter⟩, ?_, rfl, h.shape.insert_node ha hne hdepth, ?_, ?_⟩
    · intro fuel hfuel
      rcases h.shape.insertStack key hfuel with ⟨hpresent, _⟩ | ⟨_, stack, hstack, hcells⟩
      · exact absurd hpresent hkey
      · have hlink := h.shape.linkLevels iter ha hcells hdepth.2
        simp only [step, Skiplist.insert, hstack, Option.bind_eq_bind, Option.bind_some]
        rw [hlink]
        rfl
    · simp only [specStep, h.find?_none hne, SortedMap.insert, Option.isSome_none,
        Bool.false_eq_true, if_false, h.below_eq, h.above_eq]
      rw [inserted, List.map_append, List.map_cons]
      rfl
    · simp only [specStep, h.find?_none hne]
      exact h.released

theorem Refines.remove (h : Refines sl L m) (key : K) :
    ∃ sl' L', (∀ fuel, enough L ≤ fuel → sl.step fuel (.remove key)
        = some ((specStep sl.freeFun m (.remove key)).1, sl')) ∧
      sl'.freeFun = sl.freeFun ∧
      Refines sl' L' (specStep sl.freeFun m (.remove key)).2 := by
  by_cases hkey : ∃ t ∈ L, t.iter.key = key
  · obtain ⟨t, ht, rfl⟩ := hkey
    let sl' := { unlinked sl L t with released := sl.releasing [t.binding] }
    have hshape : Shape sl' (removed L t.iter.key) :=
      { h.shape.remove_node ht with }
    refine ⟨sl', removed L t.iter.key, ?_, rfl, hshape, ?_, ?_⟩
    · intro fuel hfuel
      rcases h.shape.removeStack t.iter.key hfuel with
        ⟨u, hu, heq, stack, hstack, hcells⟩ | ⟨hne, _⟩
      swap
      · exact absurd rfl (hne t ht)
      obtain rfl := eq_of_key h.shape.sorted hu ht heq
      have hsize : 0 < sl.size := by
        rw [h.shape.size]
        exact List.length_pos_of_mem ht
      have hread := hshape.read_after
      have hremove : sl.remove fuel u.iter.key
          = some (((upperTowers L u.iter.key).head?).map (·.addr), sl') := by
        simp only [Skiplist.remove, hstack, Option.bind_eq_bind, Option.bind_some,
          h.shape.node u ht, (h.shape.linked ht hcells).unlinkLevels, callFree_eq,
          Skiplist.free, withCells]
        rw [if_pos hsize, hcells 0 (by decide), Option.bind_some]
        change (sl'.read (predCell L u.iter.key 0)).bind _ = _
        rw [hread]
        rfl
      simp only [step, hremove, Option.bind_eq_bind, Option.bind_some,
        deref_head hshape, specStep, h.find?_some ht rfl, h.next?_eq]
    · simp only [specStep, h.find?_some ht rfl]
      exact h.erase_eq ht
    · simp only [specStep, h.find?_some ht rfl]
      show sl.releasing _ = _
      unfold releasing MapState.release
      rw [h.released]
  · have hne : ∀ t ∈ L, t.iter.key ≠ key := fun t ht heq => hkey ⟨t, ht, heq⟩
    refine ⟨sl, L, ?_, rfl, ?_⟩
    · intro fuel hfuel
      rcases h.shape.removeStack key hfuel with ⟨t, ht, heq, _⟩ | ⟨_, stack, hstack⟩
      · exact absurd heq (hne t ht)
      · simp [step, Skiplist.remove, hstack, deref, specStep, h.find?_none hne]
    · simpa only [specStep, h.find?_none hne] using h

theorem Refines.search (h : Refines sl L m) (key : K) {fuel : Nat}
    (hfuel : enough L ≤ fuel) :
    sl.step fuel (.search key) = some (.iter (m.map.find? key), sl) := by
  rcases h.shape.search key hfuel with
    ⟨t, ht, heq, hsearch⟩ | ⟨hne, hsearch⟩
  · simp only [step, hsearch, Option.bind_eq_bind, Option.bind_some,
      h.deref_some ht, h.find?_some ht heq]
  · simp [step, hsearch, deref, h.find?_none hne]

theorem Refines.foreach (h : Refines sl L m) {fuel : Nat} (hfuel : enough L ≤ fuel) :
    sl.step fuel .foreach = some (.items m.map.toList, sl) := by
  have hloop := (Row.of_shape h.shape).foreachLoop (length_lt_of_enough hfuel)
  have hfirst : sl.first = some (sl.cells ⟨none, 0⟩) := by
    show sl.read ⟨none, 0⟩ = _
    exact if_pos rfl
  simp only [step, Skiplist.foreach, hfirst, Option.bind_eq_bind, Option.bind_some,
    hloop, h.bindings]

theorem Refines.clear (h : Refines sl L m) :
    ∃ sl', (∀ fuel, enough L ≤ fuel → sl.step fuel .clear = some (.done, sl')) ∧
      sl'.freeFun = sl.freeFun ∧ Refines sl' [] (specStep sl.freeFun m .clear).2 := by
  have hread : sl.read ⟨none, 0⟩ = some (sl.cells ⟨none, 0⟩) := if_pos rfl
  refine ⟨{ sl with
    size := 0
    nodes := fun a => if a ∈ L.map (·.addr) then none else sl.nodes a
    cells := fun c => if c.owner = none then none else sl.cells c
    released := sl.releasing (L.map Tower.binding) }, ?_, rfl, ?_, rfl, ?_⟩
  · intro fuel hfuel
    have hloop := (Row.of_shape h.shape).clearLoop (length_lt_of_enough hfuel)
    simp only [step, Skiplist.clear, hread, Option.bind_eq_bind, Option.bind_some,
      hloop]
  · refine ⟨h.shape.compare, .nil, nofun, nofun, ?_, fun i _ => rfl, rfl⟩
    intro a iter ha
    by_cases hmem : a ∈ L.map (·.addr)
    · exact absurd ((if_pos hmem).symm.trans ha) nofun
    · have hin := h.shape.only a iter ((if_neg hmem).symm.trans ha)
      exact absurd (List.mem_map_of_mem hin) hmem
  · show sl.releasing _ = _
    unfold releasing specStep MapState.release
    rw [h.released, h.bindings]

/-! ## Runs -/

theorem insert_reply (freeFun : Bool) (m : MapState K V) (rand : Nat → Nat)
    (a : Addr) (key : K) (val : V) :
    (specStep freeFun m (.insert rand a key val)).1 = .done := by
  cases hf : m.map.find? key with
  | none => simp [specStep, hf]
  | some b => simp [specStep, hf]

/-- **One call**: whatever it is, it returns with the reply of the map, and
leaves a skiplist that holds the bindings of the map. -/
theorem Refines.step (h : Refines sl L m) {op : SkiplistOp K V} (hop : op.Fresh sl) :
    ∃ sl' L', Returns sl op (specStep sl.freeFun m op).1 sl' ∧
      sl'.freeFun = sl.freeFun ∧ Refines sl' L' (specStep sl.freeFun m op).2 := by
  cases op with
  | insert rand a key val =>
      obtain ⟨sl', L', hstep, hfree, href⟩ := h.insert rand hop key val
      refine ⟨sl', L', ⟨enough L, fun fuel hfuel => ?_⟩, hfree, href⟩
      rw [hstep fuel hfuel, insert_reply]
  | remove key =>
      obtain ⟨sl', L', hstep, hfree, href⟩ := h.remove key
      exact ⟨sl', L', ⟨enough L, hstep⟩, hfree, href⟩
  | search key => exact ⟨sl, L, ⟨enough L, fun _ => h.search key⟩, rfl, h⟩
  | foreach => exact ⟨sl, L, ⟨enough L, fun _ => h.foreach⟩, rfl, h⟩
  | clear =>
      obtain ⟨sl', hstep, hfree, href⟩ := h.clear
      exact ⟨sl', [], ⟨enough L, hstep⟩, hfree, href⟩

/-- A call of the skiplist that returns, next to the same call of the map. -/
def RefinementStep (freeFun : Bool) (c : Skiplist K V × MapState K V)
    (op : SkiplistOp K V) (c' : Skiplist K V × MapState K V) : Prop :=
  op.Fresh c.1 ∧ (∃ r, Returns c.1 op r c'.1) ∧ c'.2 = (specStep freeFun c.2 op).2

theorem refines_create {cmp : K → K → Int} (hcmp : Comparator cmp) (freeFun : Bool) :
    Refines (create cmp freeFun : Skiplist K V) [] ⟨.empty, []⟩ where
  shape := ⟨hcmp, .nil, nofun, nofun, nofun, fun _ _ => rfl, rfl⟩
  bindings := rfl
  released := rfl

/-- **The skiplist refines the sorted map.** After every run of calls, level
`0` holds the bindings of the map in the order of their keys, a higher level is
a sublist of the level below, the same items have been released, and every
next call returns, with the reply of the map. -/
theorem skiplist_refines {cmp : K → K → Int} (hcmp : Comparator cmp) {freeFun : Bool}
    {ops : List (SkiplistOp K V)} {c : Skiplist K V × MapState K V}
    (hrun : Run (RefinementStep freeFun) (Skiplist.create cmp freeFun, ⟨.empty, []⟩) ops c) :
    ∃ L, Refines c.1 L c.2 ∧ towersAt L 0 = L ∧
      (∀ i, (towersAt L (i + 1)).Sublist (towersAt L i)) ∧
      ∀ op, op.Fresh c.1 → ∃ sl', Returns c.1 op (specStep freeFun c.2 op).1 sl' ∧
        RefinementStep freeFun c op (sl', (specStep freeFun c.2 op).2) := by
  have hinv : c.1.freeFun = freeFun ∧ ∃ L, Refines c.1 L c.2 := by
    refine hrun.stateInvariant (I := fun c => c.1.freeFun = freeFun ∧ ∃ L, Refines c.1 L c.2)
      ⟨rfl, [], refines_create hcmp freeFun⟩ ?_
    intro c op c' hc hstep
    obtain ⟨hfree, L, href⟩ := hc
    obtain ⟨hfresh, ⟨r, hret⟩, hspec⟩ := hstep
    obtain ⟨sl', L', hret', hfree', href'⟩ := href.step hfresh
    obtain ⟨_, hsl⟩ := hret.unique hret'
    rw [hsl, hspec, ← hfree]
    exact ⟨hfree', L', href'⟩
  obtain ⟨hfree, L, href⟩ := hinv
  refine ⟨L, href, href.shape.towersAt_zero, towersAt_sublist L, ?_⟩
  intro op hop
  obtain ⟨sl', L', hret, _, _⟩ := href.step hop
  rw [hfree] at hret
  exact ⟨sl', hret, hop, ⟨_, hret⟩, rfl⟩

theorem skiplist_refines_released :
    ∃ (c : Skiplist Nat Nat × MapState Nat Nat) (L : List (Tower Nat Nat)),
      Refines c.1 L c.2 ∧ c.2.map.toList = [] ∧ c.2.released = [(3, 30)] := by
  let c₀ : Skiplist Nat Nat × MapState Nat Nat :=
    (Skiplist.create idu32Compare true, ⟨.empty, []⟩)
  have hinsert : ∃ c, Run (RefinementStep true) c₀ [.insert (fun _ => 0) 0 3 30] c ∧
      c.2.map.toList = [(3, 30)] ∧ c.2.released = [] := by
    obtain ⟨L, _, _, _, hnext⟩ := skiplist_refines idCompare_comparator (.nil : Run _ c₀ _ _)
    obtain ⟨sl, _, hstep⟩ := hnext (.insert (fun _ => 0) 0 3 30) rfl
    exact ⟨_, .snoc .nil hstep, rfl, rfl⟩
  obtain ⟨c, hrun, hmap, hreleased⟩ := hinsert
  obtain ⟨L, _, _, _, hnext⟩ := skiplist_refines idCompare_comparator hrun
  obtain ⟨sl, _, hstep⟩ := hnext (.remove 3) trivial
  obtain ⟨L', href, _⟩ := skiplist_refines idCompare_comparator (.snoc hrun hstep)
  refine ⟨_, L', href, ?_⟩
  simp [specStep, SortedMap.find?, SortedMap.erase, MapState.release, hmap, hreleased]

end Spec

end Skiplist

end Razor
