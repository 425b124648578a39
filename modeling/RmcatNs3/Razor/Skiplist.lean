import Mathlib.Algebra.Order.Group.Unbundled.Int
import Mathlib.Order.Defs.LinearOrder

/-!
# The skiplist

`razor/common/cf_skiplist.{c,h}`. Nodes live at addresses; a pointer cell is
named by its owner (a node, or the skiplist itself for `entries`) and its
level, so that `iterp--` is the cell of the same owner one level below.
Reading a cell that does not exist, following a pointer to a node that is not
allocated, freeing such a node, using a slot of `stack` that was not set, and
running out of the iterations allowed to a loop are all `none`.

The random numbers and the address that `calloc` returns are parameters.
`skiplist_create` with its default comparator and `skiplist_destroy` are left
out.
-/

namespace Razor

/-- Addresses of nodes; a pointer is an `Option Addr`. -/
abbrev Addr := Nat

def skiplistMaxdepth : Nat := 8

/-- The body of the `id..._compare` functions, which differ in the member of
`skiplist_item_t` that they compare: an unsigned or a signed number. -/
def idCompare {α : Type} [LinearOrder α] (k1 k2 : α) : Int :=
  if k1 > k2 then 1 else if k1 < k2 then -1 else 0

def idu64Compare (k1 k2 : Nat) : Int := idCompare k1 k2
def idu32Compare (k1 k2 : Nat) : Int := idCompare k1 k2
def idu16Compare (k1 k2 : Nat) : Int := idCompare k1 k2
def idu8Compare (k1 k2 : Nat) : Int := idCompare k1 k2
def id64Compare (k1 k2 : Int) : Int := idCompare k1 k2
def id32Compare (k1 k2 : Int) : Int := idCompare k1 k2
def id16Compare (k1 k2 : Int) : Int := idCompare k1 k2
def id8Compare (k1 k2 : Int) : Int := idCompare k1 k2

/-- `skiplist_iter_t` without its pointer cells. -/
structure SkiplistIter (K V : Type) where
  key : K
  val : V
  depth : Nat
  deriving DecidableEq, Repr

/-- A pointer cell: `entries[level]`, or `next[level]` of a node. -/
structure Cell where
  owner : Option Addr
  level : Nat
  deriving DecidableEq, Repr

structure Skiplist (K V : Type) where
  size : Nat
  compareFun : K → K → Int
  /-- Whether `free_fun` is set. -/
  freeFun : Bool
  nodes : Addr → Option (SkiplistIter K V)
  cells : Cell → Option Addr
  /-- The calls of `free_fun`, oldest first. -/
  released : List (K × V)

namespace Skiplist

variable {K V : Type}

/-- `skiplist_create`. -/
def create (compareCb : K → K → Int) (freeFun : Bool) : Skiplist K V where
  size := 0
  compareFun := compareCb
  freeFun := freeFun
  nodes := fun _ => none
  cells := fun _ => none
  released := []

/-! ## Memory -/

/-- Whether a pointer cell exists. -/
def hasCell (sl : Skiplist K V) (c : Cell) : Bool :=
  match c.owner with
  | none => decide (c.level < skiplistMaxdepth)
  | some a =>
      match sl.nodes a with
      | none => false
      | some node => decide (c.level < node.depth)

def read (sl : Skiplist K V) (c : Cell) : Option (Option Addr) :=
  if sl.hasCell c then some (sl.cells c) else none

def write (sl : Skiplist K V) (c : Cell) (p : Option Addr) :
    Option (Skiplist K V) :=
  if sl.hasCell c then
    some { sl with cells := fun c' => if c' = c then p else sl.cells c' }
  else none

/-- `calloc` of a node at `a`, and the stores to its members. -/
def calloc (sl : Skiplist K V) (a : Addr) (iter : SkiplistIter K V) :
    Skiplist K V :=
  { sl with
    nodes := fun a' => if a' = a then some iter else sl.nodes a'
    cells := fun c => if c.owner = some a then none else sl.cells c }

/-- `free` of a node. -/
def free (sl : Skiplist K V) (a : Addr) : Option (Skiplist K V) :=
  match sl.nodes a with
  | none => none
  | some _ =>
      some { sl with nodes := fun a' => if a' = a then none else sl.nodes a' }

/-- The call of `free_fun`, if it is set. -/
def callFree (sl : Skiplist K V) (key : K) (val : V) : Skiplist K V :=
  if sl.freeFun then { sl with released := sl.released ++ [(key, val)] } else sl

/-! ## Searching -/

/-- The array `stack` of pointers to pointer cells. -/
abbrev Stack := Nat → Option Cell

def Stack.set (stack : Stack) (i : Nat) (c : Cell) : Stack :=
  fun j => if j = i then some c else stack j

/-- The loop of `skiplist_insert_stack`, with `levels = i + 1`; the result is
`none` for `-1`. -/
def insertStackLoop (sl : Skiplist K V) (key : K) :
    Nat → Nat → Option Addr → Stack → Option (Option Stack)
  | 0, _, _, _ => none
  | _ + 1, 0, _, stack => some (some stack)
  | fuel + 1, i + 1, owner, stack => do
      match ← sl.read ⟨owner, i⟩ with
      | none => insertStackLoop sl key fuel i owner (stack.set i ⟨owner, i⟩)
      | some a =>
          let iter ← sl.nodes a
          let cmp := sl.compareFun iter.key key
          if cmp > 0 then
            insertStackLoop sl key fuel i owner (stack.set i ⟨owner, i⟩)
          else if cmp = 0 then some none
          else insertStackLoop sl key fuel (i + 1) (some a) stack

def insertStack (sl : Skiplist K V) (fuel : Nat) (key : K) :
    Option (Option Stack) :=
  insertStackLoop sl key fuel skiplistMaxdepth none fun _ => none

/-- The loop of `skip_remove_stack`, with `levels = i + 1`; the result is
`ret` and the stack. -/
def removeStackLoop (sl : Skiplist K V) (key : K) :
    Nat → Nat → Option Addr → Option Addr → Stack →
      Option (Option Addr × Stack)
  | 0, _, _, _, _ => none
  | _ + 1, 0, _, ret, stack => some (ret, stack)
  | fuel + 1, i + 1, owner, ret, stack => do
      match ← sl.read ⟨owner, i⟩ with
      | none => removeStackLoop sl key fuel i owner ret (stack.set i ⟨owner, i⟩)
      | some a =>
          let iter ← sl.nodes a
          let cmp := sl.compareFun iter.key key
          if cmp = 0 then
            if i > 0 then
              removeStackLoop sl key fuel i owner (some a) (stack.set i ⟨owner, i⟩)
            else some (some a, stack.set i ⟨owner, i⟩)
          else if cmp < 0 then
            removeStackLoop sl key fuel (i + 1) (some a) ret stack
          else if i > 0 then
            removeStackLoop sl key fuel i owner ret (stack.set i ⟨owner, i⟩)
          else some (ret, stack)

def removeStack (sl : Skiplist K V) (fuel : Nat) (key : K) :
    Option (Option Addr × Stack) :=
  removeStackLoop sl key fuel skiplistMaxdepth none none fun _ => none

/-- The loop of `skiplist_search_iter`, with `levels = i + 1`. -/
def searchLoop (sl : Skiplist K V) (key : K) :
    Nat → Nat → Option Addr → Option (Option Addr)
  | 0, _, _ => none
  | _ + 1, 0, _ => some none
  | fuel + 1, i + 1, owner => do
      match ← sl.read ⟨owner, i⟩ with
      | none => searchLoop sl key fuel i owner
      | some a =>
          let iter ← sl.nodes a
          let cmp := sl.compareFun iter.key key
          if cmp = 0 then some (some a)
          else if cmp > 0 then searchLoop sl key fuel i owner
          else searchLoop sl key fuel (i + 1) (some a)

def search (sl : Skiplist K V) (fuel : Nat) (key : K) : Option (Option Addr) :=
  searchLoop sl key fuel skiplistMaxdepth none

/-! ## Updates -/

/-- The loop of `wb_skip_depth` from depth `d` on; `rand d` is the number that
the call of `rand` at depth `d` returns. -/
def wbSkipDepthLoop (rand : Nat → Nat) : Nat → Nat → Nat
  | 0, d => d
  | n + 1, d =>
      if (rand d) &&& 0xffff > 0x4000 then d else wbSkipDepthLoop rand n (d + 1)

def wbSkipDepth (rand : Nat → Nat) : Nat :=
  wbSkipDepthLoop rand (skiplistMaxdepth - 1) 1

/-- One turn of the loop of `skiplist_insert`:
`iter->next[i] = *stack[i]; *stack[i] = iter`. -/
def linkLevel (stack : Stack) (a : Addr) (sl : Skiplist K V) (i : Nat) :
    Option (Skiplist K V) := do
  let c ← stack i
  let p ← sl.read c
  let sl ← sl.write ⟨some a, i⟩ p
  sl.write c (some a)

/-- One turn of the loop of `skiplist_remove`: `*stack[i] = iter->next[i]`. -/
def unlinkLevel (stack : Stack) (a : Addr) (sl : Skiplist K V) (i : Nat) :
    Option (Skiplist K V) := do
  let c ← stack i
  let p ← sl.read ⟨some a, i⟩
  sl.write c p

/-- `skiplist_insert`, with the node allocated at `a`. -/
def insert (sl : Skiplist K V) (fuel : Nat) (rand : Nat → Nat) (a : Addr)
    (key : K) (val : V) : Option (Skiplist K V) := do
  match ← sl.insertStack fuel key with
  | none => some (sl.callFree key val)
  | some stack =>
      let depth := wbSkipDepth rand
      let sl := sl.calloc a ⟨key, val, depth⟩
      let sl ← (List.range depth).foldlM (linkLevel stack a) sl
      some { sl with size := sl.size + 1 }

/-- `skiplist_remove`; the result is the pointer it returns. -/
def remove (sl : Skiplist K V) (fuel : Nat) (key : K) :
    Option (Option Addr × Skiplist K V) := do
  let (iter, stack) ← sl.removeStack fuel key
  match iter with
  | none => some (none, sl)
  | some a =>
      let iter ← sl.nodes a
      let sl ← (List.range iter.depth).foldlM (unlinkLevel stack a) sl
      let sl := sl.callFree iter.key iter.val
      let sl ← sl.free a
      let sl := if sl.size > 0 then { sl with size := sl.size - 1 } else sl
      let c ← stack 0
      let ret ← sl.read c
      some (ret, sl)

/-- The loop of `skiplist_clear`. -/
def clearLoop (sl : Skiplist K V) : Nat → Option Addr → Option (Skiplist K V)
  | 0, _ => none
  | _ + 1, none => some sl
  | fuel + 1, some a => do
      let next ← sl.read ⟨some a, 0⟩
      let iter ← sl.nodes a
      let sl ← (sl.callFree iter.key iter.val).free a
      clearLoop sl fuel next

def clear (sl : Skiplist K V) (fuel : Nat) : Option (Skiplist K V) := do
  let first ← sl.read ⟨none, 0⟩
  let sl ← sl.clearLoop fuel first
  some { sl with
    size := 0
    cells := fun c => if c.owner = none then none else sl.cells c }

/-! ## Iteration -/

/-- `skiplist_first`. -/
def first (sl : Skiplist K V) : Option (Option Addr) := sl.read ⟨none, 0⟩

/-- The loop of `SKIPLIST_FOREACH`: the bindings it visits. -/
def foreachLoop (sl : Skiplist K V) : Nat → Option Addr → Option (List (K × V))
  | 0, _ => none
  | _ + 1, none => some []
  | fuel + 1, some a => do
      let iter ← sl.nodes a
      let next ← sl.read ⟨some a, 0⟩
      let rest ← foreachLoop sl fuel next
      some ((iter.key, iter.val) :: rest)

def foreach (sl : Skiplist K V) (fuel : Nat) : Option (List (K × V)) := do
  let first ← sl.first
  sl.foreachLoop fuel first

end Skiplist

end Razor
