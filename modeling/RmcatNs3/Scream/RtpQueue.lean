import RmcatNs3.Lib.CircularBuffer
import RmcatNs3.Lib.MachineInt

/-!
# The RTP queue of SCReAM

`scream/model/rtpqueue.{h,cc}`: a ring of `RtpQueueSize` items. The pointer to the packet is
left out: `pop` reads it into its own copy of the argument. The time stamps are the elements
of any type.
-/

namespace Scream

open BoundedArray CircularBuffer MachineInt

def rtpQueueSize : Nat := 20000

structure RtpQueueItem (τ : Type) where
  size : Int
  seqNr : UInt16
  ts : τ
  used : Bool

structure RtpQueue (τ : Type) where
  items : Vector (RtpQueueItem τ) rtpQueueSize
  /-- The last inserted item. -/
  head : Int
  /-- The oldest item. -/
  tail : Nat
  bytesInQueue_ : Int
  sizeOfQueue_ : Int
  sizeOfNextRtp_ : Int

/-- What `pop` and `sendPacket` return, and what they leave in the arguments. -/
structure Delivery where
  result : Bool
  size : Int
  seqNr : UInt16
  deriving DecidableEq

namespace RtpQueue

variable {τ : Type}

/-- A new queue; `ts` is what is in the memory of the time stamps. -/
def new (ts : τ) : RtpQueue τ where
  items := Vector.replicate rtpQueueSize ⟨0, 0, ts, false⟩
  head := -1
  tail := 0
  bytesInQueue_ := 0
  sizeOfQueue_ := 0
  sizeOfNextRtp_ := -1

def computeSizeOfNextRtp (q : RtpQueue τ) : Option (RtpQueue τ) := do
  let item ← load q.items q.tail
  some { q with sizeOfNextRtp_ := if item.used then item.size else -1 }

def push (q : RtpQueue τ) (size : Int) (seqNr : UInt16) (ts : τ) : Option (RtpQueue τ) := do
  let head := if q.head + 1 = rtpQueueSize then 0 else q.head + 1
  let items ← storeInt q.items head ⟨size, seqNr, ts, true⟩
  computeSizeOfNextRtp { q with
    items
    head
    bytesInQueue_ := toSigned 32 (q.bytesInQueue_ + size)
    sizeOfQueue_ := toSigned 32 (q.sizeOfQueue_ + 1) }

def pop (q : RtpQueue τ) (size : Int) (seqNr : UInt16) : Option (RtpQueue τ × Delivery) := do
  let item ← load q.items q.tail
  if item.used = false then some ({ q with sizeOfNextRtp_ := -1 }, ⟨false, size, seqNr⟩)
  else
    let items ← store q.items q.tail { item with used := false }
    let q ← computeSizeOfNextRtp { q with
      items
      tail := if q.tail + 1 = rtpQueueSize then 0 else q.tail + 1
      bytesInQueue_ := toSigned 32 (q.bytesInQueue_ - item.size)
      sizeOfQueue_ := toSigned 32 (q.sizeOfQueue_ - 1) }
    some (q, ⟨true, item.size, item.seqNr⟩)

def sizeOfNextRtp (q : RtpQueue τ) : Int := q.sizeOfNextRtp_

def seqNrOfNextRtp (q : RtpQueue τ) : Option Int := do
  let item ← load q.items q.tail
  some (if item.used then item.seqNr.toNat else -1)

def bytesInQueue (q : RtpQueue τ) : Int := q.bytesInQueue_

def sizeOfQueue (q : RtpQueue τ) : Int := q.sizeOfQueue_

def getDelay [Zero τ] [Sub τ] (q : RtpQueue τ) (currTs : τ) : Option τ := do
  let item ← load q.items q.tail
  some (if item.used then currTs - item.ts else 0)

def sendPacket (q : RtpQueue τ) (size : Int) (seqNr : UInt16) :
    Option (RtpQueue τ × Delivery) :=
  if q.sizeOfQueue > 0 then
    (q.pop size seqNr).map fun r => (r.1, { r.2 with result := true })
  else some (q, ⟨false, size, seqNr⟩)

def clear (q : RtpQueue τ) : RtpQueue τ where
  items := q.items.map fun item => { item with used := false }
  head := -1
  tail := 0
  bytesInQueue_ := 0
  sizeOfQueue_ := 0
  sizeOfNextRtp_ := -1

end RtpQueue

/-! ## Calls -/

inductive QueueCall (τ : Type) where
  | push (size : Int) (seqNr : UInt16) (ts : τ)
  | pop (size : Int) (seqNr : UInt16)
  | sendPacket (size : Int) (seqNr : UInt16)
  | clear

/-- What a caller sees after a call. -/
structure QueueView where
  delivery : Option Delivery
  bytesInQueue : Int
  sizeOfQueue : Int
  sizeOfNextRtp : Int
  deriving DecidableEq

namespace RtpQueue

variable {τ : Type}

def perform (q : RtpQueue τ) : QueueCall τ → Option (RtpQueue τ × Option Delivery)
  | .push size seqNr ts => (q.push size seqNr ts).map fun q => (q, none)
  | .pop size seqNr => (q.pop size seqNr).map fun r => (r.1, some r.2)
  | .sendPacket size seqNr => (q.sendPacket size seqNr).map fun r => (r.1, some r.2)
  | .clear => some (q.clear, none)

def view (q : RtpQueue τ) (delivery : Option Delivery) : QueueView :=
  ⟨delivery, q.bytesInQueue, q.sizeOfQueue, q.sizeOfNextRtp⟩

/-- What is seen after each of some calls. -/
def views (q : RtpQueue τ) : List (QueueCall τ) → Option (List QueueView)
  | [] => some []
  | call :: calls => do
      let r ← q.perform call
      let rest ← r.1.views calls
      some (r.1.view r.2 :: rest)

end RtpQueue

/-! ## The abstract queue -/

/-- What is queued of a packet. -/
structure RtpEntry (τ : Type) where
  size : Int
  seqNr : UInt16
  ts : τ

namespace Fifo

variable {τ : Type}

/-- The total size. -/
def bytes (l : List (RtpEntry τ)) : Int := (l.map (·.size)).sum

/-- The size of the first packet. -/
def nextSize (l : List (RtpEntry τ)) : Int := (l.head?.map (·.size)).getD (-1)

/-- What a call leaves in the queue. -/
def after (l : List (RtpEntry τ)) : QueueCall τ → List (RtpEntry τ)
  | .push size seqNr ts => l ++ [⟨size, seqNr, ts⟩]
  | .pop _ _ => l.tail
  | .sendPacket _ _ => l.tail
  | .clear => []

/-- The first packet is delivered, if there is one. -/
def deliver (l : List (RtpEntry τ)) (size : Int) (seqNr : UInt16) : Delivery :=
  (l.head?.map fun e => ⟨true, e.size, e.seqNr⟩).getD ⟨false, size, seqNr⟩

def delivery (l : List (RtpEntry τ)) : QueueCall τ → Option Delivery
  | .push _ _ _ => none
  | .pop size seqNr => some (deliver l size seqNr)
  | .sendPacket size seqNr => some (deliver l size seqNr)
  | .clear => none

def views (l : List (RtpEntry τ)) : List (QueueCall τ) → List QueueView
  | [] => []
  | call :: calls =>
      ⟨delivery l call, bytes (after l call), (after l call).length, nextSize (after l call)⟩ ::
        views (after l call) calls

/-- The queue fits in the ring, and its total size in an `int`. -/
structure Fits (l : List (RtpEntry τ)) : Prop where
  length_le : l.length ≤ rtpQueueSize
  bytes_ge : -2 ^ 31 ≤ bytes l
  bytes_lt : bytes l < 2 ^ 31

/-- The queue fits after every call. -/
def FitsAll (l : List (RtpEntry τ)) : List (QueueCall τ) → Prop
  | [] => True
  | call :: calls => Fits (after l call) ∧ FitsAll (after l call) calls

end Fifo

/-! ## The ring holds the queue -/

namespace RtpQueue

open Fifo

variable {τ : Type} {q : RtpQueue τ} {l : List (RtpEntry τ)}

/-- What an item holds. -/
def held (item : RtpQueueItem τ) : Option (RtpEntry τ) :=
  if item.used then some ⟨item.size, item.seqNr, item.ts⟩ else none

/-- **The abstraction relation**: the items from `tail` on are the queue, `head` is the last
of them, and the cached numbers are those of the queue. -/
structure Represents (q : RtpQueue τ) (l : List (RtpEntry τ)) : Prop where
  fits : Fits l
  tail_lt : q.tail < rtpQueueSize
  head_ge : -1 ≤ q.head
  head_lt : q.head < rtpQueueSize
  head : (q.head + 1) % rtpQueueSize = ((q.tail + l.length) % rtpQueueSize : Nat)
  items : Queues q.items q.tail held l
  bytes : q.bytesInQueue = Fifo.bytes l
  length : q.sizeOfQueue = l.length
  first : q.sizeOfNextRtp = nextSize l

@[simp] theorem bytes_cons (e : RtpEntry τ) (l : List (RtpEntry τ)) :
    Fifo.bytes (e :: l) = e.size + Fifo.bytes l := by
  simp [bytes]

@[simp] theorem bytes_snoc (l : List (RtpEntry τ)) (e : RtpEntry τ) :
    Fifo.bytes (l ++ [e]) = Fifo.bytes l + e.size := by
  simp [bytes]

theorem held_eq_some {item : RtpQueueItem τ} {e : RtpEntry τ} (h : held item = some e) :
    item.used = true ∧ ⟨item.size, item.seqNr, item.ts⟩ = e := by
  rw [held] at h
  split at h
  · exact ⟨by assumption, Option.some.inj h⟩
  · cases h

theorem fits_nil : Fits ([] : List (RtpEntry τ)) where
  length_le := Nat.zero_le _
  bytes_ge := by simp [bytes]
  bytes_lt := by simp [bytes]

/-- What is read of the item at `tail`. -/
theorem ite_used {item : RtpQueueItem τ} {α : Type} (h : held item = l.head?) (f : RtpEntry τ → α)
    (a : α) :
    (if item.used then f ⟨item.size, item.seqNr, item.ts⟩ else a) = (l.head?.map f).getD a := by
  rw [← h, held]
  split <;> rfl

theorem computeSizeOfNextRtp_eq (h : Queues q.items q.tail held l) (htail : q.tail < rtpQueueSize) :
    q.computeSizeOfNextRtp = some { q with sizeOfNextRtp_ := nextSize l } := by
  obtain ⟨item, hload, hheld⟩ := h.head htail
  rw [computeSizeOfNextRtp, hload, nextSize, ← ite_used hheld]
  rfl

theorem seqNrOfNextRtp_eq (h : Represents q l) :
    q.seqNrOfNextRtp = some ((l.head?.map fun e => (e.seqNr.toNat : Int)).getD (-1)) := by
  obtain ⟨item, hload, hheld⟩ := h.items.head h.tail_lt
  rw [seqNrOfNextRtp, hload, ← ite_used hheld]
  rfl

theorem getDelay_eq [Zero τ] [Sub τ] (h : Represents q l) (currTs : τ) :
    q.getDelay currTs = some ((l.head?.map fun e => currTs - e.ts).getD 0) := by
  obtain ⟨item, hload, hheld⟩ := h.items.head h.tail_lt
  rw [getDelay, hload, ← ite_used hheld]
  rfl

theorem rtpQueueSize_pos : 0 < rtpQueueSize := by decide

/-- No item is used. -/
theorem represents_nil {items : Vector (RtpQueueItem τ) rtpQueueSize}
    (h : ∀ i item, load items i = some item → item.used = false) :
    Represents ⟨items, -1, 0, 0, 0, -1⟩ [] where
  fits := fits_nil
  tail_lt := rtpQueueSize_pos
  head_ge := le_refl _
  head_lt := by
    have hpos := rtpQueueSize_pos
    dsimp only
    omega
  head := by simp
  items := by
    refine .nil rtpQueueSize_pos fun i item hload => ?_
    rw [held, h i item hload]
    rfl
  bytes := rfl
  length := rfl
  first := rfl

theorem represents_new (ts : τ) : Represents (new ts) [] := by
  refine represents_nil fun i item hload => ?_
  simp only [load, Vector.getElem?_replicate] at hload
  split at hload
  · obtain rfl := Option.some.inj hload
    rfl
  · cases hload

theorem represents_clear (q : RtpQueue τ) : Represents q.clear [] := by
  refine represents_nil fun i item hload => ?_
  simp only [load, Vector.getElem?_map] at hload
  obtain ⟨item, _, rfl⟩ := Option.map_eq_some_iff.mp hload
  rfl

/-- The item that `push` writes to is the one after the last. -/
theorem Represents.head_succ (h : Represents q l) :
    (if q.head + 1 = rtpQueueSize then 0 else q.head + 1) =
      (((q.tail + l.length) % rtpQueueSize : Nat) : Int) := by
  have hge := h.head_ge
  have hlt := h.head_lt
  rw [← h.head]
  split
  · rename_i heq
    rw [heq, Int.emod_self]
  · exact (Int.emod_eq_of_lt (by omega) (by omega)).symm

/-- The last item moves up by one with a push, and the first one with a pop. -/
theorem head_push {tail n : Nat} :
    ((((tail + n) % rtpQueueSize : Nat) : Int) + 1) % rtpQueueSize =
      ((tail + (n + 1)) % rtpQueueSize : Nat) := by
  push_cast
  rw [Int.emod_add_emod, add_assoc]

/-- A push writes to the item after the last one, in a full ring to the oldest. -/
theorem Represents.push_eq (h : Represents q l) (size : Int) (seqNr : UInt16) (ts : τ) :
    ∃ items, store q.items ((q.tail + l.length) % rtpQueueSize) ⟨size, seqNr, ts, true⟩ =
        some items ∧
      q.push size seqNr ts = computeSizeOfNextRtp
        { q with
          items
          head := ((q.tail + l.length) % rtpQueueSize : Nat)
          bytesInQueue_ := toSigned 32 (q.bytesInQueue_ + size)
          sizeOfQueue_ := toSigned 32 (q.sizeOfQueue_ + 1) } := by
  obtain ⟨items, hstore⟩ := store_isSome (a := q.items)
    (Nat.mod_lt (q.tail + l.length) rtpQueueSize_pos) ⟨size, seqNr, ts, true⟩
  refine ⟨items, hstore, ?_⟩
  have hstoreInt : storeInt q.items ((q.tail + l.length) % rtpQueueSize : Nat)
      ⟨size, seqNr, ts, true⟩ = some items := by
    rw [storeInt, if_pos (Int.natCast_nonneg _), Int.toNat_natCast]
    exact hstore
  rw [RtpQueue.push, h.head_succ, hstoreInt]
  rfl

/-- **A push** to a queue that is not full. -/
theorem Represents.push (h : Represents q l) (size : Int) (seqNr : UInt16) (ts : τ)
    (hfits : Fits (l ++ [⟨size, seqNr, ts⟩])) :
    ∃ q', q.push size seqNr ts = some q' ∧ Represents q' (l ++ [⟨size, seqNr, ts⟩]) := by
  have hlen : l.length < rtpQueueSize := by
    have hle := hfits.length_le
    rwa [List.length_append, List.length_singleton] at hle
  have hbytes : toSigned 32 (q.bytesInQueue_ + size) = Fifo.bytes (l ++ [⟨size, seqNr, ts⟩]) := by
    have hsum : q.bytesInQueue_ + size = Fifo.bytes (l ++ [⟨size, seqNr, ts⟩]) := by
      rw [← bytesInQueue, h.bytes, bytes_snoc]
    rw [hsum]
    exact toSigned_of_bounds hfits.bytes_ge hfits.bytes_lt
  have hcount : toSigned 32 (q.sizeOfQueue_ + 1) = l.length + 1 := by
    rw [← sizeOfQueue, h.length]
    simp only [rtpQueueSize] at hlen
    exact toSigned_of_bounds (by omega) (by omega)
  obtain ⟨items, hstore, hpush⟩ := h.push_eq size seqNr ts
  have hitems := h.items.push hlen hstore rfl
  refine ⟨_, hpush.trans (computeSizeOfNextRtp_eq hitems h.tail_lt), ?_⟩
  exact
    { fits := hfits
      tail_lt := h.tail_lt
      head_ge := by
        dsimp only
        omega
      head_lt := Int.ofNat_lt.mpr (Nat.mod_lt _ rtpQueueSize_pos)
      head := by
        rw [List.length_append, List.length_singleton]
        exact head_push
      items := hitems
      bytes := hbytes
      length := by
        rw [List.length_append, List.length_singleton]
        exact hcount
      first := rfl }

/-- **A push to a full queue** overwrites the oldest packet. -/
theorem Represents.push_full (h : Represents q l) (hfull : l.length = rtpQueueSize) (size : Int)
    (seqNr : UInt16) (ts : τ) :
    ∃ q', q.push size seqNr ts = some q' ∧ q'.sizeOfNextRtp = size ∧
      load q'.items q'.tail = some ⟨size, seqNr, ts, true⟩ := by
  obtain ⟨items, hstore, hpush⟩ := h.push_eq size seqNr ts
  have hslot : (q.tail + l.length) % rtpQueueSize = q.tail := by
    rw [hfull, Nat.add_mod_right, Nat.mod_eq_of_lt h.tail_lt]
  have hload := load_store hstore q.tail
  rw [hslot, if_pos rfl] at hload
  rw [hpush, computeSizeOfNextRtp]
  dsimp only
  rw [hload]
  exact ⟨_, rfl, rfl, hload⟩

/-- **A pop** from a queue that is not empty. -/
theorem Represents.pop_cons {e : RtpEntry τ} (h : Represents q (e :: l)) (size : Int)
    (seqNr : UInt16) (hfits : Fits l) :
    ∃ q', q.pop size seqNr = some (q', ⟨true, e.size, e.seqNr⟩) ∧ Represents q' l := by
  obtain ⟨item, hload, hheld⟩ := h.items.head h.tail_lt
  obtain ⟨hused, rfl⟩ := held_eq_some hheld
  have hlen := h.fits.length_le
  obtain ⟨items, hstore⟩ := store_isSome (a := q.items) h.tail_lt { item with used := false }
  have hitems := h.items.pop hlen h.tail_lt hstore rfl
  have hnext : next rtpQueueSize q.tail =
      if q.tail + 1 = rtpQueueSize then 0 else q.tail + 1 := by
    have htail := h.tail_lt
    rw [next]
    split <;> split <;> omega
  have hbytes : toSigned 32 (q.bytesInQueue_ - item.size) = Fifo.bytes l := by
    have hsum : q.bytesInQueue_ - item.size = Fifo.bytes l := by
      rw [← bytesInQueue, h.bytes, bytes_cons, add_sub_cancel_left]
    rw [hsum]
    exact toSigned_of_bounds hfits.bytes_ge hfits.bytes_lt
  have hcount : toSigned 32 (q.sizeOfQueue_ - 1) = l.length := by
    rw [← sizeOfQueue, h.length, List.length_cons]
    simp only [rtpQueueSize, List.length_cons] at hlen
    push_cast
    rw [toSigned_of_bounds (by omega) (by omega)]
    omega
  have hlt : next rtpQueueSize q.tail < rtpQueueSize := next_lt h.tail_lt
  have hhead : ((q.head + 1) % rtpQueueSize : Int) =
      ((next rtpQueueSize q.tail + l.length) % rtpQueueSize : Nat) := by
    rw [h.head, next_add_mod h.tail_lt, List.length_cons]
  have hfirst : computeSizeOfNextRtp
      { q with
        items
        tail := next rtpQueueSize q.tail
        bytesInQueue_ := Fifo.bytes l
        sizeOfQueue_ := l.length } = _ :=
    computeSizeOfNextRtp_eq hitems hlt
  rw [RtpQueue.pop, hload, Option.bind_eq_bind, Option.bind_some, if_neg (by simp [hused]),
    hstore, ← hnext, hbytes, hcount, Option.bind_eq_bind, Option.bind_some, hfirst]
  exact ⟨_, rfl, hfits, hlt, h.head_ge, h.head_lt, hhead, hitems, rfl, rfl, rfl⟩

/-- A pop from an empty queue. -/
theorem Represents.pop_nil (h : Represents q []) (size : Int) (seqNr : UInt16) :
    ∃ q', q.pop size seqNr = some (q', ⟨false, size, seqNr⟩) ∧ Represents q' [] := by
  obtain ⟨item, hload, hheld⟩ := h.items.head h.tail_lt
  have hused : item.used = false := by
    cases hcase : item.used with
    | false => rfl
    | true => simp [held, hcase] at hheld
  rw [RtpQueue.pop, hload, Option.bind_eq_bind, Option.bind_some, if_pos hused]
  exact ⟨_, rfl, { h with first := rfl }⟩

theorem Represents.pop (h : Represents q l) (size : Int) (seqNr : UInt16) (hfits : Fits l.tail) :
    ∃ q', q.pop size seqNr = some (q', deliver l size seqNr) ∧ Represents q' l.tail := by
  cases l with
  | nil => exact h.pop_nil size seqNr
  | cons e l => exact h.pop_cons size seqNr hfits

/-- `sendPacket` is a pop, also from an empty queue. -/
theorem Represents.sendPacket (h : Represents q l) (size : Int) (seqNr : UInt16)
    (hfits : Fits l.tail) :
    ∃ q', q.sendPacket size seqNr = some (q', deliver l size seqNr) ∧ Represents q' l.tail := by
  rw [RtpQueue.sendPacket, h.length]
  cases l with
  | nil => exact ⟨q, rfl, h⟩
  | cons e l =>
    obtain ⟨q', hpop, hq'⟩ := h.pop_cons size seqNr hfits
    have hsome : ((e :: l).length : Int) > 0 := by simp
    rw [if_pos hsome, hpop]
    exact ⟨q', rfl, hq'⟩

/-- **Step lemma**: as long as the queue fits, a call does what it does to a queue. -/
theorem Represents.perform (h : Represents q l) (call : QueueCall τ)
    (hfits : Fits (after l call)) :
    ∃ q', q.perform call = some (q', delivery l call) ∧ Represents q' (after l call) := by
  cases call with
  | push size seqNr ts =>
    obtain ⟨q', hcall, hq'⟩ := h.push size seqNr ts hfits
    rw [RtpQueue.perform, hcall]
    exact ⟨q', rfl, hq'⟩
  | pop size seqNr =>
    obtain ⟨q', hcall, hq'⟩ := h.pop size seqNr hfits
    rw [RtpQueue.perform, hcall]
    exact ⟨q', rfl, hq'⟩
  | sendPacket size seqNr =>
    obtain ⟨q', hcall, hq'⟩ := h.sendPacket size seqNr hfits
    rw [RtpQueue.perform, hcall]
    exact ⟨q', rfl, hq'⟩
  | clear => exact ⟨q.clear, rfl, represents_clear q⟩

theorem Represents.view (h : Represents q l) (d : Option Delivery) :
    q.view d = ⟨d, Fifo.bytes l, l.length, nextSize l⟩ := by
  rw [RtpQueue.view, h.bytes, h.length, h.first]

/-- **Run lemma**: while the queue fits, what is seen is what is seen of a queue. -/
theorem Represents.views_append (h : Represents q l) (calls rest : List (QueueCall τ))
    (hfits : FitsAll l calls) :
    ∃ q', Represents q' (calls.foldl after l) ∧
      q.views (calls ++ rest) = (q'.views rest).map (Fifo.views l calls ++ ·) := by
  induction calls generalizing q l with
  | nil => exact ⟨q, h, by simp [Fifo.views]⟩
  | cons call calls ih =>
    obtain ⟨q₁, hcall, h₁⟩ := h.perform call hfits.1
    obtain ⟨q', hq', hviews⟩ := ih h₁ hfits.2
    refine ⟨q', hq', ?_⟩
    rw [List.cons_append, RtpQueue.views, hcall, Option.bind_eq_bind, Option.bind_some, hviews,
      h₁.view]
    cases q'.views rest <;> rfl

/-- **The RTP queue is a first-in first-out queue**, in every run in which no more than
`RtpQueueSize` packets are queued and their total size is an `int`: what the calls deliver,
and what is read of the queue after each of them. -/
theorem rtpQueue_views_eq (ts : τ) (calls : List (QueueCall τ)) (hfits : FitsAll [] calls) :
    (new ts).views calls = some (Fifo.views [] calls) := by
  obtain ⟨q', _, hviews⟩ := (represents_new ts).views_append calls [] hfits
  rw [List.append_nil] at hviews
  rw [hviews, RtpQueue.views, Option.map_some, List.append_nil]

theorem rtpQueue_views_three :
    (new (0 : Int)).views [.push 100 1 7, .push 200 2 8, .pop 0 0, .clear, .sendPacket 0 0] =
      some [⟨none, 100, 1, 100⟩, ⟨none, 300, 2, 100⟩, ⟨some ⟨true, 100, 1⟩, 200, 1, 200⟩,
        ⟨none, 0, 0, -1⟩, ⟨some ⟨false, 0, 0⟩, 0, 0, -1⟩] :=
  rtpQueue_views_eq 0 _ (by
    simp only [FitsAll, after, List.nil_append, List.cons_append, List.tail_cons, List.tail_nil,
      and_true]
    exact ⟨⟨by decide, by decide, by decide⟩, ⟨by decide, by decide, by decide⟩,
      ⟨by decide, by decide, by decide⟩, fits_nil, fits_nil⟩)

/-! ## A full ring -/

theorem fitsAll_replicate {e : RtpEntry τ} (he : e.size = 100) {k n : Nat}
    (h : k + n ≤ rtpQueueSize) :
    FitsAll (List.replicate k e) (List.replicate n (.push e.size e.seqNr e.ts)) := by
  induction n generalizing k with
  | zero => trivial
  | succ n ih =>
    have hafter : after (List.replicate k e) (.push e.size e.seqNr e.ts) =
        List.replicate (k + 1) e := List.replicate_succ'.symm
    rw [List.replicate_succ, FitsAll, hafter]
    refine ⟨⟨?_, ?_, ?_⟩, ih (by omega)⟩
    · rw [List.length_replicate]
      omega
    · simp [Fifo.bytes, he]
      omega
    · simp [Fifo.bytes, he]
      simp only [rtpQueueSize] at h
      omega

theorem foldl_push (e : RtpEntry τ) (n : Nat) :
    (List.replicate n (.push e.size e.seqNr e.ts)).foldl after [] = List.replicate n e := by
  induction n with
  | zero => rfl
  | succ n ih =>
    rw [List.replicate_succ', List.foldl_append, ih]
    exact List.replicate_succ'.symm

theorem fifo_views_append (l : List (RtpEntry τ)) (calls rest : List (QueueCall τ)) :
    Fifo.views l (calls ++ rest) = Fifo.views l calls ++ Fifo.views (calls.foldl after l) rest := by
  induction calls generalizing l with
  | nil => rfl
  | cons call calls ih => simp [Fifo.views, ih]

/-- 20000 packets of 100 bytes, and one of 200 bytes. -/
def overfilling : List (QueueCall Int) :=
  List.replicate rtpQueueSize (.push 100 0 0) ++ [.push 200 1 0]

/-- The last push takes the place of the oldest packet, which is still to be delivered. -/
theorem not_fifo_when_full :
    (new 0).views overfilling ≠ some (Fifo.views [] overfilling) := by
  have hfits : FitsAll [] (List.replicate rtpQueueSize (QueueCall.push 100 0 (0 : Int))) :=
    fitsAll_replicate (e := ⟨100, 0, 0⟩) (k := 0) rfl (Nat.zero_add _).le
  obtain ⟨q, hq, hviews⟩ :=
    (represents_new (0 : Int)).views_append _ [.push 200 1 0] hfits
  have hfold : (List.replicate rtpQueueSize (QueueCall.push 100 0 (0 : Int))).foldl after [] =
      List.replicate rtpQueueSize ⟨100, 0, 0⟩ := foldl_push ⟨100, 0, 0⟩ rtpQueueSize
  rw [hfold] at hq
  obtain ⟨q', hpush, hnext, _⟩ := hq.push_full (List.length_replicate) 200 1 0
  have hlast : q.views [.push 200 1 0] = some [q'.view none] := by
    simp [RtpQueue.views, RtpQueue.perform, hpush]
  rw [overfilling, hviews, hlast, fifo_views_append, hfold, Option.map_some]
  intro heq
  have htail := List.append_cancel_left (Option.some.inj heq)
  have hsize : q'.sizeOfNextRtp = nextSize (List.replicate rtpQueueSize ⟨100, 0, 0⟩ ++
      [⟨200, 1, (0 : Int)⟩]) := congrArg (·.sizeOfNextRtp) (List.head_eq_of_cons_eq htail)
  rw [hnext, nextSize, List.head?_append, List.head?_replicate] at hsize
  simp [rtpQueueSize] at hsize

end RtpQueue

end Scream
