import Mathlib.Algebra.GroupWithZero.Nat
import Mathlib.Data.Fintype.Card
import RmcatNs3.Lib.MachineInt
import RmcatNs3.Lib.SortedMap
import RmcatNs3.Razor.Skiplist

/-!
# The queue of the pacer

`razor/pacing/pacer_queue.{c,h}`. A packet is allocated once and known by its
address to two structures: the skiplist `cache`, sorted by sequence number
(a sorted map, which is what the skiplist refines), and the list `l`, in the
order of arrival. The address that `calloc` returns is a parameter. Using a
packet that is not allocated is `none`.
-/

namespace Razor

open MachineInt

/-- `uint32_t` sequence numbers of packets. -/
abbrev PacketSeq := Fin (2 ^ 32)

def kMaxPaceQueueMs : Nat := 250

/-- `packet_event_t`. -/
structure PacketEvent where
  seq : PacketSeq
  retrans : Int
  size : Nat
  queTs : Int
  sent : Bool
  deriving DecidableEq, Repr

/-- `pacer_queue_t`, and the packets that are allocated. -/
structure PacerQueue where
  maxQueMs : Nat
  totalSize : Nat
  oldestTs : Int
  cache : SortedMap PacketSeq Addr
  l : List Addr
  packets : Addr → Option PacketEvent
  maxQueMs_ge : kMaxPaceQueueMs ≤ maxQueMs

namespace PacerQueue

/-- `pacer_queue_init`. -/
def init (queMs : Nat) : PacerQueue where
  maxQueMs := max queMs kMaxPaceQueueMs
  totalSize := 0
  oldestTs := -1
  cache := .empty
  l := []
  packets := fun _ => none
  maxQueMs_ge := le_max_right _ _

def setPacket (que : PacerQueue) (a : Addr) (p : Option PacketEvent) : PacerQueue :=
  { que with packets := fun b => if b = a then p else que.packets b }

/-- `pacer_queue_push`; the result is the one it returns, and the packet is
allocated at `a`. -/
def push (que : PacerQueue) (a : Addr) (ev : PacketEvent) : Int × PacerQueue :=
  let (ret, que) :=
    match que.cache.find? ev.seq with
    | none =>
        (0, { que.setPacket a (some { ev with sent := false }) with
          cache := que.cache.insert ev.seq a
          l := que.l ++ [a]
          totalSize := (que.totalSize + ev.size) % 2 ^ 64 })
    | some _ => (-1, que)
  (ret, if que.oldestTs = -1 ∨ que.oldestTs > ev.queTs then
      { que with oldestTs := ev.queTs }
    else que)

/-- The loop of `pacer_queue_front`. -/
def frontLoop (que : PacerQueue) :
    List (PacketSeq × Addr) → Option Addr → Option (Option Addr)
  | [], ret => some ret
  | (_, a) :: rest, _ => do
      let packet ← que.packets a
      if packet.sent then frontLoop que rest (some a) else some (some a)

/-- `pacer_queue_front`; the result is the pointer it returns. -/
def front (que : PacerQueue) : Option (Option Addr) :=
  if que.cache.size = 0 then some none else que.frontLoop que.cache.toList none

/-- `skiplist_remove` of the cache, with `pacer_free_packet_event`. -/
def cacheRemove (que : PacerQueue) (seq : PacketSeq) : Option PacerQueue :=
  match que.cache.find? seq with
  | none => some que
  | some (_, a) => do
      let _ ← que.packets a
      some { que.setPacket a none with cache := que.cache.erase seq }

/-- `skiplist_clear` of the cache, with `pacer_free_packet_event`. -/
def cacheClear (que : PacerQueue) : PacerQueue :=
  { que with
    cache := .empty
    packets := fun a =>
      if a ∈ que.cache.toList.map (·.2) then none else que.packets a }

/-- The loop of `pacer_queue_final`, with `l` for the list of the queue. -/
def finalLoop : List Addr → PacerQueue → Option PacerQueue
  | [], que => some que
  | a :: rest, que => do
      let packet ← que.packets a
      if packet.sent then
        let que ← { que with l := rest }.cacheRemove packet.seq
        finalLoop rest que
      else some que

def final (que : PacerQueue) : Option PacerQueue := do
  let que ← finalLoop que.l que
  match que.l with
  | [] => some { que.cacheClear with totalSize := 0, oldestTs := -1 }
  | a :: _ =>
      let packet ← que.packets a
      some { que with oldestTs := packet.queTs }

/-- `pacer_queue_sent`. -/
def sent (que : PacerQueue) (seq : PacketSeq) : Option PacerQueue :=
  if que.cache.size = 0 then some que
  else
    match que.cache.find? seq with
    | none => some que
    | some (_, a) => do
        let packet ← que.packets a
        { que.setPacket a (some { packet with sent := true }) with
          totalSize :=
            if que.totalSize ≥ packet.size then que.totalSize - packet.size
            else 0 }.final

/-- `pacer_queue_empty`: `0` if it is. -/
def empty (que : PacerQueue) : Int := if que.cache.size = 0 then 0 else -1

/-- `pacer_queue_target_bitrate_kbps`. -/
def targetBitrateKbps (que : PacerQueue) (nowTs : Int) : Nat :=
  let space :=
    if que.oldestTs ≠ -1 ∧ nowTs > que.oldestTs then
      let space := toUnsigned 32 (nowTs - que.oldestTs)
      if space ≥ que.maxQueMs then 1 else que.maxQueMs - space
    else que.maxQueMs - 1
  if que.cache.size > 0 ∧ que.totalSize > 0 then
    toUnsigned 32 ((que.totalSize * 8 % 2 ^ 64 / space : Nat))
  else 0

end PacerQueue

end Razor
