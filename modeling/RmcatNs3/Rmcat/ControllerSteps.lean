import RmcatNs3.Lib.SerialNumber
import RmcatNs3.Rmcat.SenderBasedController

/-!
# What the controller's loops do

One lemma for each loop and helper of the sender-based controller, so that
the invariant proofs never unfold them: the two in-transit loops and the
garbage collection leave a suffix of the deque they work on, and a call of
`processFeedback` that returns either discards in-transit packets or files
exactly one of them.
-/

namespace Rmcat

open SerialNumber

variable {F : Type}

theorem lessThan_iff {w : Nat} {a b : BitVec w} :
    lessThan a b = true ↔ Precedes a b := by
  simp only [lessThan, decide_eq_true_eq, Precedes]
  change dist a b < dist b a ↔ _
  by_cases h : a = b
  · subst h
    simp
  · have hc := dist_comm h
    have h0 : dist a b ≠ 0 := fun hz => h (dist_eq_zero_iff.mp hz)
    omega

theorem lessThan_eq_false_iff {w : Nat} {a b : BitVec w} :
    lessThan a b = false ↔ a = b ∨ 2 ^ w ≤ 2 * dist a b := by
  rw [← Bool.not_eq_true, lessThan_iff, Precedes]
  by_cases h : a = b
  · subst h
    simp
  · have h0 : dist a b ≠ 0 := fun hz => h (dist_eq_zero_iff.mp hz)
    simp only [h, false_or]
    omega

/-- A number does not precede itself. -/
@[simp] theorem lessThan_self {w : Nat} (a : BitVec w) :
    lessThan a a = false :=
  lessThan_eq_false_iff.mpr (.inl rfl)

theorem assert_eq_ok {c : Prop} [Decidable c] {e : Abort} {u : Unit} :
    assert c e = .ok u ↔ c := by
  unfold assert
  split <;> simp_all

theorem assert_pos {c : Prop} [Decidable c] {e : Abort} (h : c) :
    assert c e = .ok () :=
  assert_eq_ok.mpr h

theorem bind_eq_ok {α β : Type} {x : Except Abort α} {f : α → Except Abort β}
    {b : β} : x >>= f = .ok b ↔ ∃ a, x = .ok a ∧ f a = .ok b := by
  cases x <;> simp [Bind.bind, Except.bind]

@[simp] theorem ok_bind {α β : Type} {a : α} {f : α → Except Abort β} :
    (Except.ok a : Except Abort α) >>= f = f a := rfl

/-- The sum of the sizes of some records. -/
def totalSize (records : List PacketRecord) : Nat :=
  (records.map fun r => r.size.toNat).sum

@[simp] theorem totalSize_nil : totalSize [] = 0 := rfl

@[simp] theorem totalSize_cons (r : PacketRecord) (rest : List PacketRecord) :
    totalSize (r :: rest) = r.size.toNat + totalSize rest := rfl

@[simp] theorem totalSize_concat (records : List PacketRecord)
    (r : PacketRecord) :
    totalSize (records ++ [r]) = totalSize records + r.size.toNat := by
  simp [totalSize]

namespace SenderBasedController

/-! ## The in-transit deque -/

/-- The memory-safety loop keeps a suffix, and never the empty one: the
packet just pushed is not stale with respect to itself. -/
theorem evictStale_eq (queue : List PacketRecord) (p : PacketRecord) :
    ∃ k ≤ queue.length,
      evictStale p.txTimestamp (queue ++ [p]) = .ok ((queue ++ [p]).drop k) := by
  induction queue with
  | nil =>
      refine ⟨0, Nat.le_refl _, ?_⟩
      have hfalse : lessThan (p.txTimestamp + 10 * maxInterPacketTime)
          p.txTimestamp = false := by
        rw [lessThan_eq_false_iff]
        right
        have hd : dist (p.txTimestamp + 10 * maxInterPacketTime) p.txTimestamp
            = 2 ^ 64 - 5000 := by
          simp only [SerialNumber.dist, maxInterPacketTime]
          bv_omega
        omega
      rw [List.nil_append, evictStale, hfalse]
      rfl
  | cons q rest ih =>
      simp only [List.cons_append, evictStale]
      split
      · obtain ⟨k, hk, hev⟩ := ih
        exact ⟨k + 1, by simpa using hk, by simpa using hev⟩
      · exact ⟨0, Nat.zero_le _, rfl⟩

/-- The loop of `processFeedback` stops at the first packet that is not older
than `sequence`. -/
theorem discardOlder_find {sequence : BitVec 32} {queue : List PacketRecord}
    {p : PacketRecord}
    (h : queue.find? (fun p => ! lessThan p.sequence sequence) = some p) :
    ∃ k rest, queue.drop k = p :: rest ∧
      discardOlder sequence queue = .ok (p :: rest) := by
  induction queue with
  | nil => cases h
  | cons q rest ih =>
      rw [List.find?_cons] at h
      cases hq : lessThan q.sequence sequence with
      | true =>
          simp only [hq, Bool.not_true] at h
          obtain ⟨k, rest', hdrop, hd⟩ := ih h
          refine ⟨k + 1, rest', by rwa [List.drop_succ_cons], ?_⟩
          rw [discardOlder, if_pos hq, hd]
      | false =>
          simp only [hq, Bool.not_false, Option.some.injEq] at h
          subst h
          refine ⟨0, rest, rfl, ?_⟩
          rw [discardOlder, if_neg (by rw [hq]; exact Bool.false_ne_true)]

theorem discardOlder_ok {sequence : BitVec 32}
    {queue queue' : List PacketRecord}
    (h : discardOlder sequence queue = .ok queue') :
    ∃ k, queue' = queue.drop k := by
  induction queue with
  | nil => simp [discardOlder] at h
  | cons q rest ih =>
      simp only [discardOlder] at h
      split at h
      · obtain ⟨k, hk⟩ := ih h
        exact ⟨k + 1, by simpa using hk⟩
      · exact ⟨0, by simpa using h.symm⟩

/-! ## The history -/

/-- A record is inside the history window that ends at `last`. -/
def InWindow (last historyLengthMs : BitVec 64) (p : PacketRecord) : Prop :=
  lessThan last p.txTimestamp = false ∧
    lessThan last (p.txTimestamp + historyLengthMs) = true

/-- **Garbage collection**: when it returns, the history is the suffix that
starts at the first record inside the window, and the sizes of the removed
records have left the sum. -/
theorem collectHistory_ok {last len sum sum' : BitVec _}
    {history history' : List PacketRecord}
    (h : collectHistory last len history sum = .ok (history', sum')) :
    ∃ k p rest, history' = history.drop k ∧ history.drop k = p :: rest ∧
      InWindow last len p ∧
      sum' + ((history.take k).map (·.size)).sum = sum := by
  induction history generalizing sum with
  | nil => simp [collectHistory] at h
  | cons p rest ih =>
      simp only [collectHistory] at h
      obtain ⟨_, hle, h⟩ := bind_eq_ok.mp h
      rw [assert_eq_ok] at hle
      split at h
      · rename_i hin
        cases h
        exact ⟨0, p, rest, rfl, rfl, ⟨by simpa using hle, hin⟩, by simp⟩
      · obtain ⟨_, hge, h⟩ := bind_eq_ok.mp h
        obtain ⟨k, p', rest', hdrop, hcons, hin, hsum⟩ := ih h
        refine ⟨k + 1, p', rest', by simpa using hdrop, by simpa using hcons,
          hin, ?_⟩
        simp only [List.take_succ_cons, List.map_cons, List.sum_cons]
        rw [BitVec.add_comm p.size, ← BitVec.add_assoc, hsum,
          BitVec.sub_add_cancel]

/-- The record that `recordFeedback` files for a matched packet. -/
def filed (packet : PacketRecord) (now rxTimestamp : BitVec 64) :
    PacketRecord :=
  { packet with
    owd := rxTimestamp - packet.txTimestamp
    rtt := now - packet.txTimestamp }

@[simp] theorem filed_sequence (p : PacketRecord) (now rx : BitVec 64) :
    (filed p now rx).sequence = p.sequence := rfl

@[simp] theorem filed_txTimestamp (p : PacketRecord) (now rx : BitVec 64) :
    (filed p now rx).txTimestamp = p.txTimestamp := rfl

@[simp] theorem filed_size (p : PacketRecord) (now rx : BitVec 64) :
    (filed p now rx).size = p.size := rfl

@[simp] theorem filed_owd (p : PacketRecord) (now rx : BitVec 64) :
    (filed p now rx).owd = rx - p.txTimestamp := rfl

/-- The base delay after a record with delay `owd` has been filed. -/
def nextBaseDelay (s : SenderBasedController F) (owd : BitVec 64) : BitVec 64 :=
  if s.packetHistory.isEmpty ∨ lessThan owd s.baseDelay then owd
  else s.baseDelay

theorem updateInterLossData_ok {s s' : SenderBasedController F}
    {packet : PacketRecord} (h : s.updateInterLossData packet = .ok s') :
    ∃ il, s' = { s with ilState := il } := by
  obtain ⟨il, _, h⟩ := bind_eq_ok.mp h
  cases h
  exact ⟨il, rfl⟩

theorem recordFeedback_ok {s s' : SenderBasedController F}
    {packet : PacketRecord} {now rx : BitVec 64}
    (h : s.recordFeedback packet now rx = .ok s') :
    ∃ il history sum,
      collectHistory packet.txTimestamp s.historyLengthMs
        (s.packetHistory ++ [filed packet now rx]) (s.pktSizeSum + packet.size)
        = .ok (history, sum) ∧
      s' = { s with
        baseDelay := s.nextBaseDelay (rx - packet.txTimestamp)
        ilState := il
        packetHistory := history
        pktSizeSum := sum } := by
  simp only [recordFeedback] at h
  obtain ⟨_, _, h⟩ := bind_eq_ok.mp h
  obtain ⟨_, _, h⟩ := bind_eq_ok.mp h
  obtain ⟨s₁, hil, h⟩ := bind_eq_ok.mp h
  obtain ⟨il, rfl⟩ := updateInterLossData_ok hil
  obtain ⟨⟨history, sum⟩, hgc, h⟩ := bind_eq_ok.mp h
  cases h
  refine ⟨il, history, sum, ?_, ?_⟩
  · rw [← hgc]
    split <;> rfl
  · simp only [nextBaseDelay]
    split <;> rfl

/-- **What a returning `processFeedback` did**: it discarded in-transit
packets and nothing else, or it took the packet with number `sequence` out
of transit and either rejected it for its timestamp or filed it. -/
theorem processFeedback_ok {s s' : SenderBasedController F}
    {now rx : BitVec 64} {sequence : BitVec 32} {ecn : BitVec 8} {res : Bool}
    (h : s.processFeedback now sequence rx ecn = .ok (res, s')) :
    (∃ k, s' = { s with inTransitPackets := s.inTransitPackets.drop k }) ∨
    ∃ k packet rest, s.inTransitPackets.drop k = packet :: rest ∧
      packet.sequence = sequence ∧
      s.decreasingTimestamp packet = false ∧
      ({ s with inTransitPackets := rest }.dropObsolete packet).recordFeedback
        packet now rx = .ok s' := by
  simp only [processFeedback] at h
  split at h
  · cases h
    exact .inl ⟨0, rfl⟩
  split at h
  · cases h
    exact .inl ⟨0, rfl⟩
  obtain ⟨_, _, h⟩ := bind_eq_ok.mp h
  obtain ⟨queue, hq, h⟩ := bind_eq_ok.mp h
  obtain ⟨k, rfl⟩ := discardOlder_ok hq
  split at h
  · cases h
  rename_i packet rest hcons
  split at h
  · cases h
    exact .inl ⟨k, by rw [hcons]⟩
  obtain ⟨_, heq, h⟩ := bind_eq_ok.mp h
  rw [assert_eq_ok] at heq
  split at h
  · cases h
    left
    refine ⟨k + 1, ?_⟩
    rw [← List.tail_drop, hcons, List.tail_cons]
  · rename_i hdec
    obtain ⟨s₁, hrec, h⟩ := bind_eq_ok.mp h
    cases h
    exact .inr ⟨k, packet, rest, hcons, heq.symm,
      eq_false_of_ne_true hdec, hrec⟩

end SenderBasedController

end Rmcat
