import RmcatNs3.Lib.Aligned
import RmcatNs3.Lib.Runs
import RmcatNs3.Rmcat.ControllerSteps
import Mathlib.Algebra.BigOperators.Group.Finset.Basic
import Mathlib.Algebra.Order.BigOperators.Group.Finset
import Mathlib.Order.Interval.Finset.Nat

/-!
# The packet history over whole runs

A media source sends consecutive sequence numbers; feedback arrives for any
of them, in any order and any number of times. The packets sent so far are
numbered from `0` in send order, and every record the controller keeps
stands for one of these positions: `HistoryInv` says which, and every fact
about the modular fields is read off the positions.
-/

namespace Rmcat

open SerialNumber Runs

variable {F : Type}

/-! ## The media source -/

/-- A packet handed to the network. -/
structure Sent where
  txTimestamp : BitVec 64
  size : BitVec 32

/-- The record of the packet sent at position `i`, when the first packet had
number `start`. -/
def sentRecord (start : BitVec 32) (i : Nat) (p : Sent) : PacketRecord where
  sequence := start + BitVec.ofNat 32 i
  txTimestamp := p.txTimestamp
  size := p.size
  owd := 0
  rtt := 0

/-- The records of all packets sent, as `processSendPacket` makes them. -/
def sentRecords (start : BitVec 32) (sent : List Sent) : List PacketRecord :=
  sent.mapIdx (sentRecord start)

/-- One call of the controller. -/
inductive MediaEvent where
  | send (txTimestamp : BitVec 64) (size : BitVec 32)
  | feedback (now : BitVec 64) (sequence : BitVec 32) (rxTimestamp : BitVec 64)
      (ecn : BitVec 8)

/-- A call that returns, in a run of a media source: packets are numbered
consecutively from `start` and stamped in order, and the one-way delay of a
packet still in transit lies less than `2 ^ 63` ahead of `delay`. -/
inductive MediaStep (start : BitVec 32) (delay : BitVec 64) :
    List Sent × SenderBasedController F → MediaEvent →
    List Sent × SenderBasedController F → Prop
  | send {sent s s' tx size res} :
      (∀ p ∈ sent, p.txTimestamp ≤ tx) →
      s.processSendPacket tx (start + BitVec.ofNat 32 sent.length) size
        = .ok (res, s') →
      MediaStep start delay (sent, s) (.send tx size) (sent ++ [⟨tx, size⟩], s')
  | feedback {sent s s' now sequence rx ecn res} :
      (∀ p ∈ s.inTransitPackets, p.sequence = sequence →
        dist delay (rx - p.txTimestamp) < 2 ^ 63) →
      s.processFeedback now sequence rx ecn = .ok (res, s') →
      MediaStep start delay (sent, s) (.feedback now sequence rx ecn) (sent, s')

/-- `MediaStep`, computed. -/
def mediaStep? [FloatOps F] (start : BitVec 32) (delay : BitVec 64)
    (c : List Sent × SenderBasedController F) :
    MediaEvent → Option (List Sent × SenderBasedController F)
  | .send tx size =>
      if ∀ p ∈ c.1, p.txTimestamp ≤ tx then
        (c.2.processSendPacket tx (start + BitVec.ofNat 32 c.1.length) size).toOption.map
          fun r => (c.1 ++ [⟨tx, size⟩], r.2)
      else none
  | .feedback now sequence rx ecn =>
      if ∀ p ∈ c.2.inTransitPackets, p.sequence = sequence →
          dist delay (rx - p.txTimestamp) < 2 ^ 63 then
        (c.2.processFeedback now sequence rx ecn).toOption.map fun r => (c.1, r.2)
      else none

theorem mediaStep_of_mediaStep? [FloatOps F] {start : BitVec 32} {delay : BitVec 64}
    {c c' : List Sent × SenderBasedController F} {e : MediaEvent}
    (h : mediaStep? start delay c e = some c') : MediaStep start delay c e c' := by
  cases e with
  | send tx size =>
      obtain ⟨hordered, h⟩ := Option.ite_none_right_eq_some.mp h
      obtain ⟨⟨res, s'⟩, hsend, rfl⟩ := Option.map_eq_some_iff.mp h
      exact .send hordered (ok_of_toOption hsend)
  | feedback now sequence rx ecn =>
      obtain ⟨hdelay, h⟩ := Option.ite_none_right_eq_some.mp h
      obtain ⟨⟨res, s'⟩, hfeedback, rfl⟩ := Option.map_eq_some_iff.mp h
      exact .feedback hdelay (ok_of_toOption hfeedback)

/-- The bytes of the packet sent at position `i`. -/
def sentBytes (sent : List Sent) (i : Nat) : Nat :=
  (sent[i]?.map (·.size.toNat)).getD 0

/-- Packets sent less than `len` ms apart are fewer than `2 ^ 31` and carry
less than `2 ^ 32` bytes. -/
def WindowBounded (len : BitVec 64) (sent : List Sent) : Prop :=
  ∀ i j p q, i ≤ j → sent[i]? = some p → sent[j]? = some q →
    q.txTimestamp.toNat - p.txTimestamp.toNat < len.toNat →
    j - i + 1 < 2 ^ 31 ∧ ∑ n ∈ Finset.Icc i j, sentBytes sent n < 2 ^ 32

/-- The record `r` stands for the packet sent at position `i`. -/
def Stands (start : BitVec 32) (sent : List Sent) (i : Nat) (r : PacketRecord) :
    Prop :=
  ∃ p, sent[i]? = some p ∧ r.sequence = start + BitVec.ofNat 32 i ∧
    r.txTimestamp = p.txTimestamp ∧ r.size = p.size

theorem Stands.append {start : BitVec 32} {sent : List Sent} {i : Nat}
    {r : PacketRecord} (h : Stands start sent i r) (more : List Sent) :
    Stands start (sent ++ more) i r := by
  obtain ⟨p, hp, hr⟩ := h
  have hlt := (List.getElem?_eq_some_iff.mp hp).1
  exact ⟨p, by rw [List.getElem?_append_left hlt, hp], hr⟩

/-! ## The invariant -/

/-- The joint invariant of the controller's fields: the in-transit deque is
what was sent from position `k` on, the history stands for the increasing
positions `ids` below `k`, and window, size sum and base delay fit it. -/
structure HistoryInv (start : BitVec 32) (len delay : BitVec 64)
    (sent : List Sent) (s : SenderBasedController F) (k : Nat)
    (ids : List Nat) : Prop where
  sorted : sent.Pairwise (fun p q => p.txTimestamp ≤ q.txTimestamp)
  first : s.firstSend = true ↔ sent = []
  last : sent ≠ [] →
    s.lastSequence + 1 = start + BitVec.ofNat 32 sent.length
  historyLen : s.historyLengthMs = len
  queue : s.inTransitPackets = (sentRecords start sent).drop k
  queue_le : k ≤ sent.length
  ids_sorted : ids.Pairwise (· < ·)
  ids_lt : ∀ i ∈ ids, i < k
  history : List.Forall₂ (Stands start sent) ids s.packetHistory
  window : ∀ newest ∈ s.packetHistory.getLast?, ∀ r ∈ s.packetHistory,
    newest.txTimestamp.toNat - r.txTimestamp.toNat < len.toNat
  sum : s.pktSizeSum = (s.packetHistory.map (·.size)).sum
  owd : ∀ r ∈ s.packetHistory,
    dist delay s.baseDelay ≤ dist delay r.owd ∧ dist delay r.owd < 2 ^ 63

/-- The controller before the first call, with history length `len`. -/
def historyStart [FloatOps F] (len : BitVec 64) : SenderBasedController F :=
  SenderBasedController.new.setHistoryLength len

theorem HistoryInv.init [FloatOps F] (start : BitVec 32) (len delay : BitVec 64) :
    HistoryInv start len delay [] (historyStart (F := F) len) 0 [] where
  sorted := .nil
  first := by simp [historyStart, SenderBasedController.new,
    SenderBasedController.setHistoryLength]
  last := fun h => absurd rfl h
  historyLen := rfl
  queue := rfl
  queue_le := Nat.le_refl _
  ids_sorted := .nil
  ids_lt := by simp
  history := .nil
  window := by simp [historyStart, SenderBasedController.new,
    SenderBasedController.setHistoryLength]
  sum := rfl
  owd := by simp [historyStart, SenderBasedController.new,
    SenderBasedController.setHistoryLength]

section Records

variable {start : BitVec 32} {sent : List Sent}

@[simp] theorem length_sentRecords :
    (sentRecords start sent).length = sent.length := by
  simp [sentRecords]

theorem getElem?_sentRecords (i : Nat) :
    (sentRecords start sent)[i]? = sent[i]?.map (sentRecord start i) := by
  simp [sentRecords]

theorem sentRecords_append (p : Sent) :
    sentRecords start (sent ++ [p])
      = sentRecords start sent ++ [sentRecord start sent.length p] := by
  simp [sentRecords]

/-- The head of a suffix of the sent records is the record of its position. -/
theorem drop_sentRecords_cons {k : Nat} {p : PacketRecord}
    {rest : List PacketRecord}
    (h : (sentRecords start sent).drop k = p :: rest) :
    ∃ q, sent[k]? = some q ∧ p = sentRecord start k q ∧ k < sent.length ∧
      rest = (sentRecords start sent).drop (k + 1) := by
  have hget : (sentRecords start sent)[k]? = some p := by
    have h0 := congrArg (·[0]?) h
    simpa using h0
  rw [getElem?_sentRecords, Option.map_eq_some_iff] at hget
  obtain ⟨q, hq, hpq⟩ := hget
  refine ⟨q, hq, hpq.symm, (List.getElem?_eq_some_iff.mp hq).1, ?_⟩
  rw [← List.tail_drop, h, List.tail_cons]

end Records

/-! ## Sending -/

theorem processSendPacket_next {s : SenderBasedController F}
    (tx : BitVec 64) {sequence : BitVec 32} (size : BitVec 32)
    (h : s.firstSend = true ∨ s.lastSequence + 1 = sequence) :
    ∃ j ≤ s.inTransitPackets.length,
      s.processSendPacket tx sequence size = .ok (true, { s with
        firstSend := false
        lastSequence := sequence
        inTransitPackets := (s.inTransitPackets ++
          [({ sequence, txTimestamp := tx, size, owd := 0, rtt := 0 } :
            PacketRecord)]).drop j }) := by
  obtain ⟨j, hj, hev⟩ := SenderBasedController.evictStale_eq
    s.inTransitPackets ⟨sequence, tx, size, 0, 0⟩
  refine ⟨j, hj, ?_⟩
  have hseq : (if s.firstSend = true then sequence - 1 else s.lastSequence) + 1
      = sequence := by
    split
    · exact BitVec.sub_add_cancel sequence 1
    · rename_i hf
      exact h.resolve_left hf
  cases hf : s.firstSend with
  | true =>
      simp only [hf, if_true] at hseq
      simp only [SenderBasedController.processSendPacket, hf, if_true, hseq]
      simp only [ne_eq, not_true_eq_false, if_false, hev]
  | false =>
      simp only [hf, Bool.false_eq_true, if_false] at hseq
      simp only [SenderBasedController.processSendPacket, hf,
        Bool.false_eq_true, if_false, hseq]
      simp only [ne_eq, not_true_eq_false, if_false, hev]

/-- **The send step**: a packet with the next number joins the in-transit
deque, and the history does not change. -/
theorem HistoryInv.send {start : BitVec 32} {len delay : BitVec 64}
    {sent : List Sent} {s s' : SenderBasedController F} {k : Nat}
    {ids : List Nat} {tx : BitVec 64} {size : BitVec 32} {res : Bool}
    (hI : HistoryInv start len delay sent s k ids)
    (htx : ∀ p ∈ sent, p.txTimestamp ≤ tx)
    (h : s.processSendPacket tx (start + BitVec.ofNat 32 sent.length) size
      = .ok (res, s')) :
    ∃ k', HistoryInv start len delay (sent ++ [⟨tx, size⟩]) s' k' ids := by
  have hnext : s.firstSend = true
      ∨ s.lastSequence + 1 = start + BitVec.ofNat 32 sent.length := by
    by_cases hs : sent = []
    · exact .inl (hI.first.mpr hs)
    · exact .inr (hI.last hs)
  obtain ⟨j, hj, hsend⟩ := processSendPacket_next tx size hnext
  rw [hsend] at h
  cases h
  have hlen : s.inTransitPackets.length = sent.length - k := by
    rw [hI.queue, List.length_drop, length_sentRecords]
  have hk := hI.queue_le
  refine ⟨k + j, ?_⟩
  constructor
  · rw [List.pairwise_append]
    refine ⟨hI.sorted, List.pairwise_singleton _ _, ?_⟩
    intro p hp q hq
    rw [List.mem_singleton] at hq
    subst hq
    exact htx p hp
  · simp
  · intro _
    rw [List.length_append, List.length_singleton, BitVec.ofNat_add,
      BitVec.add_assoc]
    rfl
  · exact hI.historyLen
  · have happ : (sentRecords start sent ++
        [sentRecord start sent.length ⟨tx, size⟩]).drop k
        = s.inTransitPackets ++ [sentRecord start sent.length ⟨tx, size⟩] := by
      rw [hI.queue, List.drop_append_of_le_length
        (by rw [length_sentRecords]; exact hk)]
    rw [sentRecords_append, ← List.drop_drop, happ]
    rfl
  · rw [List.length_append, List.length_singleton]
    omega
  · exact hI.ids_sorted
  · intro i hi
    have := hI.ids_lt i hi
    omega
  · exact hI.history.imp fun _ _ hr => hr.append _
  · exact hI.window
  · exact hI.sum
  · exact hI.owd

/-! ## Feedback -/

/-- Discarding in-transit packets keeps the invariant. -/
theorem HistoryInv.discard {start : BitVec 32} {len delay : BitVec 64}
    {sent : List Sent} {s : SenderBasedController F} {k : Nat}
    {ids : List Nat} (hI : HistoryInv start len delay sent s k ids) (j : Nat) :
    ∃ k', HistoryInv start len delay sent
      { s with inTransitPackets := s.inTransitPackets.drop j } k' ids := by
  have hk := hI.queue_le
  refine ⟨min (k + j) sent.length, { hI with
    queue := ?_, queue_le := Nat.min_le_right _ _, ids_lt := ?_ }⟩
  · show s.inTransitPackets.drop j = _
    rw [hI.queue, List.drop_drop]
    rcases Nat.le_total (k + j) sent.length with hle | hle
    · rw [Nat.min_eq_left hle]
    · rw [Nat.min_eq_right hle, List.drop_eq_nil_of_le
        (by rw [length_sentRecords]; exact hle), List.drop_eq_nil_of_le
        (by rw [length_sentRecords])]
  · intro i hi
    have := hI.ids_lt i hi
    omega

/-- Dropping an obsolete history keeps the invariant, with the positions it
still holds. -/
theorem HistoryInv.dropObsolete {start : BitVec 32} {len delay : BitVec 64}
    {sent : List Sent} {s : SenderBasedController F} {k : Nat}
    {ids : List Nat} (hI : HistoryInv start len delay sent s k ids)
    (packet : PacketRecord) :
    ∃ ids' ⊆ ids,
      HistoryInv start len delay sent (s.dropObsolete packet) k ids' := by
  unfold SenderBasedController.dropObsolete
  split
  · exact ⟨ids, List.Subset.refl _, hI⟩
  split
  · exact ⟨[], List.nil_subset _, { hI with
      ids_sorted := .nil
      ids_lt := by simp
      history := .nil
      window := by simp
      sum := rfl
      owd := by simp }⟩
  · exact ⟨ids, List.Subset.refl _, hI⟩

/-- A record inside the window that ends at `last` was sent less than `len`
ms before it. -/
theorem inWindow_lt {last len : BitVec 64} {p : PacketRecord}
    (h : SenderBasedController.InWindow last len p)
    (hle : p.txTimestamp ≤ last) (hlen : len.toNat ≤ 2 ^ 62) :
    last.toNat - p.txTimestamp.toNat < len.toNat := by
  obtain ⟨hge, hin⟩ := h
  rw [lessThan_eq_false_iff] at hge
  rw [lessThan_iff] at hin
  obtain ⟨hpos, hlt⟩ := hin
  simp only [SerialNumber.dist] at hge hpos hlt
  rcases hge with heq | hge <;> bv_omega

/-- Positions in order have send times in order. -/
theorem Stands.txTimestamp_le {start : BitVec 32} {sent : List Sent}
    (hs : sent.Pairwise (fun p q => p.txTimestamp ≤ q.txTimestamp))
    {i j : Nat} {r r' : PacketRecord} (hr : Stands start sent i r)
    (hr' : Stands start sent j r') (hij : i < j) :
    r.txTimestamp ≤ r'.txTimestamp := by
  obtain ⟨p, hp, _, htx, _⟩ := hr
  obtain ⟨q, hq, _, htx', _⟩ := hr'
  obtain ⟨hi, rfl⟩ := List.getElem?_eq_some_iff.mp hp
  obtain ⟨hj, rfl⟩ := List.getElem?_eq_some_iff.mp hq
  rw [htx, htx']
  exact List.pairwise_iff_getElem.mp hs i j hi hj hij

/-- The send times of records at increasing positions follow their order. -/
theorem timestamps_sorted {start : BitVec 32} {sent : List Sent}
    (hs : sent.Pairwise (fun p q => p.txTimestamp ≤ q.txTimestamp))
    {ids : List Nat} {records : List PacketRecord}
    (hids : ids.Pairwise (· < ·))
    (h : List.Forall₂ (Stands start sent) ids records) :
    records.Pairwise (fun a b => a.txTimestamp ≤ b.txTimestamp) :=
  Aligned.pairwise_right (fun _ _ _ _ hr hr' hij => hr.txTimestamp_le hs hr' hij)
    h hids

/-- The base delay that goes with a new record stays a lower bound, seen from
an origin that all delays follow by less than half the circle. -/
theorem nextBaseDelay_le {s : SenderBasedController F} {delay owd : BitVec 64}
    (howd : dist delay owd < 2 ^ 63)
    (hbase : ∀ r ∈ s.packetHistory,
      dist delay s.baseDelay ≤ dist delay r.owd ∧ dist delay r.owd < 2 ^ 63) :
    dist delay (s.nextBaseDelay owd) ≤ dist delay owd ∧
      ∀ r ∈ s.packetHistory, dist delay (s.nextBaseDelay owd) ≤ dist delay r.owd := by
  unfold SenderBasedController.nextBaseDelay
  cases hH : s.packetHistory with
  | nil => simp
  | cons r₀ rest =>
      have hr₀ := hbase r₀ (by rw [hH]; exact List.mem_cons_self)
      have hb : dist delay s.baseDelay < 2 ^ 63 := Nat.lt_of_le_of_lt hr₀.1 hr₀.2
      have hord := precedes_iff_of_half (o := delay) (a := owd)
        (b := s.baseDelay) (by omega) (by omega)
      rw [← hH]
      split
      · rename_i hc
        have hlt : dist delay owd < dist delay s.baseDelay := by
          rcases hc with he | hc
          · rw [hH] at he
            cases he
          · exact hord.mp (lessThan_iff.mp hc)
        exact ⟨Nat.le_refl _, fun r hr =>
          Nat.le_trans (Nat.le_of_lt hlt) (hbase r hr).1⟩
      · rename_i hc
        have hnot : ¬ dist delay owd < dist delay s.baseDelay := fun hlt =>
          hc (.inr (lessThan_iff.mpr (hord.mpr hlt)))
        exact ⟨Nat.not_lt.mp hnot, fun r hr => (hbase r hr).1⟩

/-- A record that is appended is the last one of what stays. -/
theorem eq_of_getLast?_drop {l : List PacketRecord} {r newest : PacketRecord} {j : Nat}
    (hne : (l ++ [r]).drop j ≠ []) (h : newest ∈ ((l ++ [r]).drop j).getLast?) :
    newest = r := by
  have hlt : j < (l ++ [r]).length := by
    by_contra hge
    exact hne (List.drop_eq_nil_of_le (Nat.not_lt.mp hge))
  rw [List.getLast?_drop, if_neg (Nat.not_le.mpr hlt),
    List.getLast?_append_of_ne_nil _ (List.cons_ne_nil _ _), List.getLast?_singleton] at h
  exact (Option.some.inj h).symm

/-- The first record that stays was sent before the others. -/
theorem txTimestamp_le_of_drop {l rest : List PacketRecord} {p r : PacketRecord} {j : Nat}
    (htimes : l.Pairwise (fun a b => a.txTimestamp ≤ b.txTimestamp))
    (hcons : l.drop j = p :: rest) (hr : r ∈ l.drop j) : p.txTimestamp ≤ r.txTimestamp := by
  have hdrop := htimes.drop (i := j)
  rw [hcons, List.pairwise_cons] at hdrop
  rw [hcons] at hr
  rcases List.mem_cons.mp hr with rfl | hr
  · exact BitVec.le_refl _
  · exact hdrop.1 r hr

/-- **The record step**: filing the packet of position `m`, newer than every
position in the history, keeps the invariant. -/
theorem HistoryInv.record {start : BitVec 32} {len delay : BitVec 64}
    {sent : List Sent} {s s' : SenderBasedController F} {k m : Nat}
    {ids : List Nat} {q : Sent} {now rx : BitVec 64}
    (hI : HistoryInv start len delay sent s k ids)
    (hlen : len.toNat ≤ 2 ^ 62) (hq : sent[m]? = some q) (hm : m < k)
    (hids : ∀ i ∈ ids, i < m) (hdelay : dist delay (rx - q.txTimestamp) < 2 ^ 63)
    (h : s.recordFeedback (sentRecord start m q) now rx = .ok s') :
    ∃ ids', HistoryInv start len delay sent s' k ids' := by
  obtain ⟨il, history, sum, hgc, rfl⟩ := SenderBasedController.recordFeedback_ok h
  rw [hI.historyLen] at hgc
  obtain ⟨j, p, rest, rfl, hcons, hin, hsum⟩ :=
    SenderBasedController.collectHistory_ok hgc
  let f := SenderBasedController.filed (sentRecord start m q) now rx
  have hsorted : (ids ++ [m]).Pairwise (· < ·) := by
    rw [List.pairwise_append]
    refine ⟨hI.ids_sorted, List.pairwise_singleton _ _, ?_⟩
    intro i hi n hn
    rw [List.mem_singleton] at hn
    subst hn
    exact hids i hi
  have hstands : List.Forall₂ (Stands start sent) (ids ++ [m])
      (s.packetHistory ++ [f]) :=
    List.rel_append hI.history (.cons ⟨q, hq, rfl, rfl, rfl⟩ .nil)
  have htimes := timestamps_sorted hI.sorted hsorted hstands
  have hmem : ∀ r ∈ (s.packetHistory ++ [f]).drop j,
      r ∈ s.packetHistory ∨ r = f := by
    intro r hr
    simpa using List.mem_of_mem_drop hr
  have hne : (s.packetHistory ++ [f]).drop j ≠ [] := by
    rw [hcons]
    exact List.cons_ne_nil _ _
  have hle : ∀ r ∈ (s.packetHistory ++ [f]).drop j,
      r.txTimestamp ≤ q.txTimestamp := by
    intro r hr
    rcases hmem r hr with hr | rfl
    · exact (List.pairwise_append.mp htimes).2.2 r hr f (List.mem_singleton.mpr rfl)
    · exact BitVec.le_refl _
  obtain ⟨hbase, hbases⟩ := nextBaseDelay_le hdelay hI.owd
  refine ⟨(ids ++ [m]).drop j, ?_⟩
  constructor
  · exact hI.sorted
  · exact hI.first
  · exact hI.last
  · exact hI.historyLen
  · exact hI.queue
  · exact hI.queue_le
  · exact hsorted.drop
  · intro i hi
    have hi' := List.mem_of_mem_drop hi
    rw [List.mem_append, List.mem_singleton] at hi'
    rcases hi' with hi' | rfl
    · exact hI.ids_lt i hi'
    · exact hm
  · exact List.forall₂_drop j hstands
  · -- the first record that stays is inside the window, and the others follow it
    intro newest hnew r hr
    rw [eq_of_getLast?_drop hne hnew]
    have hp : p ∈ (s.packetHistory ++ [f]).drop j := by
      rw [hcons]
      exact List.mem_cons_self
    have hpr := txTimestamp_le_of_drop htimes hcons hr
    have hwin := inWindow_lt hin (hle p hp) hlen
    have hpr' : p.txTimestamp.toNat ≤ r.txTimestamp.toNat := hpr
    show q.txTimestamp.toNat - r.txTimestamp.toNat < len.toNat
    have hwin' : q.txTimestamp.toNat - p.txTimestamp.toNat < len.toNat := hwin
    omega
  · -- what garbage collection took out of the sum is what it took out of the list
    show sum = (((s.packetHistory ++ [f]).drop j).map (·.size)).sum
    have hsplit : s.pktSizeSum + f.size
        = (((s.packetHistory ++ [f]).drop j).map (·.size)).sum
          + (((s.packetHistory ++ [f]).take j).map (·.size)).sum := by
      rw [BitVec.add_comm (List.sum _), ← List.sum_append, ← List.map_append,
        List.take_append_drop, hI.sum]
      simp
    exact add_right_cancel (hsum.trans hsplit)
  · intro r hr
    rcases hmem r hr with hr | rfl
    · exact ⟨hbases r hr, (hI.owd r hr).2⟩
    · exact ⟨hbase, hdelay⟩

/-- **The feedback step**: whatever the call did, the invariant holds after
it. -/
theorem HistoryInv.feedback {start : BitVec 32} {len delay : BitVec 64}
    {sent : List Sent} {s s' : SenderBasedController F} {k : Nat}
    {ids : List Nat} {now rx : BitVec 64} {sequence : BitVec 32}
    {ecn : BitVec 8} {res : Bool}
    (hI : HistoryInv start len delay sent s k ids) (hlen : len.toNat ≤ 2 ^ 62)
    (hdelay : ∀ p ∈ s.inTransitPackets, p.sequence = sequence →
      dist delay (rx - p.txTimestamp) < 2 ^ 63)
    (h : s.processFeedback now sequence rx ecn = .ok (res, s')) :
    ∃ k' ids', HistoryInv start len delay sent s' k' ids' := by
  rcases SenderBasedController.processFeedback_ok h with
    ⟨j, rfl⟩ | ⟨j, packet, rest, hdrop, hseq, _, hrec⟩
  · obtain ⟨k', hk'⟩ := hI.discard j
    exact ⟨k', ids, hk'⟩
  · have hpacket : packet ∈ s.inTransitPackets :=
      List.mem_of_mem_drop (by rw [hdrop]; exact List.mem_cons_self)
    rw [hI.queue, List.drop_drop] at hdrop
    obtain ⟨q, hq, rfl, hmlt, hrest'⟩ := drop_sentRecords_cons hdrop
    -- the packet leaves the deque before it is filed
    have hpop : HistoryInv start len delay sent
        { s with inTransitPackets := rest } (k + j + 1) ids := by
      refine { hI with queue := hrest', queue_le := hmlt, ids_lt := ?_ }
      intro i hi
      have := hI.ids_lt i hi
      omega
    obtain ⟨ids₁, hsub, hobs⟩ := hpop.dropObsolete (sentRecord start (k + j) q)
    have hids : ∀ i ∈ ids₁, i < k + j := by
      intro i hi
      have := hI.ids_lt i (hsub hi)
      omega
    have howd : dist delay (rx - q.txTimestamp) < 2 ^ 63 := by
      have := hdelay _ hpacket hseq
      simpa only [sentRecord] using this
    obtain ⟨ids', hI'⟩ :=
      hobs.record hlen hq (Nat.lt_succ_self (k + j)) hids howd hrec
    exact ⟨k + j + 1, ids', hI'⟩

/-! ## Runs -/

/-- Every reachable state of a media run satisfies the invariant. -/
theorem historyInv_of_run [FloatOps F] {start : BitVec 32}
    {len delay : BitVec 64} (hlen : len.toNat ≤ 2 ^ 62)
    {es : List MediaEvent} {c : List Sent × SenderBasedController F}
    (h : Run (MediaStep start delay) ([], historyStart len) es c) :
    ∃ k ids, HistoryInv start len delay c.1 c.2 k ids := by
  refine Run.stateInvariant (I := fun c => ∃ k ids,
    HistoryInv start len delay c.1 c.2 k ids)
    ⟨0, [], HistoryInv.init start len delay⟩ ?_ h
  rintro c e c' ⟨k, ids, hI⟩ hstep
  cases hstep with
  | send htx hs =>
      obtain ⟨k', hk'⟩ := hI.send htx hs
      exact ⟨k', ids, hk'⟩
  | feedback hd hs => exact hI.feedback hlen hd hs

/-! ## What the invariant says about the fields -/

/-- Positions in strictly increasing order lie between the first and the
last. -/
theorem mem_bounds {ids : List Nat} (h : ids.Pairwise (· < ·)) {i j n : Nat}
    (hi : ids.head? = some i) (hj : ids.getLast? = some j) (hn : n ∈ ids) :
    i ≤ n ∧ n ≤ j := by
  constructor
  · cases ids with
    | nil => cases hn
    | cons a rest =>
        rw [List.head?_cons, Option.some.injEq] at hi
        subst hi
        rcases List.mem_cons.mp hn with rfl | hn
        · exact Nat.le_refl _
        · exact Nat.le_of_lt ((List.pairwise_cons.mp h).1 n hn)
  · obtain ⟨rest, rfl⟩ := List.getLast?_eq_some_iff.mp hj
    rw [List.mem_append, List.mem_singleton] at hn
    rcases hn with hn | rfl
    · exact Nat.le_of_lt ((List.pairwise_append.mp h).2.2 n hn j
        (List.mem_singleton.mpr rfl))
    · exact Nat.le_refl _

/-- Positions in strictly increasing order form a subset of the interval they
span. -/
theorem toFinset_subset_Icc {ids : List Nat} (h : ids.Pairwise (· < ·))
    {i j : Nat} (hi : ids.head? = some i) (hj : ids.getLast? = some j) :
    ids.toFinset ⊆ Finset.Icc i j := by
  intro n hn
  rw [List.mem_toFinset] at hn
  exact Finset.mem_Icc.mpr (mem_bounds h hi hj hn)

theorem nodup_of_increasing {ids : List Nat} (h : ids.Pairwise (· < ·)) :
    ids.Nodup :=
  h.imp fun hlt => Nat.ne_of_lt hlt

/-- A 32-bit sum of sizes, as a number. -/
theorem toNat_sum_size (records : List PacketRecord) :
    (records.map PacketRecord.size).sum.toNat
      = totalSize records % 2 ^ 32 := by
  induction records with
  | nil => rfl
  | cons r rest ih =>
      simp only [List.map_cons, List.sum_cons, BitVec.toNat_add, ih,
        totalSize_cons]
      omega

/-- The bytes of the records are the bytes of their positions. -/
theorem sum_size_eq {start : BitVec 32} {sent : List Sent} {ids : List Nat}
    {records : List PacketRecord}
    (h : List.Forall₂ (Stands start sent) ids records) :
    totalSize records = (ids.map (sentBytes sent)).sum := by
  induction h with
  | nil => rfl
  | cons hr _ ih =>
      obtain ⟨p, hp, _, _, hsize⟩ := hr
      simp only [totalSize_cons, List.map_cons, List.sum_cons, ih, hsize,
        sentBytes, hp, Option.map_some, Option.getD_some]

section Facts

variable {start : BitVec 32} {len delay : BitVec 64} {sent : List Sent}
  {s : SenderBasedController F} {k : Nat} {ids : List Nat}

theorem HistoryInv.le_newest (hI : HistoryInv start len delay sent s k ids)
    {newest r : PacketRecord} (hn : s.packetHistory.getLast? = some newest)
    (hr : r ∈ s.packetHistory) : r.txTimestamp ≤ newest.txTimestamp := by
  have htimes := timestamps_sorted hI.sorted hI.ids_sorted hI.history
  obtain ⟨rest, hrest⟩ := List.getLast?_eq_some_iff.mp hn
  rw [hrest] at htimes hr
  rw [List.mem_append, List.mem_singleton] at hr
  rcases hr with hr | rfl
  · exact (List.pairwise_append.mp htimes).2.2 r hr newest
      (List.mem_singleton.mpr rfl)
  · exact BitVec.le_refl _

/-- Two records of the history lie within the bounds of one window. -/
theorem HistoryInv.bounds (hI : HistoryInv start len delay sent s k ids)
    (hwin : WindowBounded len sent) {i j : Nat} {a b : PacketRecord}
    (ha : a ∈ s.packetHistory) (hb : b ∈ s.packetHistory)
    (hsa : Stands start sent i a) (hsb : Stands start sent j b) (hij : i ≤ j) :
    j - i + 1 < 2 ^ 31 ∧ ∑ n ∈ Finset.Icc i j, sentBytes sent n < 2 ^ 32 := by
  obtain ⟨p, hp, _, htp, _⟩ := hsa
  obtain ⟨q, hq, _, htq, _⟩ := hsb
  obtain ⟨newest, hn⟩ : ∃ newest, s.packetHistory.getLast? = some newest :=
    Option.isSome_iff_exists.mp
      (List.getLast?_isSome.mpr (List.ne_nil_of_mem ha))
  have hle : b.txTimestamp.toNat ≤ newest.txTimestamp.toNat := hI.le_newest hn hb
  have hlt := hI.window newest hn a ha
  refine hwin i j p q hij hp hq ?_
  rw [← htp, ← htq]
  omega

theorem HistoryInv.sequences (hI : HistoryInv start len delay sent s k ids)
    (hwin : WindowBounded len sent) :
    s.packetHistory.Pairwise (fun a b => lessThan a.sequence b.sequence) := by
  have hpos : s.packetHistory.Pairwise (fun a b => ∃ i j, i < j ∧
      Stands start sent i a ∧ Stands start sent j b) :=
    Aligned.pairwise_right (fun i j _ _ ha hb hij => ⟨i, j, hij, ha, hb⟩)
      hI.history hI.ids_sorted
  refine hpos.imp_of_mem ?_
  rintro a b ha hb ⟨i, j, hij, hsa, hsb⟩
  obtain ⟨hnum, _⟩ := hI.bounds hwin ha hb hsa hsb (Nat.le_of_lt hij)
  obtain ⟨p, _, hseqa, _⟩ := hsa
  obtain ⟨q, _, hseqb, _⟩ := hsb
  have hd := dist_ofNat_add start (Nat.le_of_lt hij) (by omega)
  rw [lessThan_iff, hseqa, hseqb, Precedes, hd]
  omega

/-- The first and the last position of the history, with their records. -/
theorem HistoryInv.ends (hI : HistoryInv start len delay sent s k ids)
    {front back : PacketRecord} (hf : s.packetHistory.head? = some front)
    (hb : s.packetHistory.getLast? = some back) :
    ∃ i j, ids.head? = some i ∧ ids.getLast? = some j ∧ i ≤ j ∧
      Stands start sent i front ∧ Stands start sent j back := by
  obtain ⟨j, hj, hsj⟩ := Aligned.getLast?_right hI.history hb
  obtain ⟨i, hi, hsi⟩ := Aligned.head?_right hI.history hf
  exact ⟨i, j, hi, hj, (mem_bounds hI.ids_sorted hi hj
    (List.mem_of_getLast? hj)).1, hsi, hsj⟩

theorem HistoryInv.sizeSum (hI : HistoryInv start len delay sent s k ids)
    (hwin : WindowBounded len sent) :
    s.pktSizeSum.toNat = totalSize s.packetHistory := by
  rw [hI.sum, toNat_sum_size]
  apply Nat.mod_eq_of_lt
  cases hH : s.packetHistory with
  | nil => simp
  | cons front rest =>
      have hf : s.packetHistory.head? = some front := by rw [hH]; rfl
      obtain ⟨back, hb⟩ : ∃ back, s.packetHistory.getLast? = some back :=
        Option.isSome_iff_exists.mp
          (List.getLast?_isSome.mpr (by rw [hH]; exact List.cons_ne_nil _ _))
      obtain ⟨i, j, hi, hj, hij, hsi, hsj⟩ := hI.ends hf hb
      obtain ⟨_, hbytes⟩ := hI.bounds hwin (List.mem_of_head? hf)
        (List.mem_of_getLast? hb) hsi hsj hij
      rw [← hH, sum_size_eq hI.history,
        ← List.sum_toFinset _ (nodup_of_increasing hI.ids_sorted)]
      exact Nat.lt_of_le_of_lt (Finset.sum_le_sum_of_subset
        (toFinset_subset_Icc hI.ids_sorted hi hj)) hbytes

theorem HistoryInv.queue_consecutive
    (hI : HistoryInv start len delay sent s k ids) {n : Nat}
    {p q : PacketRecord} (hp : s.inTransitPackets[n]? = some p)
    (hq : s.inTransitPackets[n + 1]? = some q) :
    q.sequence = p.sequence + 1 := by
  rw [hI.queue, List.getElem?_drop, getElem?_sentRecords,
    Option.map_eq_some_iff] at hp hq
  obtain ⟨_, _, rfl⟩ := hp
  obtain ⟨_, _, rfl⟩ := hq
  show start + BitVec.ofNat 32 (k + (n + 1)) = start + BitVec.ofNat 32 (k + n) + 1
  rw [← Nat.add_assoc, BitVec.ofNat_add, BitVec.add_assoc]
  rfl

theorem HistoryInv.queue_back
    (hI : HistoryInv start len delay sent s k ids) {back : PacketRecord}
    (hb : s.inTransitPackets.getLast? = some back) :
    back.sequence = s.lastSequence := by
  rw [hI.queue, List.getLast?_drop] at hb
  split at hb
  · cases hb
  rw [List.getLast?_eq_getElem?, length_sentRecords, getElem?_sentRecords,
    Option.map_eq_some_iff] at hb
  obtain ⟨p, hp, rfl⟩ := hb
  have hlt := (List.getElem?_eq_some_iff.mp hp).1
  have hlast := hI.last (List.ne_nil_of_length_pos (by omega))
  have hn : sent.length = sent.length - 1 + 1 := by omega
  rw [hn, BitVec.ofNat_add, ← BitVec.add_assoc] at hlast
  exact (add_right_cancel hlast).symm

/-- Packets in transit follow the newest record, as long as at most `2 ^ 31`
packets were sent from that record on. -/
theorem HistoryInv.queue_follows
    (hI : HistoryInv start len delay sent s k ids) {newest p : PacketRecord}
    {j : Nat} (hj : j ∈ ids) (hn : Stands start sent j newest)
    (hcount : sent.length - j ≤ 2 ^ 31) (hp : p ∈ s.inTransitPackets) :
    lessThan newest.sequence p.sequence := by
  rw [hI.queue] at hp
  obtain ⟨n, hn'⟩ := List.getElem?_of_mem hp
  rw [List.getElem?_drop, getElem?_sentRecords, Option.map_eq_some_iff] at hn'
  obtain ⟨q, hq, rfl⟩ := hn'
  have hlt := (List.getElem?_eq_some_iff.mp hq).1
  have hjk := hI.ids_lt j hj
  obtain ⟨_, _, hseq, _⟩ := hn
  have hd := dist_ofNat_add start (i := j) (j := k + n) (by omega) (by omega)
  rw [lessThan_iff, hseq, Precedes]
  show 0 < dist _ (start + BitVec.ofNat 32 (k + n)) ∧ _
  rw [show (sentRecord start (k + n) q).sequence
    = start + BitVec.ofNat 32 (k + n) from rfl, hd]
  omega

/-- No queueing delay wraps: the base delay is a lower bound of the delays,
less than half of the circle behind them. -/
theorem HistoryInv.baseDelay_le
    (hI : HistoryInv start len delay sent s k ids) {r : PacketRecord}
    (hr : r ∈ s.packetHistory) :
    lessThan r.owd s.baseDelay = false ∧
      (r.owd - s.baseDelay).toNat < 2 ^ 63 := by
  obtain ⟨hle, hlt⟩ := hI.owd r hr
  have hord := precedes_iff_of_half (o := delay) (a := r.owd)
    (b := s.baseDelay) (by omega) (by omega)
  have hsum := dist_add_of_le hle
  constructor
  · rw [← Bool.not_eq_true, lessThan_iff, hord]
    omega
  · show dist s.baseDelay r.owd < 2 ^ 63
    omega

/-- The positions between the first and the last record that have no record
of their own. -/
def lostPositions (ids : List Nat) : Finset Nat :=
  match ids.head?, ids.getLast? with
  | some i, some j => (Finset.Icc i j).filter (· ∉ ids)
  | _, _ => ∅

theorem card_lostPositions {ids : List Nat} (h : ids.Pairwise (· < ·))
    {i j : Nat} (hi : ids.head? = some i) (hj : ids.getLast? = some j) :
    (lostPositions ids).card + ids.length = j + 1 - i := by
  have hsub := toFinset_subset_Icc h hi hj
  have heq : lostPositions ids = Finset.Icc i j \ ids.toFinset := by
    simp only [lostPositions, hi, hj]
    ext n
    simp
  rw [heq, ← List.toFinset_card_of_nodup (nodup_of_increasing h),
    Finset.card_sdiff_add_card_eq_card hsub, Nat.card_Icc]

/-- **The loss count**: with enough records, `getPktLossInfo` returns the
number of packets without a record between the oldest and the newest one. -/
theorem HistoryInv.getPktLossInfo_eq [FloatOps F]
    (hI : HistoryInv start len delay sent s k ids)
    (hwin : WindowBounded len sent)
    (hlong : minPacketLoglen ≤ s.packetHistory.length) :
    ∃ nLoss plr, s.getPktLossInfo = .ok (some (nLoss, plr)) ∧
      nLoss.toNat = (lostPositions ids).card := by
  have hne : s.packetHistory ≠ [] := by
    intro h
    rw [h] at hlong
    exact absurd hlong (by decide)
  obtain ⟨front, hf⟩ := Option.isSome_iff_exists.mp
    (List.isSome_head?.mpr hne)
  obtain ⟨back, hb⟩ := Option.isSome_iff_exists.mp
    (List.getLast?_isSome.mpr hne)
  obtain ⟨i, j, hi, hj, hij, hsi, hsj⟩ := hI.ends hf hb
  obtain ⟨hnum, _⟩ := hI.bounds hwin (List.mem_of_head? hf)
    (List.mem_of_getLast? hb) hsi hsj hij
  have hcard := card_lostPositions hI.ids_sorted hi hj
  rw [hI.history.length_eq] at hcard
  obtain ⟨_, _, hseqi, _⟩ := hsi
  obtain ⟨_, _, hseqj, _⟩ := hsj
  have hd := dist_ofNat_add start hij (by omega)
  rw [← hseqi, ← hseqj] at hd
  have hspan : (1 + back.sequence - front.sequence).toNat = j + 1 - i := by
    have hadd : 1 + back.sequence - front.sequence
        = back.sequence - front.sequence + 1 := by ring
    have hd' : (back.sequence - front.sequence).toNat = j - i := hd
    rw [hadd, BitVec.toNat_add, hd']
    show (j - i + 1) % 2 ^ 32 = _
    omega
  have hshort : ¬ s.packetHistory.length < minPacketLoglen := by omega
  simp only [SenderBasedController.getPktLossInfo, if_neg hshort, hf, hb]
  rw [assert_pos (by omega), ok_bind]
  refine ⟨_, _, rfl, ?_⟩
  rw [BitVec.toNat_sub, hspan, BitVec.toNat_ofNat]
  omega

end Facts

/-- The state of the history after a call, in terms of the packets sent: the
history stands for the positions `ids`, the deque for the positions from `k`
on. -/
structure HistoryFacts [FloatOps F] (start : BitVec 32) (len : BitVec 64)
    (sent : List Sent) (s : SenderBasedController F) (k : Nat)
    (ids : List Nat) : Prop where
  ids_sorted : ids.Pairwise (· < ·)
  history : List.Forall₂ (Stands start sent) ids s.packetHistory
  sequences : s.packetHistory.Pairwise
    (fun a b => lessThan a.sequence b.sequence)
  window : ∀ newest ∈ s.packetHistory.getLast?, ∀ r ∈ s.packetHistory,
    r.txTimestamp ≤ newest.txTimestamp ∧
      newest.txTimestamp.toNat - r.txTimestamp.toNat < len.toNat
  sizeSum : s.pktSizeSum.toNat = totalSize s.packetHistory
  queue : s.inTransitPackets = (sentRecords start sent).drop k
  queue_consecutive : ∀ n p q, s.inTransitPackets[n]? = some p →
    s.inTransitPackets[n + 1]? = some q → q.sequence = p.sequence + 1
  queue_back : ∀ back ∈ s.inTransitPackets.getLast?,
    back.sequence = s.lastSequence
  queue_after : ∀ i ∈ ids, i < k
  queue_follows : ∀ newest ∈ s.packetHistory.getLast?, ∀ j ∈ ids.getLast?,
    sent.length - j ≤ 2 ^ 31 → ∀ p ∈ s.inTransitPackets,
      lessThan newest.sequence p.sequence
  baseDelay : ∀ r ∈ s.packetHistory, lessThan r.owd s.baseDelay = false ∧
    (r.owd - s.baseDelay).toNat < 2 ^ 63
  lossCount : minPacketLoglen ≤ s.packetHistory.length →
    ∃ nLoss plr, s.getPktLossInfo = .ok (some (nLoss, plr)) ∧
      nLoss.toNat = (lostPositions ids).card

/-- **The packet history of a media run**: after every call that returns,
the fields of the controller are those of the packets sent. -/
theorem packetHistory_of_run [FloatOps F] {start : BitVec 32}
    {len delay : BitVec 64} (hlen : len.toNat ≤ 2 ^ 62)
    {es : List MediaEvent} {c : List Sent × SenderBasedController F}
    (hrun : Run (MediaStep start delay) ([], historyStart len) es c)
    (hwin : WindowBounded len c.1) :
    ∃ k ids, HistoryFacts start len c.1 c.2 k ids := by
  obtain ⟨k, ids, hI⟩ := historyInv_of_run hlen hrun
  refine ⟨k, ids, ?_⟩
  constructor
  · exact hI.ids_sorted
  · exact hI.history
  · exact hI.sequences hwin
  · exact fun newest hn r hr => ⟨hI.le_newest hn hr, hI.window newest hn r hr⟩
  · exact hI.sizeSum hwin
  · exact hI.queue
  · exact fun n p q hp hq => hI.queue_consecutive hp hq
  · exact fun back hb => hI.queue_back hb
  · exact hI.ids_lt
  · intro newest hn j hj hcount p hp
    obtain ⟨j', hj', hs⟩ := Aligned.getLast?_right hI.history hn
    rw [hj'] at hj
    cases hj
    exact hI.queue_follows (List.mem_of_getLast? hj') hs hcount hp
  · exact fun r hr => hI.baseDelay_le hr
  · exact hI.getPktLossInfo_eq hwin

/-- A short run is window bounded as a whole. -/
theorem windowBounded_of_total {len : BitVec 64} {sent : List Sent}
    (hnum : sent.length < 2 ^ 31)
    (hbytes : ∑ n ∈ Finset.range sent.length, sentBytes sent n < 2 ^ 32) :
    WindowBounded len sent := by
  intro i j p q hij _ hq _
  have hj := (List.getElem?_eq_some_iff.mp hq).1
  refine ⟨by omega, Nat.lt_of_le_of_lt (Finset.sum_le_sum_of_subset ?_) hbytes⟩
  intro n hn
  rw [Finset.mem_Icc] at hn
  exact Finset.mem_range.mpr (by omega)

/-- Eight packets across the wrap of the sequence number, two of which are lost; the
feedback of the first one comes again, late. -/
def eightSent : List MediaEvent :=
  [.send 0 100, .send 20 100, .feedback 60 0xFFFFFFFE 40 0, .send 60 100, .send 80 100,
    .feedback 110 0xFFFFFFFF 70 0, .send 110 100, .send 130 100, .feedback 150 1 130 0,
    .feedback 155 0xFFFFFFFE 40 0, .send 150 100, .feedback 190 3 170 0, .send 200 100,
    .feedback 210 4 190 0, .feedback 250 5 240 0]

/-- Enough records are left for the losses to be counted. -/
theorem packetHistory_of_run_eightSent :
    ∃ (c : List Sent × SenderBasedController Float32) (k : Nat) (ids : List Nat),
      Run (MediaStep 0xFFFFFFFE 0) ([], historyStart 500) eightSent c ∧
      c.1.length = 8 ∧
      c.2.packetHistory.map (·.sequence) = [0xFFFFFFFE, 0xFFFFFFFF, 1, 3, 4, 5] ∧
      minPacketLoglen ≤ c.2.packetHistory.length ∧
      HistoryFacts 0xFFFFFFFE 500 c.1 c.2 k ids := by
  have hlast : (eightSent.foldlM (mediaStep? 0xFFFFFFFE 0)
      (([], historyStart 500) : List Sent × SenderBasedController Float32)).map (fun c =>
        (c.1.length, c.2.packetHistory.map (·.sequence),
          decide (minPacketLoglen ≤ c.2.packetHistory.length),
          decide (∑ n ∈ Finset.range c.1.length, sentBytes c.1 n < 2 ^ 32))) =
      some (8, [0xFFFFFFFE, 0xFFFFFFFF, 1, 3, 4, 5], true, true) := by
    decide
  obtain ⟨c, hc, hview⟩ := Option.map_eq_some_iff.mp hlast
  obtain ⟨hnum, hhist, hlong, hbytes⟩ : _ ∧ _ ∧ _ ∧ _ := by
    simpa only [Prod.mk.injEq] using hview
  have hrun := (Run.of_foldlM hc).mono fun _ _ _ => mediaStep_of_mediaStep?
  have hwin : WindowBounded 500 c.1 :=
    windowBounded_of_total (by rw [hnum]; decide) (of_decide_eq_true hbytes)
  obtain ⟨k, ids, hfacts⟩ := packetHistory_of_run (by decide) hrun hwin
  exact ⟨c, k, ids, hrun, hnum, hhist, of_decide_eq_true hlong, hfacts⟩

end Rmcat
