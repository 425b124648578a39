import Mathlib.Algebra.GroupWithZero.Nat
import RmcatNs3.Lib.SortedMap
import RmcatNs3.Razor.Unwrapper

/-!
# The sender's history

`razor/estimator/sender_history.{c,h}`: the packets that have been sent, under
their unwrapped sequence numbers, until a feedback asks for them or a minute is
over. The skiplist `l` is the sorted map it refines. The times that `GET_SYS_MS`
returns are parameters.
-/

namespace Razor

/-- `packet_feedback_t`. -/
structure PacketFeedback where
  createTs : Int
  arrivalTs : Int
  sendTs : Int
  sequenceNumber : TransportSeq
  payloadSize : Nat
  deriving DecidableEq, Repr

/-- `sender_history_t`. -/
structure SenderHistory where
  limitedMs : Nat
  wrapper : Unwrapper
  lastAckSeqNum : Int
  l : SortedMap Int PacketFeedback

namespace SenderHistory

/-- `sender_history_create`. -/
def create (limitedMs : Nat) : SenderHistory := ⟨limitedMs, .init16, 0, .empty⟩

/-- The loop of `sender_history_add`, with `n` records left. -/
def expireLoop (limitedMs : Nat) (nowTs : Int) :
    Nat → SortedMap Int PacketFeedback → SortedMap Int PacketFeedback
  | 0, l => l
  | n + 1, l =>
      match l.first? with
      | none => l
      | some it =>
          if it.2.createTs + limitedMs < nowTs then
            expireLoop limitedMs nowTs n (l.erase it.1)
          else l

/-- `sender_history_add`. -/
def add (hist : SenderHistory) (nowTs : Int) (packet : PacketFeedback) : SenderHistory :=
  let l := expireLoop hist.limitedMs nowTs hist.l.size hist.l
  let (key, wrapper) := hist.wrapper.wrapUint16 packet.sequenceNumber
  { hist with wrapper, l := l.insert key packet }

/-- `sender_history_get`; the result is the packet that it copies, if there is
one. -/
def get (hist : SenderHistory) (seq : TransportSeq) :
    Option PacketFeedback × SenderHistory :=
  let (key, wrapper) := hist.wrapper.wrapUint16 seq
  let hist := { hist with wrapper, lastAckSeqNum := max key hist.lastAckSeqNum }
  match hist.l.lookup key with
  | none => (none, hist)
  | some p => (some p, { hist with l := hist.l.erase key })

theorem get_fst (hist : SenderHistory) (seq : TransportSeq) :
    (hist.get seq).1 = hist.l.lookup (hist.wrapper.wrap16Update seq) := by
  rw [get]
  simp only [Unwrapper.wrapUint16]
  cases hist.l.lookup (hist.wrapper.wrap16Update seq) <;> rfl

/-- A lookup removes the record under the number, if there is one. -/
theorem get_snd (hist : SenderHistory) (seq : TransportSeq) :
    (hist.get seq).2 =
      { hist with
        wrapper := ⟨hist.wrapper.wrap16Update seq⟩
        lastAckSeqNum := max (hist.wrapper.wrap16Update seq) hist.lastAckSeqNum
        l := hist.l.erase (hist.wrapper.wrap16Update seq) } := by
  rw [get]
  simp only [Unwrapper.wrapUint16]
  cases hl : hist.l.lookup (hist.wrapper.wrap16Update seq) with
  | none => simp only [SortedMap.erase_of_lookup_eq_none hl]
  | some p => rfl

/-- `sender_history_outstanding_bytes`; the sum is a `size_t`. -/
def outstandingBytes (hist : SenderHistory) : Nat :=
  hist.l.toList.foldl (fun ret it =>
    if it.1 > hist.lastAckSeqNum then (ret + it.2.payloadSize) % 2 ^ 64 else ret) 0

/-- The outstanding bytes are the sizes of the records above the last one that
was asked for. -/
theorem outstandingBytes_eq (hist : SenderHistory) :
    hist.outstandingBytes
      = ((hist.l.toList.filter fun it => decide (it.1 > hist.lastAckSeqNum)).map
          (·.2.payloadSize)).sum % 2 ^ 64 := by
  have hfold : ∀ (its : List (Int × PacketFeedback)) (ret : Nat),
      its.foldl (fun ret it =>
          if it.1 > hist.lastAckSeqNum then (ret + it.2.payloadSize) % 2 ^ 64 else ret)
          (ret % 2 ^ 64)
        = (ret + ((its.filter fun it => decide (it.1 > hist.lastAckSeqNum)).map
            (·.2.payloadSize)).sum) % 2 ^ 64 := by
    intro its
    induction its with
    | nil =>
        intro ret
        rfl
    | cons it its ih =>
        intro ret
        rw [List.foldl_cons]
        by_cases habove : it.1 > hist.lastAckSeqNum
        · rw [if_pos habove, Nat.mod_add_mod, ih,
            List.filter_cons_of_pos (by simpa using habove), List.map_cons, List.sum_cons,
            Nat.add_assoc]
        · rw [if_neg habove, ih, List.filter_cons_of_neg (by simpa using habove)]
  have h := hfold hist.l.toList 0
  rw [Nat.zero_add] at h
  exact h

/-! ## What the loop removes -/

/-- The records of a history that grows older are removed from the front. -/
theorem expireLoop_toList {limitedMs : Nat} {nowTs : Int} {n : Nat}
    {l : SortedMap Int PacketFeedback} (hn : l.size ≤ n)
    (hage : l.toList.Pairwise fun a b => a.2.createTs ≤ b.2.createTs) :
    (expireLoop limitedMs nowTs n l).toList
      = l.toList.filter fun b => decide (¬ b.2.createTs + limitedMs < nowTs) := by
  induction n generalizing l with
  | zero =>
      have hnil : l.toList = [] := List.length_eq_zero_iff.mp (Nat.le_zero.mp hn)
      rw [expireLoop, hnil, List.filter_nil]
  | succ n ih =>
      cases hl : l.toList with
      | nil => rw [expireLoop, SortedMap.first?, hl, List.head?_nil, List.filter_nil, hl]
      | cons it rest =>
          have hfirst : l.first? = some it := by rw [SortedMap.first?, hl, List.head?_cons]
          have hrest := SortedMap.erase_first_toList hl
          rw [hl, List.pairwise_cons] at hage
          rw [expireLoop, hfirst]
          by_cases hold : it.2.createTs + limitedMs < nowTs
          · have hsize : (l.erase it.1).size ≤ n := by
              rw [SortedMap.size, hl, List.length_cons] at hn
              rw [SortedMap.size, hrest]
              exact Nat.le_of_succ_le_succ hn
            simp only [if_pos hold]
            rw [ih hsize (by rw [hrest]; exact hage.2), hrest,
              List.filter_cons_of_neg (by simpa using hold)]
          · -- the first record is young enough, so all of them are
            simp only [if_neg hold]
            rw [hl, List.filter_eq_self.mpr]
            intro b hb
            rcases List.mem_cons.mp hb with rfl | hb
            · simpa using hold
            · have hle := hage.1 b hb
              simp only [decide_eq_true_eq]
              omega

end SenderHistory

end Razor
