import RmcatNs3.Lib.Runs
import RmcatNs3.Rmcat.AbortFreedom

/-!
# What a rejected send leaves behind

`processSendPacket` moves `m_lastSequence` before it looks at the number that it
is given. A rejected call leaves everything else as it was, so rejected calls are
forgotten only after `2 ^ 32` of them.
-/

namespace Rmcat

open Runs

variable {F : Type}

namespace SenderBasedController

/-- A call of `processSendPacket` that returns `false`. -/
def RejectedSend (s : SenderBasedController F) (c : BitVec 64 × BitVec 32 × BitVec 32)
    (s' : SenderBasedController F) : Prop :=
  s.processSendPacket c.1 c.2.1 c.2.2 = .ok (false, s')

/-- If the call is rejected, the controller is as it was before. -/
def RejectionHarmless (s : SenderBasedController F) (txTimestamp : BitVec 64)
    (sequence size : BitVec 32) : Prop :=
  ∀ s', s.processSendPacket txTimestamp sequence size = .ok (false, s') → s' = s

/-- What some calls return, until one of them aborts. -/
def results (s : SenderBasedController F) : List Call → List (Except Abort Bool)
  | [] => []
  | c :: calls =>
      match s.call c with
      | .error e => [.error e]
      | .ok (res, s') => .ok res :: results s' calls

/-- No sequence of calls tells the two controllers apart. -/
def Indistinguishable (s s' : SenderBasedController F) : Prop :=
  ∀ calls, results s' calls = results s calls

/-- A send is accepted if it is the first one or in sequence. -/
theorem processSendPacket_accepts {s : SenderBasedController F} {sequence : BitVec 32}
    (h : s.firstSend = true ∨ sequence = s.lastSequence + 1) (txTimestamp : BitVec 64)
    (size : BitVec 32) :
    ∃ s', s.processSendPacket txTimestamp sequence size = .ok (true, s') := by
  obtain ⟨_, _, hevict⟩ := evictStale_eq s.inTransitPackets
    { sequence, txTimestamp, size, owd := 0, rtt := 0 }
  by_cases hfirst : s.firstSend = true
  · have hnext : sequence - 1 + 1 = sequence := BitVec.sub_add_cancel sequence 1
    simp only [processSendPacket, if_pos hfirst, hnext, ne_eq, not_true_eq_false, if_false]
    rw [hevict]
    exact ⟨_, rfl⟩
  · obtain rfl := h.resolve_left hfirst
    simp only [processSendPacket, if_neg hfirst, ne_eq, not_true_eq_false, if_false]
    rw [hevict]
    exact ⟨_, rfl⟩

/-- Any other send is rejected, and has moved `m_lastSequence`. -/
theorem processSendPacket_rejects {s : SenderBasedController F} {sequence : BitVec 32}
    (hfirst : s.firstSend = false) (hsequence : sequence ≠ s.lastSequence + 1)
    (txTimestamp : BitVec 64) (size : BitVec 32) :
    s.processSendPacket txTimestamp sequence size
      = .ok (false, { s with lastSequence := s.lastSequence + 1 }) := by
  have hfirst' : ¬ s.firstSend = true := Bool.eq_false_iff.mp hfirst
  simp only [processSendPacket, if_neg hfirst', ne_eq, if_pos hsequence]

theorem RejectedSend.eq {s s' : SenderBasedController F}
    {c : BitVec 64 × BitVec 32 × BitVec 32} (h : RejectedSend s c s') :
    s.firstSend = false ∧ s' = { s with lastSequence := s.lastSequence + 1 } := by
  by_cases hok : s.firstSend = true ∨ c.2.1 = s.lastSequence + 1
  · obtain ⟨_, haccept⟩ := processSendPacket_accepts hok c.1 c.2.2
    have heq := haccept.symm.trans h
    simp at heq
  · obtain ⟨hfirst, hsequence⟩ := not_or.mp hok
    have hfirst := Bool.eq_false_iff.mpr hfirst
    have heq := (processSendPacket_rejects hfirst hsequence c.1 c.2.2).symm.trans h
    exact ⟨hfirst, (Prod.mk.inj (Except.ok.inj heq)).2.symm⟩

/-- **A call** is harmless exactly if it is not rejected. -/
theorem rejectionHarmless_iff (s : SenderBasedController F) (txTimestamp : BitVec 64)
    (sequence size : BitVec 32) :
    RejectionHarmless s txTimestamp sequence size ↔
      s.firstSend = true ∨ sequence = s.lastSequence + 1 := by
  constructor
  · intro h
    by_contra hbad
    obtain ⟨hfirst, hsequence⟩ := not_or.mp hbad
    have heq := congrArg SenderBasedController.lastSequence
      (h _ (processSendPacket_rejects (Bool.eq_false_iff.mpr hfirst) hsequence _ _))
    have hne : s.lastSequence + 1 ≠ s.lastSequence := by bv_omega
    exact hne heq
  · intro hok s' hrejected
    obtain ⟨_, haccept⟩ := processSendPacket_accepts hok txTimestamp size
    have heq := haccept.symm.trans hrejected
    simp at heq

/-- Rejected calls move `m_lastSequence`, and change nothing else. -/
theorem rejectedRun_eq {s s' : SenderBasedController F}
    {calls : List (BitVec 64 × BitVec 32 × BitVec 32)} (hrun : Run RejectedSend s calls s') :
    s' = { s with lastSequence := s.lastSequence + BitVec.ofNat 32 calls.length } ∧
      (calls ≠ [] → s.firstSend = false) := by
  induction hrun with
  | nil => exact ⟨by simp, fun h => absurd rfl h⟩
  | snoc _ hstep ih =>
      obtain ⟨hfirst, rfl⟩ := hstep.eq
      obtain ⟨rfl, _⟩ := ih
      refine ⟨?_, fun _ => hfirst⟩
      rw [List.length_append, List.length_singleton, BitVec.ofNat_add, ← BitVec.add_assoc]
      rfl

theorem ofNat_eq_zero_iff (n : Nat) : BitVec.ofNat 32 n = 0 ↔ 2 ^ 32 ∣ n := by
  rw [← BitVec.toNat_inj, BitVec.toNat_ofNat, Nat.dvd_iff_mod_eq_zero]
  rfl

/-- **Rejected sends are forgotten only after `2 ^ 32` of them.** A single call
is harmless exactly if it is not rejected. After some rejected calls the
controller is as before, and the next packet in sequence and everything after it is
handled as before, exactly if their number is a multiple of `2 ^ 32`. -/
theorem rejectedSends_harmless_iff (s : SenderBasedController F) :
    (∀ txTimestamp sequence size, RejectionHarmless s txTimestamp sequence size ↔
      s.firstSend = true ∨ sequence = s.lastSequence + 1) ∧
    ∀ calls s', Run RejectedSend s calls s' →
      (s' = s ↔ 2 ^ 32 ∣ calls.length) ∧
      (Indistinguishable s s' ↔ 2 ^ 32 ∣ calls.length) ∧
      ((∀ txTimestamp size, ∃ s'', s'.processSendPacket txTimestamp (s.lastSequence + 1) size
        = .ok (true, s'')) ↔ 2 ^ 32 ∣ calls.length) := by
  refine ⟨rejectionHarmless_iff s, fun calls s' hrun => ?_⟩
  obtain ⟨rfl, hfirst⟩ := rejectedRun_eq hrun
  by_cases hdvd : 2 ^ 32 ∣ calls.length
  · have hsame : ({ s with lastSequence := s.lastSequence + BitVec.ofNat 32 calls.length } :
        SenderBasedController F) = s := by
      simp [(ofNat_eq_zero_iff _).mpr hdvd]
    rw [hsame]
    refine ⟨iff_of_true rfl hdvd, iff_of_true (fun _ => rfl) hdvd, iff_of_true ?_ hdvd⟩
    exact fun txTimestamp size => processSendPacket_accepts (.inr rfl) txTimestamp size
  · have hne : BitVec.ofNat 32 calls.length ≠ 0 := fun h => hdvd ((ofNat_eq_zero_iff _).mp h)
    have hfirst := hfirst fun hnil => hdvd (by simp [hnil])
    have hmoved : s.lastSequence + BitVec.ofNat 32 calls.length ≠ s.lastSequence := by
      bv_omega
    -- the next packet in sequence tells the two apart
    have hreject := @processSendPacket_rejects F
      { s with lastSequence := s.lastSequence + BitVec.ofNat 32 calls.length }
      (s.lastSequence + 1) hfirst (by
        show s.lastSequence + 1 ≠ s.lastSequence + BitVec.ofNat 32 calls.length + 1
        bv_omega) 0 0
    refine ⟨iff_of_false ?_ hdvd, iff_of_false ?_ hdvd, iff_of_false ?_ hdvd⟩
    · exact fun heq => hmoved (congrArg SenderBasedController.lastSequence heq)
    · intro hsame
      obtain ⟨_, haccept⟩ := @processSendPacket_accepts F s _ (.inr rfl) 0 0
      have hresults := hsame [.send 0 (s.lastSequence + 1) 0]
      simp only [results, SenderBasedController.call, hreject, haccept] at hresults
      simp at hresults
    · intro haccept
      obtain ⟨_, haccept⟩ := haccept 0 0
      have heq := hreject.symm.trans haccept
      simp at heq

/-- After packet `5` and the rejected packet `7`, packet `6` is rejected. -/
theorem rejected_send_moves : ∃ s s' : SenderBasedController Float32,
    SenderBasedController.new.processSendPacket 0 5 100 = .ok (true, s) ∧
    s.processSendPacket 20 7 100 = .ok (false, s') ∧ s' ≠ s ∧
    ∃ s'', s'.processSendPacket 20 6 100 = .ok (false, s'') := by
  refine ⟨_, _, rfl, rfl, ?_, _, rfl⟩
  intro heq
  have hlast := congrArg SenderBasedController.lastSequence heq
  revert hlast
  decide

end SenderBasedController

end Rmcat
