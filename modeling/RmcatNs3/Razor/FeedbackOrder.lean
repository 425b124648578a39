import RmcatNs3.Lib.MergeSorting
import RmcatNs3.Razor.FeedbackBounds

/-!
# The order of the packets of a feedback

What `feedback_on_feedback` hands to the estimators: the samples that were found in the
history, sorted by `feedback_packet_comp`. The comparison has no case for two packets
that were sent in the same millisecond and received in the same millisecond; it puts each
of them behind the other.
-/

namespace Razor

open BoundedArray MergeSorting

/-! ## What the samples stand for -/

/-- The packets that some samples stand for, with the times of their arrival. -/
def SenderHistory.matched (hist : SenderHistory) : List FeedbackSample → List PacketFeedback
  | [] => []
  | sample :: samples =>
      match hist.get sample.seq.toFin with
      | (none, hist) => hist.matched samples
      | (some p, hist) => { p with arrivalTs := sample.ts.toInt } :: hist.matched samples

namespace FeedbackAdapter

variable {adapter adapter' : FeedbackAdapter}

/-- The packets of a feedback that the history holds, as the samples list them. -/
def matched (adapter : FeedbackAdapter) (msg : FeedbackMsg) : List PacketFeedback :=
  adapter.hist.matched (msg.samplesFrom 0 msg.samplesNum.toNat)

/-- What the estimators are handed: `packets` and `num`. -/
def handed (adapter : FeedbackAdapter) : List PacketFeedback :=
  adapter.packets.toList.take adapter.num

/-- The order by arrival, then by departure. -/
def Before (p1 p2 : PacketFeedback) : Prop :=
  p1.arrivalTs < p2.arrivalTs ∨ p1.arrivalTs = p2.arrivalTs ∧ p1.sendTs ≤ p2.sendTs

/-- The order of a feedback, as `qsort` and the estimators rely on it. -/
structure WellOrdered (adapter : FeedbackAdapter) (msg : FeedbackMsg)
    (adapter' : FeedbackAdapter) : Prop where
  perm : adapter'.handed.Perm (adapter.matched msg)
  sorted : adapter'.handed.Pairwise Before
  /-- Any other feedback on the same packets hands over the same list. -/
  unlisted : ∀ (other other' : FeedbackAdapter) (msg' : FeedbackMsg) (nowTs : Int),
    other.onFeedback nowTs msg' = some other' →
    (other.matched msg').Perm (adapter.matched msg) → other'.handed = adapter'.handed
  opposite : (adapter.matched msg).Pairwise fun p1 p2 =>
    (feedbackPacketComp p1 p2 < 0 ↔ feedbackPacketComp p2 p1 > 0) ∧
      (feedbackPacketComp p1 p2 > 0 ↔ feedbackPacketComp p2 p1 < 0)
  trans : ∀ p1 ∈ adapter.matched msg, ∀ p2 ∈ adapter.matched msg, ∀ p3 ∈ adapter.matched msg,
    feedbackPacketComp p1 p2 ≤ 0 → feedbackPacketComp p2 p3 ≤ 0 →
      feedbackPacketComp p1 p3 ≤ 0

/-- No two packets were sent in the same millisecond and received in the same one. -/
def NoTies (packets : List PacketFeedback) : Prop :=
  (packets.map fun p => (p.arrivalTs, p.sendTs)).Nodup

instance (packets : List PacketFeedback) : Decidable (NoTies packets) :=
  inferInstanceAs (Decidable (List.Nodup _))

/-! ## The comparison -/

theorem feedbackPacketComp_neg_iff (p1 p2 : PacketFeedback) :
    feedbackPacketComp p1 p2 < 0 ↔ p1.arrivalTs < p2.arrivalTs ∨
      p1.arrivalTs = p2.arrivalTs ∧ p1.sendTs < p2.sendTs := by
  unfold feedbackPacketComp
  split
  · simp_all
  · split
    · simp
      omega
    · split <;> simp <;> omega

theorem feedbackPacketComp_pos_iff (p1 p2 : PacketFeedback) :
    feedbackPacketComp p1 p2 > 0 ↔ Before p2 p1 := by
  unfold feedbackPacketComp Before
  split
  · simp
    omega
  · split
    · simp_all
    · split <;> simp <;> omega

/-- The comparison never says that two packets are tied. -/
theorem feedbackPacketComp_le_iff (p1 p2 : PacketFeedback) :
    feedbackPacketComp p1 p2 ≤ 0 ↔ feedbackPacketComp p1 p2 < 0 := by
  unfold feedbackPacketComp
  split
  · simp
  · split
    · simp
    · split <;> simp

theorem strictPart_comp :
    StrictPart Before fun p1 p2 => decide (feedbackPacketComp p1 p2 < 0) where
  trans := by
    intro p1 p2 p3 h12 h23
    unfold Before at *
    omega
  of_lt := by
    intro p1 p2 hlt
    have := (feedbackPacketComp_neg_iff p1 p2).mp (of_decide_eq_true hlt)
    unfold Before
    omega
  of_not_lt := by
    intro p1 p2 hlt
    have := mt (feedbackPacketComp_neg_iff p1 p2).mpr (of_decide_eq_false hlt)
    unfold Before
    omega

/-- Packets that are not tied are compared consistently. -/
theorem comp_opposite_iff (p1 p2 : PacketFeedback) :
    ((feedbackPacketComp p1 p2 < 0 ↔ feedbackPacketComp p2 p1 > 0) ∧
      (feedbackPacketComp p1 p2 > 0 ↔ feedbackPacketComp p2 p1 < 0)) ↔
    (p1.arrivalTs, p1.sendTs) ≠ (p2.arrivalTs, p2.sendTs) := by
  simp only [feedbackPacketComp_neg_iff, feedbackPacketComp_pos_iff, Before, ne_eq,
    Prod.mk.injEq]
  omega

theorem comp_trans {p1 p2 p3 : PacketFeedback} (h12 : feedbackPacketComp p1 p2 ≤ 0)
    (h23 : feedbackPacketComp p2 p3 ≤ 0) : feedbackPacketComp p1 p3 ≤ 0 := by
  rw [feedbackPacketComp_le_iff, feedbackPacketComp_neg_iff] at *
  omega

/-! ## What is handed over -/

/-- What `packets` holds after a write behind its first `num` entries. -/
theorem take_store {packets packets' : Vector PacketFeedback maxFeelbackCount} {n : Nat}
    {p : PacketFeedback} (h : store packets n p = some packets') :
    packets'.toList.take n = packets.toList.take n ∧
      packets'.toList.take (n + 1) = packets.toList.take n ++ [p] := by
  have hn := store_lt h
  rw [store, dif_pos hn, Option.some.injEq] at h
  subst h
  have hlen : n < packets.toList.length := by simpa using hn
  have hset : (packets.set n p).toList = packets.toList.set n p :=
    Vector.toList_set hn
  constructor
  · rw [hset, List.take_set_of_le (le_refl n)]
  · rw [hset, List.take_add_one, List.take_set_of_le (le_refl n),
      List.getElem?_set_self hlen]
    rfl

/-- One sample adds the packet that it stands for. -/
theorem handed_onSample {nowTs feedbackRtt feedbackRtt' : Int} {sample : FeedbackSample}
    (h : adapter.onSample nowTs feedbackRtt sample = some (adapter', feedbackRtt'))
    (samples : List FeedbackSample) :
    adapter'.handed ++ adapter'.hist.matched samples =
      adapter.handed ++ adapter.hist.matched (sample :: samples) := by
  have hkeeps := (onSample_some h).1
  unfold onSample at h
  rw [SenderHistory.matched]
  rcases hget : adapter.hist.get sample.seq.toFin with ⟨found, hist⟩
  rw [hget] at h hkeeps
  cases found with
  | none =>
      obtain ⟨rfl, _⟩ := Prod.mk.inj (Option.some.inj h)
      rfl
  | some p =>
      obtain ⟨packets₁, hstore₁, h⟩ := Option.bind_eq_some_iff.mp h
      obtain ⟨⟨adapter₁, rtt₁⟩, hrecord, h⟩ := Option.bind_eq_some_iff.mp h
      obtain ⟨packets₂, hstore₂, h⟩ := Option.bind_eq_some_iff.mp h
      obtain ⟨rfl, _⟩ := Prod.mk.inj (Option.some.inj h)
      obtain ⟨_, hnum, hpackets⟩ := recordRtt_some hrecord
      dsimp only at hnum hpackets
      dsimp only at hkeeps
      rw [hpackets, hnum] at hstore₂
      -- the first write is overwritten by the second one
      have hnew := (take_store hstore₂).2
      rw [(take_store hstore₁).1] at hnew
      simp only [handed, hnum, hnew, hkeeps]
      simp

theorem handed_samplesLoop {n i : Nat} {msg : FeedbackMsg} {nowTs feedbackRtt feedbackRtt' : Int}
    (h : samplesLoop nowTs msg n i adapter feedbackRtt = some (adapter', feedbackRtt')) :
    adapter'.handed = adapter.handed ++ adapter.hist.matched (msg.samplesFrom i n) := by
  induction n generalizing adapter i feedbackRtt with
  | zero =>
      obtain ⟨rfl, _⟩ := Prod.mk.inj (Option.some.inj h)
      simp [FeedbackMsg.samplesFrom, SenderHistory.matched]
  | succ n ih =>
      obtain ⟨sample, hload, h⟩ := Option.bind_eq_some_iff.mp h
      obtain ⟨⟨adapter₁, rtt₁⟩, hsample, h⟩ := Option.bind_eq_some_iff.mp h
      rw [ih h, FeedbackMsg.samplesFrom_of_load hload n, handed_onSample hsample]

/-- `qsort` sorts the entries of `packets` that count. -/
theorem handed_feedbackQsort (h : adapter.feedbackQsort = some adapter') :
    adapter'.handed = adapter.handed.mergeSort fun p1 p2 =>
      decide (feedbackPacketComp p1 p2 < 0) := by
  obtain ⟨ps, hload, h⟩ := Option.bind_eq_some_iff.mp h
  obtain ⟨packets, hstore, h⟩ := Option.bind_eq_some_iff.mp h
  obtain rfl := Option.some.inj h
  unfold loadAll at hload
  split at hload
  · rename_i hnum
    obtain rfl := Option.some.inj hload
    have hlen : (adapter.handed.mergeSort fun p1 p2 =>
        decide (feedbackPacketComp p1 p2 < 0)).length = adapter.num := by
      simp [handed, hnum]
    obtain ⟨packets', hstore', hnew, _⟩ :=
      @storeAll_eq _ _ _ adapter.packets 0 (by rw [hlen]; omega)
    obtain rfl := Option.some.inj (hstore.symm.trans hstore')
    refine List.ext_getElem? fun j => ?_
    rw [handed, List.getElem?_take]
    split
    · rename_i hj
      have hj' := hnew j (by rw [hlen]; exact hj)
      rw [Nat.zero_add] at hj'
      rw [Vector.getElem?_toList]
      exact hj'
    · rename_i hj
      exact (List.getElem?_eq_none (by rw [hlen]; exact not_lt.mp hj)).symm
  · cases hload

/-- **The packets that are handed over are the ones that were found**, sorted by the
comparison. -/
theorem handed_onFeedback {nowTs : Int} {msg : FeedbackMsg}
    (h : adapter.onFeedback nowTs msg = some adapter') :
    adapter'.handed = (adapter.matched msg).mergeSort fun p1 p2 =>
      decide (feedbackPacketComp p1 p2 < 0) := by
  obtain ⟨⟨adapter₁, feedbackRtt⟩, hloop, h⟩ := Option.bind_eq_some_iff.mp h
  obtain ⟨adapter₂, hmin, hsort⟩ := Option.bind_eq_some_iff.mp h
  obtain ⟨minFeedbackRtt, hmin'⟩ := adapter₁.updateMinRtt_eq feedbackRtt
  obtain rfl := Option.some.inj (hmin'.symm.trans hmin)
  have hfound : adapter₁.handed = adapter.matched msg := by
    rw [handed_samplesLoop hloop]
    simp [handed, matched]
  rw [handed_feedbackQsort hsort, ← hfound]
  rfl

/-! ## When the order is well defined -/

theorem noTies_of_opposite {packets : List PacketFeedback}
    (h : packets.Pairwise fun p1 p2 =>
      (feedbackPacketComp p1 p2 < 0 ↔ feedbackPacketComp p2 p1 > 0) ∧
        (feedbackPacketComp p1 p2 > 0 ↔ feedbackPacketComp p2 p1 < 0)) : NoTies packets :=
  List.pairwise_map.mpr (h.imp fun {p1 p2} => (comp_opposite_iff p1 p2).mp)

/-- Without ties the packets are sorted in one way only. -/
theorem NoTies.mergeSort_congr {packets packets' : List PacketFeedback} (h : NoTies packets)
    (hperm : packets'.Perm packets) :
    (packets'.mergeSort fun p1 p2 => decide (feedbackPacketComp p1 p2 < 0)) =
      packets.mergeSort fun p1 p2 => decide (feedbackPacketComp p1 p2 < 0) := by
  refine (strictPart_comp.mergeSort_congr hperm.symm ?_).symm
  intro p1 h1 p2 h2 h12 h21
  have hkeys : (p1.arrivalTs, p1.sendTs) = (p2.arrivalTs, p2.sendTs) := by
    rw [Prod.mk.injEq]
    unfold Before at h12 h21
    omega
  exact List.inj_on_of_nodup_map h h1 h2 hkeys

/-- **The order of a feedback is well defined exactly if no two of its packets are tied**:
then it is the one sorted list of the packets that were found, whatever order the samples
had, and the comparison is consistent on them. -/
theorem wellOrdered_iff_noTies {nowTs : Int} {msg : FeedbackMsg}
    (h : adapter.onFeedback nowTs msg = some adapter') :
    WellOrdered adapter msg adapter' ↔ NoTies (adapter.matched msg) := by
  have hhanded := handed_onFeedback h
  constructor
  · intro hordered
    exact noTies_of_opposite hordered.opposite
  · intro hties
    refine ⟨?_, ?_, ?_, ?_, fun _ _ _ _ _ _ => comp_trans⟩
    · rw [hhanded]
      exact List.mergeSort_perm _ _
    · rw [hhanded]
      exact strictPart_comp.pairwise_mergeSort _
    · intro other other' msg' nowTs' hother hperm
      rw [handed_onFeedback hother, hhanded]
      exact hties.mergeSort_congr hperm
    · have hpairs : (adapter.matched msg).Pairwise fun p1 p2 =>
          (p1.arrivalTs, p1.sendTs) ≠ (p2.arrivalTs, p2.sendTs) := List.pairwise_map.mp hties
      exact hpairs.imp fun {p1 p2} => (comp_opposite_iff p1 p2).mpr

/-! ## Two packets of one millisecond -/

/-- Two packets, of which the first one is sent at 5 ms. -/
def twoSent (sendTs : Int) : FeedbackAdapter :=
  (init.addPacket 5 5 (0 : BitVec 16).toFin 100).addPacket sendTs 6 (1 : BitVec 16).toFin 200

/-- Both of them were received at 9 ms; `seq` is listed first. -/
def bothReceived (seq : BitVec 16) : FeedbackMsg where
  flag := proxyTsMsg
  remb := 0
  fractionLoss := 0
  packetNum := 0
  baseSeq := 0
  minTs := 0
  samplesNum := 2
  samples := .ofFn fun i => ⟨if i.val = 0 then seq else 1 - seq, 9⟩

theorem matched_bothReceived (sendTs : Int) :
    (twoSent sendTs).matched (bothReceived 0) = [⟨5, 9, 5, 0, 100⟩, ⟨sendTs, 9, sendTs, 1, 200⟩] ∧
      (twoSent sendTs).matched (bothReceived 1) =
        [⟨sendTs, 9, sendTs, 1, 200⟩, ⟨5, 9, 5, 0, 100⟩] := by
  constructor <;> rfl

theorem onFeedback_bothReceived (sendTs nowTs : Int) (seq : BitVec 16) :
    ∃ adapter', (twoSent sendTs).onFeedback nowTs (bothReceived seq) = some adapter' := by
  have hfew : (twoSent sendTs).hist.hits ((bothReceived seq).seqsFrom 0 2) ≤ 2 :=
    SenderHistory.hits_le_length _ _
  obtain ⟨adapter', hon, _⟩ := @onFeedback_eq (twoSent sendTs) (bothReceived seq) (le_refl 0)
    (show (0 : Int) + (twoSent sendTs).hist.hits ((bothReceived seq).seqsFrom 0 2) < 2 ^ 31 by
      omega) (show 2 ≤ maxFeelbackCount by decide) nowTs
  exact ⟨adapter', hon⟩

/-- Packets that were sent at 5 and at 6 ms are ordered. -/
theorem wellOrdered_of_twoSent : ∃ adapter',
    (twoSent 6).onFeedback 10 (bothReceived 1) = some adapter' ∧
      (WellOrdered (twoSent 6) (bothReceived 1) adapter' ↔
        NoTies ((twoSent 6).matched (bothReceived 1))) ∧
      NoTies ((twoSent 6).matched (bothReceived 1)) := by
  obtain ⟨adapter', hon⟩ := onFeedback_bothReceived 6 10 1
  refine ⟨adapter', hon, wellOrdered_iff_noTies hon, ?_⟩
  rw [(matched_bothReceived 6).2]
  decide

theorem mergeSort_tied {p1 p2 : PacketFeedback}
    (h : (p1.arrivalTs, p1.sendTs) = (p2.arrivalTs, p2.sendTs)) :
    ([p1, p2].mergeSort fun p1 p2 => decide (feedbackPacketComp p1 p2 < 0)) = [p2, p1] := by
  have hnot : ¬feedbackPacketComp p1 p2 < 0 := by
    rw [feedbackPacketComp_neg_iff]
    simp only [Prod.mk.injEq] at h
    omega
  simp [List.mergeSort, List.MergeSort.Internal.splitInTwo, hnot]

/-- **Packets of one millisecond** are handed over in an order that depends on how the
feedback lists them: each is compared as the later one. -/
theorem not_wellOrdered_of_tie : ∃ adapter₁ adapter₂,
    (twoSent 5).onFeedback 10 (bothReceived 0) = some adapter₁ ∧
      (twoSent 5).onFeedback 10 (bothReceived 1) = some adapter₂ ∧
      ((twoSent 5).matched (bothReceived 1)).Perm ((twoSent 5).matched (bothReceived 0)) ∧
      adapter₁.handed ≠ adapter₂.handed ∧
      feedbackPacketComp ⟨5, 9, 5, 0, 100⟩ ⟨5, 9, 5, 1, 200⟩ = 1 ∧
      feedbackPacketComp ⟨5, 9, 5, 1, 200⟩ ⟨5, 9, 5, 0, 100⟩ = 1 ∧
      ¬WellOrdered (twoSent 5) (bothReceived 0) adapter₁ := by
  obtain ⟨adapter₁, hon₁⟩ := onFeedback_bothReceived 5 10 0
  obtain ⟨adapter₂, hon₂⟩ := onFeedback_bothReceived 5 10 1
  have hperm : ((twoSent 5).matched (bothReceived 1)).Perm
      ((twoSent 5).matched (bothReceived 0)) := by
    rw [(matched_bothReceived 5).1, (matched_bothReceived 5).2]
    exact List.Perm.swap _ _ _
  have hdiffer : adapter₁.handed ≠ adapter₂.handed := by
    rw [handed_onFeedback hon₁, handed_onFeedback hon₂, (matched_bothReceived 5).1,
      (matched_bothReceived 5).2, @mergeSort_tied ⟨5, 9, 5, 0, 100⟩ ⟨5, 9, 5, 1, 200⟩ rfl,
      @mergeSort_tied ⟨5, 9, 5, 1, 200⟩ ⟨5, 9, 5, 0, 100⟩ rfl]
    decide
  refine ⟨adapter₁, adapter₂, hon₁, hon₂, hperm, hdiffer, by decide, by decide, ?_⟩
  intro hordered
  exact hdiffer (hordered.unlisted (twoSent 5) adapter₂ (bothReceived 1) 10 hon₂ hperm).symm

end FeedbackAdapter

end Razor
