import RmcatNs3.Lib.Runs
import RmcatNs3.Razor.SenderCc

/-!
# No feedback leaves the sender's arrays

Runs of the sender's congestion controller. Whatever bytes it is given, the
decoder reads only these, and every index into `samples`, `packets` and `rtts` is
inside the array, as long as `index` does not wrap around.
-/

namespace Razor

open Runs MachineInt BoundedArray BinStream FeedbackMsg

namespace FeedbackMsg

/-! ## Decoding any bytes -/

theorem decodeRemb_total {strm : BinStream} {rest : List UInt8} (h : Reading strm rest)
    (msg : FeedbackMsg) :
    ∃ strm' rest' msg', decodeRemb strm msg = some (strm', msg') ∧ Reading strm' rest' ∧
      msg'.flag = msg.flag ∧ strm'.size = strm.size := by
  unfold decodeRemb
  by_cases hset : msg.hasFlag rembMsg = true
  · obtain ⟨remb, strm', rest', hget, h', hsize⟩ := h.getBits_total 4 32
    refine ⟨strm', rest', { msg with remb }, ?_, h', rfl, hsize⟩
    rw [if_pos hset, machUint32Read, hget]
    rfl
  · exact ⟨strm, rest, msg, if_neg hset, h, rfl, rfl⟩

theorem decodeLossInfo_total {strm : BinStream} {rest : List UInt8} (h : Reading strm rest)
    (msg : FeedbackMsg) :
    ∃ strm' rest' msg', decodeLossInfo strm msg = some (strm', msg') ∧
      Reading strm' rest' ∧ msg'.flag = msg.flag ∧ strm'.size = strm.size := by
  unfold decodeLossInfo
  by_cases hset : msg.hasFlag lossInfoMsg = true
  · obtain ⟨fractionLoss, strm₁, rest₁, hget₁, h₁, hsize₁⟩ := h.getBits_total 1 8
    obtain ⟨packetNum, strm₂, rest₂, hget₂, h₂, hsize₂⟩ := h₁.getBits_total 4 32
    refine ⟨strm₂, rest₂, { msg with fractionLoss, packetNum }, ?_, h₂, rfl,
      hsize₂.trans hsize₁⟩
    simp only [if_pos hset, machUint8Read, machInt32Read, hget₁, hget₂,
      Option.bind_eq_bind, Option.bind_some]
  · exact ⟨strm, rest, msg, if_neg hset, h, rfl, rfl⟩

theorem decodeSamples_total {strm : BinStream} {rest : List UInt8} (h : Reading strm rest)
    {msg : FeedbackMsg} {n i : Nat} (hfit : i + n ≤ maxFeelbackCount) :
    ∃ strm' rest' samples, decodeSamples n i strm msg = some (strm', { msg with samples }) ∧
      Reading strm' rest' ∧ strm'.size = strm.size := by
  induction n generalizing strm rest msg i with
  | zero => exact ⟨strm, rest, msg.samples, rfl, h, rfl⟩
  | succ n ih =>
      obtain ⟨seq, strm₁, rest₁, hget₁, h₁, hsize₁⟩ := h.getBits_total 2 16
      obtain ⟨deltaTs, strm₂, rest₂, hget₂, h₂, hsize₂⟩ := h₁.getBits_total 2 16
      obtain ⟨samples₁, hstore⟩ := store_isSome (a := msg.samples)
        (show i < maxFeelbackCount by omega) ⟨seq, msg.minTs + deltaTs.setWidth 64⟩
      let msg₁ : FeedbackMsg := { msg with samples := samples₁ }
      obtain ⟨strm₃, rest₃, samples, hloop, h₃, hsize₃⟩ :=
        @ih strm₂ rest₂ h₂ msg₁ (i + 1) (by omega)
      refine ⟨strm₃, rest₃, samples, ?_, h₃, hsize₃.trans (hsize₂.trans hsize₁)⟩
      simp only [decodeSamples, machUint16Read, hget₁, hget₂, hstore, Option.bind_eq_bind,
        Option.bind_some]
      exact hloop

theorem decodeProxyTs_total {strm : BinStream} {rest : List UInt8} (h : Reading strm rest)
    (msg : FeedbackMsg) :
    ∃ strm' rest' msg', decodeProxyTs strm msg = some (strm', msg') ∧ Reading strm' rest' ∧
      strm'.size = strm.size ∧ msg'.WellFormed := by
  unfold decodeProxyTs
  by_cases hset : msg.hasFlag proxyTsMsg = true
  · obtain ⟨baseSeq, strm₁, rest₁, hget₁, h₁, hsize₁⟩ := h.getBits_total 8 64
    obtain ⟨minTs, strm₂, rest₂, hget₂, h₂, hsize₂⟩ := h₁.getBits_total 8 64
    obtain ⟨num, strm₃, rest₃, hget₃, h₃, hsize₃⟩ := h₂.getBits_total 1 8
    let samplesNum : BitVec 8 := if num.toNat > maxFeelbackCount then 0 else num
    have hnum : samplesNum.toNat ≤ maxFeelbackCount := by
      by_cases hbig : num.toNat > maxFeelbackCount
      · simp only [samplesNum, if_pos hbig]
        decide
      · simpa only [samplesNum, if_neg hbig] using not_lt.mp hbig
    let msg₁ : FeedbackMsg := { msg with baseSeq, minTs, samplesNum }
    obtain ⟨strm₄, rest₄, samples, hloop, h₄, hsize₄⟩ :=
      @decodeSamples_total strm₃ rest₃ h₃ msg₁ samplesNum.toNat 0 (by omega)
    refine ⟨strm₄, rest₄, { msg₁ with samples }, ?_, h₄,
      hsize₄.trans (hsize₃.trans (hsize₂.trans hsize₁)), fun _ => hnum⟩
    simp only [if_pos hset, machInt64Read, machUint8Read, hget₁, hget₂, hget₃,
      Option.bind_eq_bind, Option.bind_some]
    exact hloop
  · exact ⟨strm, rest, msg, if_neg hset, h, rfl, fun hset' => absurd hset' hset⟩

/-- **Decoding returns, whatever the bytes are**, and the samples it counts fit in
the array. -/
theorem decode_total {strm : BinStream} {rest : List UInt8} (h : Reading strm rest)
    (msg : FeedbackMsg) :
    ∃ strm' rest' msg', decode strm msg = some (strm', msg') ∧ Reading strm' rest' ∧
      strm'.size = strm.size ∧ msg'.WellFormed := by
  obtain ⟨flag, strm₁, rest₁, hget, h₁, hsize₁⟩ := h.getBits_total 1 8
  obtain ⟨strm₂, rest₂, msg₂, hdec₂, h₂, _, hsize₂⟩ := decodeRemb_total h₁ { msg with flag }
  obtain ⟨strm₃, rest₃, msg₃, hdec₃, h₃, _, hsize₃⟩ := decodeLossInfo_total h₂ msg₂
  obtain ⟨strm₄, rest₄, msg₄, hdec₄, h₄, hsize₄, hwf⟩ := decodeProxyTs_total h₃ msg₃
  refine ⟨strm₄, rest₄, msg₄, ?_, h₄, hsize₄.trans (hsize₃.trans (hsize₂.trans hsize₁)), hwf⟩
  simp only [decode, machUint8Read, hget, hdec₂, hdec₃, hdec₄, Option.bind_eq_bind,
    Option.bind_some]

end FeedbackMsg

/-! ## Matching the samples -/

/-- Whether a sequence number is found, as a number. -/
def SenderHistory.found (hist : SenderHistory) (seq : TransportSeq) : Nat :=
  if (hist.get seq).1.isSome then 1 else 0

/-- How many of some sequence numbers are found, one after the other. -/
def SenderHistory.hits (hist : SenderHistory) : List TransportSeq → Nat
  | [] => 0
  | seq :: seqs => hist.found seq + (hist.get seq).2.hits seqs

theorem SenderHistory.hits_le_length (hist : SenderHistory) (seqs : List TransportSeq) :
    hist.hits seqs ≤ seqs.length := by
  induction seqs generalizing hist with
  | nil => rfl
  | cons seq seqs ih =>
      have hrest := ih (hist.get seq).2
      rw [hits, found, List.length_cons]
      split <;> omega

/-- The sequence numbers of the samples from index `i` on. -/
def FeedbackMsg.seqsFrom (msg : FeedbackMsg) (i n : Nat) : List TransportSeq :=
  (msg.samplesFrom i n).map (·.seq.toFin)

namespace FeedbackAdapter

variable {adapter : FeedbackAdapter}

/-- A packet that has been sent has an `rtt`, if `index` stands for a place of
`rtts`. -/
theorem recordRtt_sent {p : PacketFeedback} (hsend : 0 < p.sendTs)
    (h : 0 ≤ adapter.index.tmod feedbackRttWinSize) (nowTs feedbackRtt : Int) :
    ∃ rtts feedbackRtt', adapter.recordRtt nowTs feedbackRtt p
      = some ({ adapter with rtts, index := toSigned 32 (adapter.index + 1) },
        feedbackRtt') := by
  obtain ⟨rtts, hstore⟩ := storeInt_isSome (a := adapter.rtts) h
    (Int.tmod_lt_of_pos adapter.index (show (0 : Int) < feedbackRttWinSize by decide))
    (toSigned 32 (max (nowTs - p.sendTs) feedbackRtt))
  refine ⟨rtts, toSigned 32 (max (nowTs - p.sendTs) feedbackRtt), ?_⟩
  rw [recordRtt, if_pos hsend]
  simp only [hstore, Option.bind_eq_bind, Option.bind_some]

theorem recordRtt_eq (h0 : 0 ≤ adapter.index) (h : adapter.index + 1 < 2 ^ 31)
    (nowTs feedbackRtt : Int) (p : PacketFeedback) :
    ∃ rtts index feedbackRtt',
      adapter.recordRtt nowTs feedbackRtt p = some ({ adapter with rtts, index }, feedbackRtt') ∧
      adapter.index ≤ index ∧ index ≤ adapter.index + 1 := by
  by_cases hsend : p.sendTs > 0
  · obtain ⟨rtts, feedbackRtt', hrecord⟩ :=
      recordRtt_sent hsend (Int.tmod_nonneg feedbackRttWinSize h0) nowTs feedbackRtt
    rw [toSigned_of_bounds (by omega) h] at hrecord
    exact ⟨rtts, _, feedbackRtt', hrecord, by omega, le_refl _⟩
  · exact ⟨adapter.rtts, adapter.index, feedbackRtt, if_neg hsend, le_refl _, by omega⟩

/-- One sample fills at most one place of `packets`. -/
theorem onSample_eq {sample : FeedbackSample} (h0 : 0 ≤ adapter.index)
    (h : adapter.index + adapter.hist.found sample.seq.toFin < 2 ^ 31)
    (hnum : adapter.num < maxFeelbackCount) (nowTs feedbackRtt : Int) :
    ∃ adapter' feedbackRtt',
      adapter.onSample nowTs feedbackRtt sample = some (adapter', feedbackRtt') ∧
      adapter'.hist = (adapter.hist.get sample.seq.toFin).2 ∧
      adapter'.num = adapter.num + adapter.hist.found sample.seq.toFin ∧
      adapter.index ≤ adapter'.index ∧
      adapter'.index ≤ adapter.index + adapter.hist.found sample.seq.toFin := by
  unfold onSample
  unfold SenderHistory.found at h ⊢
  rcases hget : adapter.hist.get sample.seq.toFin with ⟨found, hist⟩
  cases found with
  | none =>
      exact ⟨{ adapter with hist }, feedbackRtt, rfl, rfl, by simp, le_refl _, by simp⟩
  | some p =>
      obtain ⟨packets₁, hstore₁⟩ := store_isSome (a := adapter.packets) hnum p
      let adapter₁ : FeedbackAdapter := { adapter with hist, packets := packets₁ }
      obtain ⟨rtts, index, feedbackRtt', hrecord, hle, hge⟩ :=
        @recordRtt_eq adapter₁ h0 (by simpa [hget] using h) nowTs feedbackRtt p
      obtain ⟨packets₂, hstore₂⟩ := store_isSome (a := packets₁) hnum
        { p with arrivalTs := sample.ts.toInt }
      refine ⟨{ adapter₁ with rtts, index, packets := packets₂, num := adapter.num + 1 },
        feedbackRtt', ?_, rfl, by simp, hle, by simpa using hge⟩
      simp only [hstore₁, Option.bind_eq_bind, Option.bind_some]
      change (adapter₁.recordRtt nowTs feedbackRtt p).bind _ = _
      rw [hrecord, Option.bind_some]
      simp only [adapter₁, hstore₂, Option.bind_some]

/-- A sample whose packet has been sent, while `index` stands for a place of
`rtts`. -/
theorem onSample_sent {sample : FeedbackSample} {p : PacketFeedback} {hist : SenderHistory}
    (hget : adapter.hist.get sample.seq.toFin = (some p, hist)) (hsend : 0 < p.sendTs)
    (h : 0 ≤ adapter.index.tmod feedbackRttWinSize) (hnum : adapter.num < maxFeelbackCount)
    (nowTs feedbackRtt : Int) :
    ∃ adapter' feedbackRtt',
      adapter.onSample nowTs feedbackRtt sample = some (adapter', feedbackRtt') ∧
      adapter'.hist = hist ∧ adapter'.num = adapter.num + 1 ∧
      adapter'.index = toSigned 32 (adapter.index + 1) := by
  obtain ⟨packets₁, hstore₁⟩ := store_isSome (a := adapter.packets) hnum p
  let adapter₁ : FeedbackAdapter := { adapter with hist, packets := packets₁ }
  obtain ⟨rtts, feedbackRtt', hrecord⟩ :=
    @recordRtt_sent adapter₁ p hsend h nowTs feedbackRtt
  obtain ⟨packets₂, hstore₂⟩ := store_isSome (a := packets₁) hnum
    { p with arrivalTs := sample.ts.toInt }
  refine ⟨{ adapter₁ with
    rtts
    index := toSigned 32 (adapter.index + 1)
    packets := packets₂
    num := adapter.num + 1 }, feedbackRtt', ?_, rfl, rfl, rfl⟩
  simp only [onSample, hget, hstore₁, Option.bind_eq_bind, Option.bind_some]
  change (adapter₁.recordRtt nowTs feedbackRtt p).bind _ = _
  rw [hrecord, Option.bind_some]
  simp only [adapter₁, hstore₂, Option.bind_some]

/-- The same while `index` stands for no place of `rtts`. -/
theorem onSample_out {sample : FeedbackSample} {p : PacketFeedback} {hist : SenderHistory}
    (hget : adapter.hist.get sample.seq.toFin = (some p, hist)) (hsend : 0 < p.sendTs)
    (h : adapter.index.tmod feedbackRttWinSize < 0) (nowTs feedbackRtt : Int) :
    adapter.onSample nowTs feedbackRtt sample = none := by
  have hrecord : ∀ packets, recordRtt { adapter with hist, packets } nowTs feedbackRtt p
      = none := by
    intro packets
    simp only [recordRtt, if_pos hsend, storeInt, if_neg (not_le.mpr h), Option.bind_eq_bind,
      Option.bind_none]
  simp only [onSample, hget, hrecord, Option.bind_eq_bind, Option.bind_none,
    Option.bind_fun_none]

/-- **The loop** fills at most one place of `packets` for each sample. -/
theorem samplesLoop_eq {n i : Nat} {msg : FeedbackMsg} (h0 : 0 ≤ adapter.index)
    (h : adapter.index + adapter.hist.hits (msg.seqsFrom i n) < 2 ^ 31)
    (hfit : i + n ≤ maxFeelbackCount) (hnum : adapter.num ≤ i) (nowTs feedbackRtt : Int) :
    ∃ adapter' feedbackRtt',
      samplesLoop nowTs msg n i adapter feedbackRtt = some (adapter', feedbackRtt') ∧
      adapter'.num = adapter.num + adapter.hist.hits (msg.seqsFrom i n) ∧
      adapter'.num ≤ i + n ∧ adapter.index ≤ adapter'.index ∧
      adapter'.index ≤ adapter.index + adapter.hist.hits (msg.seqsFrom i n) := by
  induction n generalizing adapter i feedbackRtt with
  | zero => exact ⟨adapter, feedbackRtt, rfl, rfl, hnum, le_refl _, by simp⟩
  | succ n ih =>
      obtain ⟨sample, hload, hfrom⟩ := msg.samplesFrom_succ (n := n)
        (show i < maxFeelbackCount by omega)
      have hhits : adapter.hist.hits (msg.seqsFrom i (n + 1))
          = adapter.hist.found sample.seq.toFin
            + (adapter.hist.get sample.seq.toFin).2.hits (msg.seqsFrom (i + 1) n) := by
        rw [FeedbackMsg.seqsFrom, hfrom]
        rfl
      rw [hhits] at h ⊢
      obtain ⟨adapter₁, feedbackRtt₁, hsample, hhist, hnum₁, hle₁, hge₁⟩ :=
        onSample_eq h0 (show adapter.index + adapter.hist.found sample.seq.toFin < 2 ^ 31 by
          omega) (show adapter.num < maxFeelbackCount by omega) nowTs feedbackRtt
      have hfound : adapter.hist.found sample.seq.toFin ≤ 1 := by
        unfold SenderHistory.found
        split <;> omega
      rw [← hhist] at h ⊢
      obtain ⟨adapter₂, feedbackRtt₂, hloop, hnum₂, hfill, hle₂, hge₂⟩ :=
        @ih adapter₁ (i + 1) (by omega) (by omega) (by omega) (by omega) feedbackRtt₁
      refine ⟨adapter₂, feedbackRtt₂, ?_, by omega, by omega, by omega, by omega⟩
      simp only [samplesLoop, hload, hsample, Option.bind_eq_bind, Option.bind_some, hloop]

/-- An `rtt` changes nothing else. -/
theorem recordRtt_some {adapter' : FeedbackAdapter} {nowTs feedbackRtt feedbackRtt' : Int}
    {p : PacketFeedback}
    (h : adapter.recordRtt nowTs feedbackRtt p = some (adapter', feedbackRtt')) :
    adapter'.hist = adapter.hist ∧ adapter'.num = adapter.num ∧
      adapter'.packets = adapter.packets := by
  unfold recordRtt at h
  split at h
  · obtain ⟨rtts, _, h⟩ := Option.bind_eq_some_iff.mp h
    obtain ⟨rfl, _⟩ := Prod.mk.inj (Option.some.inj h)
    exact ⟨rfl, rfl, rfl⟩
  · obtain ⟨rfl, _⟩ := Prod.mk.inj (Option.some.inj h)
    exact ⟨rfl, rfl, rfl⟩

/-- A sample that is handled counts if it is found. -/
theorem onSample_some {adapter' : FeedbackAdapter} {nowTs feedbackRtt feedbackRtt' : Int}
    {sample : FeedbackSample}
    (h : adapter.onSample nowTs feedbackRtt sample = some (adapter', feedbackRtt')) :
    adapter'.hist = (adapter.hist.get sample.seq.toFin).2 ∧
      adapter'.num = adapter.num + adapter.hist.found sample.seq.toFin := by
  unfold onSample at h
  unfold SenderHistory.found
  rcases hget : adapter.hist.get sample.seq.toFin with ⟨found, hist⟩
  rw [hget] at h
  cases found with
  | none =>
      obtain ⟨rfl, _⟩ := Prod.mk.inj (Option.some.inj h)
      exact ⟨rfl, rfl⟩
  | some p =>
      obtain ⟨packets, _, h⟩ := Option.bind_eq_some_iff.mp h
      obtain ⟨⟨adapter₁, rtt₁⟩, hrecord, h⟩ := Option.bind_eq_some_iff.mp h
      obtain ⟨packets', _, h⟩ := Option.bind_eq_some_iff.mp h
      obtain ⟨rfl, _⟩ := Prod.mk.inj (Option.some.inj h)
      obtain ⟨hhist, hnum, _⟩ := recordRtt_some hrecord
      exact ⟨hhist, congrArg (· + 1) hnum⟩

/-- The loop counts the samples that are found. -/
theorem samplesLoop_some {n i : Nat} {msg : FeedbackMsg} {adapter' : FeedbackAdapter}
    {nowTs feedbackRtt feedbackRtt' : Int}
    (h : samplesLoop nowTs msg n i adapter feedbackRtt = some (adapter', feedbackRtt')) :
    adapter'.num = adapter.num + adapter.hist.hits (msg.seqsFrom i n) := by
  induction n generalizing adapter i feedbackRtt with
  | zero =>
      obtain ⟨rfl, _⟩ := Prod.mk.inj (Option.some.inj h)
      rfl
  | succ n ih =>
      obtain ⟨sample, hload, h⟩ := Option.bind_eq_some_iff.mp h
      obtain ⟨⟨adapter₁, rtt₁⟩, hsample, h⟩ := Option.bind_eq_some_iff.mp h
      obtain ⟨hhist, hnum⟩ := onSample_some hsample
      have hseqs : msg.seqsFrom i (n + 1) = sample.seq.toFin :: msg.seqsFrom (i + 1) n :=
        congrArg (List.map _) (FeedbackMsg.samplesFrom_of_load hload n)
      rw [ih h, hnum, hhist, hseqs]
      exact Nat.add_assoc _ _ _

theorem minRttLoop_eq (rtts : Vector Int feedbackRttWinSize) {n i : Nat}
    (h : i + n ≤ feedbackRttWinSize) (minFeedbackRtt : Int) :
    ∃ rtt, minRttLoop rtts n i minFeedbackRtt = some rtt := by
  induction n generalizing i minFeedbackRtt with
  | zero => exact ⟨minFeedbackRtt, rfl⟩
  | succ n ih =>
      obtain ⟨rtt, hload⟩ := load_isSome (a := rtts) (show i < feedbackRttWinSize by omega)
      obtain ⟨rtt', hloop⟩ := ih (i := i + 1) (by omega)
        (if minFeedbackRtt > rtt ∧ rtt > 0 then rtt else minFeedbackRtt)
      exact ⟨rtt', by simp only [minRttLoop, hload, Option.bind_eq_bind, Option.bind_some, hloop]⟩

theorem updateMinRtt_eq (adapter : FeedbackAdapter) (feedbackRtt : Int) :
    ∃ minFeedbackRtt,
      adapter.updateMinRtt feedbackRtt = some { adapter with minFeedbackRtt } := by
  unfold updateMinRtt
  by_cases hpos : feedbackRtt > 0
  · obtain ⟨first, hload⟩ := load_isSome (a := adapter.rtts)
      (show 0 < feedbackRttWinSize by decide)
    obtain ⟨rtt, hloop⟩ := minRttLoop_eq adapter.rtts
      (show 1 + (feedbackRttWinSize - 1) ≤ feedbackRttWinSize by decide) first
    refine ⟨rtt, ?_⟩
    simp only [if_pos hpos, hload, hloop, Option.bind_eq_bind, Option.bind_some]
  · exact ⟨adapter.minFeedbackRtt, if_neg hpos⟩

theorem feedbackQsort_eq (hnum : adapter.num ≤ maxFeelbackCount) :
    ∃ packets, adapter.feedbackQsort = some { adapter with packets } := by
  obtain ⟨ps, hload, hlen⟩ := loadAll_eq (a := adapter.packets) hnum
  have hfit : 0 + (ps.mergeSort fun p1 p2 =>
      decide (feedbackPacketComp p1 p2 < 0)).length ≤ maxFeelbackCount := by
    rw [List.length_mergeSort]
    omega
  obtain ⟨packets, hstore, _⟩ := @storeAll_eq _ _ _ adapter.packets 0 hfit
  refine ⟨packets, ?_⟩
  simp only [feedbackQsort, hload, hstore, Option.bind_eq_bind, Option.bind_some]

/-- What comes after the loop. -/
theorem onFeedback_of_loop {adapter' : FeedbackAdapter} {nowTs feedbackRtt : Int}
    {msg : FeedbackMsg} (hnum : adapter'.num ≤ maxFeelbackCount)
    (hloop : samplesLoop nowTs msg msg.samplesNum.toNat 0 { adapter with num := 0 } (-1)
      = some (adapter', feedbackRtt)) :
    ∃ minFeedbackRtt packets,
      adapter.onFeedback nowTs msg = some { adapter' with minFeedbackRtt, packets } := by
  obtain ⟨minFeedbackRtt, hmin⟩ := adapter'.updateMinRtt_eq feedbackRtt
  obtain ⟨packets, hsort⟩ :=
    @feedbackQsort_eq { adapter' with minFeedbackRtt } hnum
  refine ⟨minFeedbackRtt, packets, ?_⟩
  simp only [onFeedback, hloop, hmin, hsort, Option.bind_eq_bind, Option.bind_some]

/-- **A feedback** is handled without leaving an array. -/
theorem onFeedback_eq {msg : FeedbackMsg} (h0 : 0 ≤ adapter.index)
    (h : adapter.index + adapter.hist.hits (msg.seqsFrom 0 msg.samplesNum.toNat) < 2 ^ 31)
    (hfit : msg.samplesNum.toNat ≤ maxFeelbackCount) (nowTs : Int) :
    ∃ adapter', adapter.onFeedback nowTs msg = some adapter' ∧
      adapter'.num ≤ msg.samplesNum.toNat ∧ adapter.index ≤ adapter'.index ∧
      adapter'.index ≤ adapter.index
        + adapter.hist.hits (msg.seqsFrom 0 msg.samplesNum.toNat) := by
  obtain ⟨adapter', feedbackRtt, hloop, hnum, hfill, hle, hge⟩ :=
    @samplesLoop_eq { adapter with num := 0 } msg.samplesNum.toNat 0 msg h0 h (by omega)
      (le_refl 0) nowTs (-1)
  rw [Nat.zero_add] at hfill
  obtain ⟨minFeedbackRtt, packets, hon⟩ := onFeedback_of_loop (hfill.trans hfit) hloop
  exact ⟨_, hon, hfill, hle, hge⟩

/-- A feedback that is handled ends with the number of the samples it found. -/
theorem num_of_onFeedback {adapter' : FeedbackAdapter} {msg : FeedbackMsg} {nowTs : Int}
    (h : adapter.onFeedback nowTs msg = some adapter') :
    adapter'.num = adapter.hist.hits (msg.seqsFrom 0 msg.samplesNum.toNat) := by
  obtain ⟨⟨adapter₁, feedbackRtt⟩, hloop, h⟩ := Option.bind_eq_some_iff.mp h
  obtain ⟨adapter₂, hmin, h⟩ := Option.bind_eq_some_iff.mp h
  obtain ⟨ps, _, h⟩ := Option.bind_eq_some_iff.mp h
  obtain ⟨packets, _, h⟩ := Option.bind_eq_some_iff.mp h
  obtain rfl := Option.some.inj h
  obtain ⟨minFeedbackRtt, hmin'⟩ := adapter₁.updateMinRtt_eq feedbackRtt
  obtain rfl := Option.some.inj (hmin'.symm.trans hmin)
  exact (samplesLoop_some hloop).trans (Nat.zero_add _)

end FeedbackAdapter

/-! ## One feedback -/

namespace SenderCc

/-- The stream of the sender holds exactly the bytes supplied. -/
theorem readFeedback_eq (cc : SenderCc) (hsize : 0 < cc.strm.size) (feedback : List UInt8)
    (msg : FeedbackMsg) :
    ∃ strm, cc.readFeedback feedback msg = decode strm msg ∧ Reading strm feedback ∧
      0 < strm.size := by
  obtain ⟨size, wptr, rptr, hresize, hfit, hle, _⟩ := cc.strm.resize_eq hsize feedback.length
  refine ⟨⟨StructMemory.writeBytes cc.strm.data 0 feedback, size, 0, 0, 0, feedback.length⟩,
    ?_, ⟨rfl, Nat.zero_add _, hfit, StructMemory.bytesAt_writeBytes _ 0 feedback⟩,
    Nat.lt_of_lt_of_le hsize hle⟩
  have hcopy : ({ cc.strm with size, wptr, rptr }.rewind 1).copyIn feedback
      = some ⟨StructMemory.writeBytes cc.strm.data 0 feedback, size, 0, 0, 0, 0⟩ :=
    if_pos hfit
  simp only [readFeedback, hresize, hcopy, Option.bind_eq_bind, Option.bind_some]

/-- How many samples of a feedback are found. -/
def matched (cc : SenderCc) (feedback : List UInt8) (msg : FeedbackMsg) : Nat :=
  if feedback.length > kMaxFeedbackSize then 0
  else match cc.readFeedback feedback msg with
    | none => 0
    | some (_, msg) =>
        if msg.hasFlag proxyTsMsg then
          cc.adapter.hist.hits (msg.seqsFrom 0 msg.samplesNum.toNat)
        else 0

/-- A feedback finds no more samples than it can have. -/
theorem matched_lt (cc : SenderCc) (feedback : List UInt8) (msg : FeedbackMsg) :
    cc.matched feedback msg < 2 ^ 8 := by
  unfold matched
  split
  · decide
  · split
    · decide
    · rename_i msg' _
      split
      · refine (SenderHistory.hits_le_length _ _).trans_lt ?_
        rw [FeedbackMsg.seqsFrom, List.length_map, FeedbackMsg.samplesFrom]
        refine (List.length_filterMap_le _ _).trans_lt ?_
        rw [List.length_range']
        exact msg'.samplesNum.isLt
      · decide

/-- What holds after every run. -/
structure Inv (cc : SenderCc) (matched : Nat) : Prop where
  size : 0 < cc.strm.size
  index_nonneg : 0 ≤ cc.adapter.index
  index_le : cc.adapter.index ≤ matched
  num_le : cc.adapter.num ≤ maxFeelbackCount

variable {cc : SenderCc} {n : Nat}

/-- **Any bytes are handled without leaving an array.** -/
theorem Inv.onFeedback (h : Inv cc n) {feedback : List UInt8}
    (hlen : feedback.length ≤ kMaxFeedbackSize) {msg : FeedbackMsg}
    (hmatched : n + cc.matched feedback msg < 2 ^ 31) (nowTs : Int) :
    ∃ strm msg' cc', cc.readFeedback feedback msg = some (strm, msg') ∧
      (msg'.hasFlag proxyTsMsg = true → msg'.samplesNum.toNat ≤ maxFeelbackCount ∧
        cc'.adapter.num ≤ msg'.samplesNum.toNat) ∧
      cc.onFeedback nowTs feedback msg = some cc' ∧ Inv cc' (n + cc.matched feedback msg) := by
  obtain ⟨strm₀, hread, hreading, hpos⟩ := cc.readFeedback_eq h.size feedback msg
  obtain ⟨strm, _, msg', hdec, _, hsize, hwf⟩ := decode_total hreading msg
  rw [hdec] at hread
  have hpos' : 0 < strm.size := by rw [hsize]; exact hpos
  have h0 := h.index_nonneg
  have hle := h.index_le
  unfold matched at hmatched ⊢
  rw [if_neg (not_lt.mpr hlen), hread] at hmatched ⊢
  unfold SenderCc.onFeedback onProxyPart
  rw [if_neg (not_lt.mpr hlen), hread]
  simp only [Option.bind_eq_bind, Option.bind_some] at hmatched ⊢
  by_cases hset : msg'.hasFlag proxyTsMsg = true
  · simp only [if_pos hset] at hmatched ⊢
    obtain ⟨adapter, hon, hfill, hge, hup⟩ :=
      @FeedbackAdapter.onFeedback_eq cc.adapter msg' h0 (by omega) (hwf hset) nowTs
    refine ⟨strm, msg', ⟨adapter, strm⟩, rfl, fun _ => ⟨hwf hset, hfill⟩, ?_, hpos', ?_, ?_, ?_⟩
    · simp only [hon, Option.bind_some]
    · show 0 ≤ adapter.index
      omega
    · show adapter.index ≤ _
      push_cast
      omega
    · exact hfill.trans (hwf hset)
  · simp only [if_neg hset] at hmatched ⊢
    exact ⟨strm, msg', ⟨cc.adapter, strm⟩, rfl, fun hset' => absurd hset' hset, rfl,
      hpos', h0, hle, h.num_le⟩

end SenderCc

/-! ## Runs of the sender -/

/-- The sender, and how many samples have been matched. -/
structure SenderRun where
  cc : SenderCc
  matched : Nat

inductive SenderOp where
  | onSendPacket (sendTs nowTs : Int) (seq : TransportSeq) (size : Nat)
  | onFeedback (nowTs : Int) (feedback : List UInt8) (msg : FeedbackMsg)

namespace SenderRun

def create (data : StructMemory.Mem) : SenderRun := ⟨.create data, 0⟩

def Step (c : SenderRun) : SenderOp → SenderRun → Prop
  | .onSendPacket sendTs nowTs seq size, c' =>
      c' = { c with cc := c.cc.onSendPacket sendTs nowTs seq size }
  | .onFeedback nowTs feedback msg, c' =>
      ∃ cc, c.cc.onFeedback nowTs feedback msg = some cc ∧
        c' = { cc, matched := c.matched + c.cc.matched feedback msg }

variable {data : StructMemory.Mem} {ops : List SenderOp} {c c' : SenderRun}

theorem create_inv (data : StructMemory.Mem) :
    SenderCc.Inv (create data).cc (create data).matched :=
  ⟨Nat.succ_pos _, le_refl 0, le_refl 0, Nat.zero_le _⟩

/-- The count only grows, so a run that ends below the limit stays below it. -/
theorem matched_le_of_step {op : SenderOp} (hstep : Step c op c') :
    c.matched ≤ c'.matched := by
  cases op with
  | onSendPacket sendTs nowTs seq size =>
      obtain rfl := hstep
      exact le_refl _
  | onFeedback nowTs feedback msg =>
      obtain ⟨cc, _, rfl⟩ := hstep
      exact Nat.le_add_right _ _

theorem inv_step (h : SenderCc.Inv c.cc c.matched) {op : SenderOp} (hstep : Step c op c')
    (hmatched : c'.matched < 2 ^ 31) : SenderCc.Inv c'.cc c'.matched := by
  cases op with
  | onSendPacket sendTs nowTs seq size =>
      obtain rfl := hstep
      exact ⟨h.size, h.index_nonneg, h.index_le, h.num_le⟩
  | onFeedback nowTs feedback msg =>
      obtain ⟨cc, hon, rfl⟩ := hstep
      by_cases hlen : feedback.length ≤ kMaxFeedbackSize
      · obtain ⟨_, _, cc', _, _, hon', hinv⟩ := h.onFeedback hlen hmatched nowTs
        obtain rfl := Option.some.inj (hon.symm.trans hon')
        exact hinv
      · have hsame : c.cc.onFeedback nowTs feedback msg = some c.cc := if_pos (not_le.mp hlen)
        obtain rfl := Option.some.inj (hsame.symm.trans hon)
        have hnone : c.cc.matched feedback msg = 0 := if_pos (not_le.mp hlen)
        rw [hnone, Nat.add_zero]
        exact h

theorem inv_of_run (hrun : Run Step (create data) ops c) (hmatched : c.matched < 2 ^ 31) :
    SenderCc.Inv c.cc c.matched := by
  induction hrun with
  | nil => exact create_inv data
  | snoc _ hs ih => exact inv_step (ih ((matched_le_of_step hs).trans_lt hmatched)) hs hmatched

/-- **No feedback leaves the arrays.** In every state of a run, and for any bytes
that are not too many: if fewer than `2 ^ 31` samples have been matched, those
of this feedback included, every access is inside its array. -/
theorem feedback_inBounds_of_run (hrun : Run Step (create data) ops c)
    {feedback : List UInt8} (hlen : feedback.length ≤ kMaxFeedbackSize) {msg : FeedbackMsg}
    (hmatched : c.matched + c.cc.matched feedback msg < 2 ^ 31) (nowTs : Int) :
    ∃ strm msg' cc', c.cc.readFeedback feedback msg = some (strm, msg') ∧
      (msg'.hasFlag proxyTsMsg = true → msg'.samplesNum.toNat ≤ maxFeelbackCount ∧
        cc'.adapter.num ≤ msg'.samplesNum.toNat) ∧
      c.cc.onFeedback nowTs feedback msg = some cc' ∧
      cc'.adapter.num ≤ maxFeelbackCount := by
  have hinv := inv_of_run hrun ((Nat.le_add_right _ _).trans_lt hmatched)
  obtain ⟨strm, msg', cc', hread, hsamples, hon, hinv'⟩ := hinv.onFeedback hlen hmatched nowTs
  exact ⟨strm, msg', cc', hread, hsamples, hon, hinv'.num_le⟩

/-- `Step`, computed. -/
def step? (c : SenderRun) : SenderOp → Option SenderRun
  | .onSendPacket sendTs nowTs seq size =>
      some { c with cc := c.cc.onSendPacket sendTs nowTs seq size }
  | .onFeedback nowTs feedback msg => (c.cc.onFeedback nowTs feedback msg).map fun cc =>
      { cc, matched := c.matched + c.cc.matched feedback msg }

theorem step_of_step? {op : SenderOp} (h : c.step? op = some c') : Step c op c' := by
  cases op with
  | onSendPacket sendTs nowTs seq size => exact (Option.some.inj h).symm
  | onFeedback nowTs feedback msg =>
      obtain ⟨cc, hon, rfl⟩ := Option.map_eq_some_iff.mp h
      exact ⟨cc, hon, rfl⟩

/-- A message that nothing has been read into. -/
def unread : FeedbackMsg := ⟨0, 0, 0, 0, 0, 0, 255, .replicate _ ⟨0, 0⟩⟩

/-- Four packets around the wrap. -/
def fourSent : List SenderOp :=
  [.onSendPacket 1 1 (65535#16).toFin 1000, .onSendPacket 5 5 (0#16).toFin 1000,
    .onSendPacket 9 9 (1#16).toFin 1000, .onSendPacket 13 13 (2#16).toFin 1000]

/-- The feedback about the first two of them. -/
def twoReceived : List UInt8 :=
  [4] ++ .replicate 16 0 ++ [2, 255, 255, 0, 7, 0, 0, 0, 11]

/-- The feedback about the other two, one of them twice, and about one that has not been
sent. -/
def restReceived : List UInt8 :=
  [4] ++ .replicate 16 0 ++ [4, 0, 1, 0, 15, 0, 2, 0, 19, 0, 1, 0, 15, 0, 7, 0, 23]

/-- Both are handled one after the other. -/
theorem feedback_inBounds_of_run_fourSent : ∃ c strm msg' cc',
    Run Step (create fun _ => 0) (fourSent ++ [.onFeedback 20 twoReceived unread]) c ∧
    c.matched = 2 ∧
    c.cc.readFeedback restReceived unread = some (strm, msg') ∧
    (msg'.hasFlag proxyTsMsg = true → msg'.samplesNum.toNat ≤ maxFeelbackCount ∧
      cc'.adapter.num ≤ msg'.samplesNum.toNat) ∧
    c.cc.onFeedback 30 restReceived unread = some cc' ∧
    cc'.adapter.num ≤ maxFeelbackCount := by
  have hlast : (fourSent.foldlM step? (create fun _ => 0)).map (fun c =>
      (c.matched, c.cc.matched twoReceived unread)) = some (0, 2) := by
    decide
  obtain ⟨c, hc, hview⟩ := Option.map_eq_some_iff.mp hlast
  obtain ⟨hnone, htwo⟩ := Prod.mk.inj hview
  have hsent := (Run.of_foldlM hc).mono fun _ _ _ => step_of_step?
  obtain ⟨_, _, cc, _, _, hon, _⟩ := feedback_inBounds_of_run hsent
    (show twoReceived.length ≤ kMaxFeedbackSize by decide) (by rw [hnone, htwo]; decide) 20
  have hrun := hsent.snoc (show Step c (.onFeedback 20 twoReceived unread) _ from ⟨cc, hon, rfl⟩)
  have hmatched : c.matched + c.cc.matched twoReceived unread = 2 := by
    rw [hnone, htwo]
  -- what the second feedback finds depends on the first one, but it is not much
  have hfew : c.matched + c.cc.matched twoReceived unread + cc.matched restReceived unread
      < 2 ^ 31 := by
    have := cc.matched_lt restReceived unread
    omega
  obtain ⟨strm, msg', cc', hfacts⟩ := feedback_inBounds_of_run hrun
    (show restReceived.length ≤ kMaxFeedbackSize by decide) hfew 30
  exact ⟨_, strm, msg', cc', hrun, hmatched, hfacts⟩

/-! ## The counter wraps around -/

/-- A packet sent at 1 ms. -/
def sentPacket (seq : TransportSeq) : PacketFeedback := ⟨1, -1, 1, seq, 0⟩

/-- A feedback about the packets `0`, `1`, ... -/
def firstPackets (samplesNum : BitVec 8) : FeedbackMsg :=
  ⟨proxyTsMsg, 0, 0, 0, 0, 0, samplesNum, .ofFn fun i => ⟨BitVec.ofNat 16 i, 0⟩⟩

theorem load_firstPackets (samplesNum : BitVec 8) {i : Nat} (h : i < maxFeelbackCount) :
    load (firstPackets samplesNum).samples i = some ⟨BitVec.ofNat 16 i, 0⟩ := by
  rw [load, firstPackets, Vector.getElem?_ofFn, dif_pos h]

/-- The feedback is decoded as it was written. -/
theorem readFeedback_firstPackets (cc : SenderCc) (hsize : 0 < cc.strm.size)
    {samplesNum : BitVec 8} (hnum : samplesNum.toNat ≤ maxFeelbackCount) (msg : FeedbackMsg) :
    ∃ strm msg', cc.readFeedback (firstPackets samplesNum).wire msg = some (strm, msg') ∧
      0 < strm.size ∧ msg'.hasFlag proxyTsMsg = true ∧ msg'.samplesNum = samplesNum ∧
      ∀ i, i < samplesNum.toNat → load msg'.samples i = some ⟨BitVec.ofNat 16 i, 0⟩ := by
  obtain ⟨strm₀, hread, hreading, hpos⟩ :=
    cc.readFeedback_eq hsize (firstPackets samplesNum).wire msg
  have hwf : (firstPackets samplesNum).WellFormed := fun _ => hnum
  have hset : (firstPackets samplesNum).hasFlag proxyTsMsg = true := by
    show (proxyTsMsg &&& proxyTsMsg == proxyTsMsg) = true
    decide
  obtain ⟨strm, msg', hdec, hflag, _, _, hproxy⟩ := decode_eq hwf hreading msg
  obtain ⟨strm', _, _, hdec', _, hsize', _⟩ := decode_total hreading msg
  obtain ⟨rfl, rfl⟩ := Prod.mk.inj (Option.some.inj (hdec.symm.trans hdec'))
  obtain ⟨_, _, hsamplesNum, hsamples⟩ := hproxy hset
  refine ⟨strm, msg', hread.trans hdec, hsize' ▸ hpos, ?_, hsamplesNum, fun i hi => ?_⟩
  · rw [hasFlag, hflag]
    exact hset
  · have hsame : reread (firstPackets samplesNum).minTs ⟨BitVec.ofNat 16 i, 0⟩
        = ⟨BitVec.ofNat 16 i, 0⟩ :=
      (reread_eq_iff _ _).mpr (show ((0 : BitVec 64) - 0).toNat < 2 ^ 16 by decide)
    rw [hsamples i hi, load_firstPackets samplesNum (hi.trans_le hnum), Option.map_some, hsame]

/-- Nothing is in the history, and `index` counts the matched samples. -/
structure Idle (c : SenderRun) (n : Nat) : Prop where
  matched : c.matched = n
  index : c.cc.adapter.index = n
  hist : c.cc.adapter.hist = .create kHistoryCacheMs
  size : 0 < c.cc.strm.size

/-- One packet, and the feedback about it. -/
theorem Idle.turn {n : Nat} (h : Idle c n) (hn : n + 1 < 2 ^ 31) :
    ∃ c₁ c', Step c (.onSendPacket 1 1 0 0) c₁ ∧
      Step c₁ (.onFeedback 1 (firstPackets 1).wire (firstPackets 0)) c' ∧
      Idle c' (n + 1) := by
  obtain ⟨strm, msg', hread, hsize, hset, hnum, hload⟩ :=
    readFeedback_firstPackets (c.cc.onSendPacket 1 1 0 0) h.size
      (show (1 : BitVec 8).toNat ≤ maxFeelbackCount by decide) (firstPackets 0)
  let adapter := (c.cc.onSendPacket 1 1 0 0).adapter
  have hget : adapter.hist.get 0 = (some (sentPacket 0), .create kHistoryCacheMs) := by
    show (c.cc.adapter.hist.add 1 (sentPacket 0)).get 0 = _
    rw [h.hist]
    rfl
  have hindex : adapter.index = n := h.index
  have hmod : 0 ≤ adapter.index.tmod feedbackRttWinSize :=
    Int.tmod_nonneg feedbackRttWinSize (by omega)
  obtain ⟨adapter', feedbackRtt, hsample, hhist, hnum', hindex'⟩ :=
    @FeedbackAdapter.onSample_sent { adapter with num := 0 } ⟨BitVec.ofNat 16 0, 0⟩
      (sentPacket 0) _ hget (by decide) hmod (show 0 < maxFeelbackCount by decide) 1 (-1)
  have hloop : FeedbackAdapter.samplesLoop 1 msg' msg'.samplesNum.toNat 0
      { adapter with num := 0 } (-1) = some (adapter', feedbackRtt) := by
    rw [hnum]
    show FeedbackAdapter.samplesLoop 1 msg' 1 0 _ _ = _
    simp only [FeedbackAdapter.samplesLoop, hload 0 (by decide), hsample,
      Option.bind_eq_bind, Option.bind_some]
  obtain ⟨minFeedbackRtt, packets, hon⟩ :=
    FeedbackAdapter.onFeedback_of_loop
      (hnum'.trans_le (show 0 + 1 ≤ maxFeelbackCount by decide)) hloop
  have hlen : ¬ (firstPackets 1).wire.length > kMaxFeedbackSize :=
    not_lt.mpr ((length_wire_le fun _ => by decide).trans (by decide))
  let cc' : SenderCc := ⟨{ adapter' with minFeedbackRtt, packets }, strm⟩
  refine ⟨{ c with cc := c.cc.onSendPacket 1 1 0 0 }, ⟨cc', c.matched + 1⟩, rfl,
    ⟨cc', ?_, ?_⟩, ?_⟩
  · simp only [SenderCc.onFeedback, if_neg hlen, hread, SenderCc.onProxyPart, if_pos hset,
      Option.bind_eq_bind, Option.bind_some]
    rw [hon, Option.bind_some]
  · have hseqs : msg'.seqsFrom 0 msg'.samplesNum.toNat = [0] := by
      rw [hnum]
      show (([0] : List Nat).filterMap (load msg'.samples)).map _ = _
      rw [List.filterMap_cons_some (hload 0 (by decide))]
      rfl
    have hmatched : SenderCc.matched (c.cc.onSendPacket 1 1 0 0) (firstPackets 1).wire
        (firstPackets 0) = 1 := by
      simp only [SenderCc.matched, if_neg hlen, hread, if_pos hset, hseqs,
        SenderHistory.hits, SenderHistory.found]
      rw [hget]
      rfl
    rw [hmatched]
  · refine ⟨by rw [h.matched], ?_, hhist, hsize⟩
    show adapter'.index = _
    rw [hindex', hindex, toSigned_of_bounds (by omega) (by omega)]
    push_cast
    rfl

theorem exists_idle (data : StructMemory.Mem) {n : Nat} (hn : n < 2 ^ 31) :
    ∃ ops c, Run Step (create data) ops c ∧ Idle c n := by
  induction n with
  | zero => exact ⟨[], create data, .nil, rfl, rfl, rfl, Nat.succ_pos _⟩
  | succ n ih =>
      obtain ⟨ops, c, hrun, hidle⟩ := ih (by omega)
      obtain ⟨c₁, c', hsend, hfeedback, hidle'⟩ := hidle.turn hn
      exact ⟨_, c', .snoc (.snoc hrun hsend) hfeedback, hidle'⟩

/-- The state after one more packet. -/
def sendOne (c : SenderRun) (seq : TransportSeq) : SenderRun :=
  { c with cc := c.cc.onSendPacket 1 1 seq 0 }

/-- **The third of three samples** is written in front of `rtts`. -/
theorem Idle.out (h : Idle c (2 ^ 31 - 1)) :
    (((c.sendOne 0).sendOne 1).sendOne 2).cc.onFeedback 1 (firstPackets 3).wire
      (firstPackets 0) = none := by
  obtain ⟨strm, msg', hread, _, hset, hnum, hload⟩ :=
    readFeedback_firstPackets (((c.sendOne 0).sendOne 1).sendOne 2).cc h.size
      (show (3 : BitVec 8).toNat ≤ maxFeelbackCount by decide) (firstPackets 0)
  let adapter : FeedbackAdapter :=
    { (((c.sendOne 0).sendOne 1).sendOne 2).cc.adapter with num := 0 }
  let hist := (((SenderHistory.create kHistoryCacheMs).add 1 (sentPacket 0)).add 1
    (sentPacket 1)).add 1 (sentPacket 2)
  have hhist : adapter.hist = hist := by
    show ((c.cc.adapter.hist.add 1 (sentPacket 0)).add 1 (sentPacket 1)).add 1 (sentPacket 2) = _
    rw [h.hist]
  have hindex : adapter.index = 2 ^ 31 - 1 := h.index
  obtain ⟨adapter₁, feedbackRtt₁, hsample₁, hhist₁, hnum₁, hindex₁⟩ :=
    @FeedbackAdapter.onSample_sent adapter ⟨BitVec.ofNat 16 0, 0⟩ (sentPacket 0)
      (hist.get 0).2 (by rw [hhist]; rfl) (by decide) (by rw [hindex]; decide)
      (show 0 < maxFeelbackCount by decide) 1 (-1)
  rw [hindex] at hindex₁
  obtain ⟨adapter₂, feedbackRtt₂, hsample₂, hhist₂, hnum₂, hindex₂⟩ :=
    @FeedbackAdapter.onSample_sent adapter₁ ⟨BitVec.ofNat 16 1, 0⟩ (sentPacket 1)
      ((hist.get 0).2.get 1).2 (by rw [hhist₁]; rfl) (by decide) (by rw [hindex₁]; decide)
      (hnum₁.trans_lt (show 0 + 1 < maxFeelbackCount by decide)) 1 feedbackRtt₁
  rw [hindex₁] at hindex₂
  have hsample₃ := @FeedbackAdapter.onSample_out adapter₂ ⟨BitVec.ofNat 16 2, 0⟩
    (sentPacket 2) (((hist.get 0).2.get 1).2.get 2).2 (by rw [hhist₂]; rfl) (by decide)
    (by rw [hindex₂]; decide) 1 feedbackRtt₂
  have hlen : ¬ (firstPackets 3).wire.length > kMaxFeedbackSize :=
    not_lt.mpr ((length_wire_le fun _ => by decide).trans (by decide))
  have hloop : FeedbackAdapter.samplesLoop 1 msg' msg'.samplesNum.toNat 0 adapter (-1)
      = none := by
    rw [hnum]
    show FeedbackAdapter.samplesLoop 1 msg' 3 0 _ _ = _
    simp only [FeedbackAdapter.samplesLoop, hload 0 (by decide), hload 1 (by decide),
      hload 2 (by decide), hsample₁, hsample₂, hsample₃, Option.bind_eq_bind,
      Option.bind_some, Option.bind_none]
  have hon : (((c.sendOne 0).sendOne 1).sendOne 2).cc.adapter.onFeedback 1 msg' = none := by
    rw [FeedbackAdapter.onFeedback, hloop]
    rfl
  simp only [SenderCc.onFeedback, if_neg hlen, hread, SenderCc.onProxyPart, if_pos hset, hon,
    Option.bind_eq_bind, Option.bind_some, Option.bind_none]

/-- After `2 ^ 31 - 1` matched samples, the next feedback may write in front of
`rtts`. -/
theorem index_wraps : ∃ ops c, Run Step (create fun _ => 0) ops c ∧ c.matched < 2 ^ 31 ∧
    (firstPackets 3).wire.length ≤ kMaxFeedbackSize ∧
    c.cc.onFeedback 1 (firstPackets 3).wire (firstPackets 0) = none := by
  obtain ⟨ops, c, hrun, hidle⟩ := exists_idle (fun _ => 0) (show 2 ^ 31 - 1 < 2 ^ 31 by decide)
  have hrun' : Run Step (create fun _ => 0)
      (ops ++ [.onSendPacket 1 1 0 0] ++ [.onSendPacket 1 1 1 0] ++ [.onSendPacket 1 1 2 0])
      (((c.sendOne 0).sendOne 1).sendOne 2) := .snoc (.snoc (.snoc hrun rfl) rfl) rfl
  refine ⟨_, _, hrun', ?_, ?_, hidle.out⟩
  · show c.matched < _
    rw [hidle.matched]
    decide
  · exact (length_wire_le fun _ => by decide).trans (by decide)

end SenderRun

end Razor
