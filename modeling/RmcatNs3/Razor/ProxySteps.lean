import RmcatNs3.Razor.EstimatorProxy

/-!
# What the estimator proxy does

One lemma for each loop and function of the proxy. An arrival is ignored, or
recorded after a cull; a feedback reports the first entries of the window, at
most 128 of them, and moves the window behind them.
-/

namespace Razor

namespace EstimatorProxy

variable {proxy : EstimatorProxy}

/-! ## The window -/

/-- The entries that have not been reported. -/
def pending (proxy : EstimatorProxy) : List (Int × Int) :=
  proxy.arrivalTimes.toList.filter fun b => decide (proxy.wndStartSeq ≤ b.1)

/-- The entries that the next feedback reports. -/
def reportable (proxy : EstimatorProxy) : List (Int × Int) :=
  proxy.pending.take maxFeelbackCount

theorem mem_pending {b : Int × Int} :
    b ∈ proxy.pending ↔ b ∈ proxy.arrivalTimes ∧ proxy.wndStartSeq ≤ b.1 := by
  simp [pending, SortedMap.mem_def]

theorem pending_sorted (proxy : EstimatorProxy) :
    proxy.pending.Pairwise fun a b => a.1 < b.1 :=
  proxy.arrivalTimes.sorted.filter _

theorem mem_reportable {b : Int × Int} (h : b ∈ proxy.reportable) :
    b ∈ proxy.arrivalTimes ∧ proxy.wndStartSeq ≤ b.1 :=
  mem_pending.mp (List.mem_of_mem_take h)

/-- The start of the window behind some entries. -/
def startBehind (newStartSeq : Int) (entries : List (Int × Int)) : Int :=
  entries.foldl (fun _ b => b.1 + 1) newStartSeq

theorem startBehind_concat (n : Int) (entries : List (Int × Int)) (b : Int × Int) :
    startBehind n (entries ++ [b]) = b.1 + 1 := by
  simp [startBehind]

/-- The start of the next window is one past the last entry reported. -/
theorem startBehind_eq {n : Int} {entries : List (Int × Int)} (hne : entries ≠ []) :
    ∃ b ∈ entries, startBehind n entries = b.1 + 1 := by
  obtain ⟨init, b, rfl⟩ := List.eq_nil_or_concat' entries |>.resolve_left hne
  exact ⟨b, by simp, startBehind_concat n init b⟩

/-- Every reported entry lies below the next window. -/
theorem lt_startBehind {n : Int} {entries : List (Int × Int)}
    (hs : entries.Pairwise fun a b => a.1 < b.1) {b : Int × Int} (hb : b ∈ entries) :
    b.1 < startBehind n entries := by
  obtain ⟨init, c, rfl⟩ :=
    List.eq_nil_or_concat' entries |>.resolve_left (List.ne_nil_of_mem hb)
  rw [startBehind_concat]
  rcases List.mem_append.mp hb with hb | hb
  · have hlt := (List.pairwise_append.mp hs).2.2 b hb c List.mem_cons_self
    omega
  · obtain rfl := List.mem_singleton.mp hb
    omega

/-! ## The cull -/

/-- What the cull may take. -/
def Due (sequence arrivalTs : Int) (b : Int × Int) : Prop :=
  b.1 < sequence ∧ arrivalTs ≥ b.2 + backWindowsMs

instance (sequence arrivalTs : Int) (b : Int × Int) : Decidable (Due sequence arrivalTs b) :=
  inferInstanceAs (Decidable (_ ∧ _))

theorem collectIds_eq (sequence arrivalTs : Int) (bindings : List (Int × Int)) :
    collectIds sequence arrivalTs bindings
      = ((bindings.filter fun b => decide (Due sequence arrivalTs b)).take maxIdsNum).map
        (·.1) := by
  suffices h : ∀ ids : List Int,
      bindings.foldl (fun ids b =>
        if b.1 < sequence ∧ arrivalTs ≥ b.2 + backWindowsMs ∧ ids.length < maxIdsNum then
          ids ++ [b.1]
        else ids) ids
      = ids ++ ((bindings.filter fun b => decide (Due sequence arrivalTs b)).take
        (maxIdsNum - ids.length)).map (·.1) by
    exact (h []).trans (by simp)
  induction bindings with
  | nil => simp
  | cons b rest ih =>
      intro ids
      rw [List.foldl_cons]
      by_cases hdue : Due sequence arrivalTs b
      · rw [List.filter_cons_of_pos (by simpa using hdue)]
        by_cases hlen : ids.length < maxIdsNum
        · rw [if_pos ⟨hdue.1, hdue.2, hlen⟩, ih, List.length_append,
            List.length_singleton, List.append_assoc,
            show maxIdsNum - ids.length = maxIdsNum - (ids.length + 1) + 1 by omega,
            List.take_succ_cons, List.map_cons]
          rfl
        · rw [if_neg fun h => hlen h.2.2, ih, Nat.sub_eq_zero_of_le (Nat.le_of_not_lt hlen)]
          simp
      · rw [if_neg fun h => hdue ⟨h.1, h.2.1⟩, ih,
          List.filter_cons_of_neg (by simpa using hdue)]

/-- The entries that an arrival takes out. -/
def culled (proxy : EstimatorProxy) (sequence arrivalTs : Int) : List (Int × Int) :=
  if proxy.maxArrivalSeq ≤ proxy.wndStartSeq then
    (proxy.arrivalTimes.toList.filter fun b => decide (Due sequence arrivalTs b)).take
      maxIdsNum
  else []

/-- An entry is taken out if it is due, and fewer than 100 due entries are
below it. -/
theorem mem_culled {sequence arrivalTs : Int} {b : Int × Int} :
    b ∈ proxy.culled sequence arrivalTs ↔
      proxy.maxArrivalSeq ≤ proxy.wndStartSeq ∧ b ∈ proxy.arrivalTimes ∧
      Due sequence arrivalTs b ∧
      (proxy.arrivalTimes.toList.filter fun a =>
        decide (a.1 < b.1 ∧ Due sequence arrivalTs a)).length < maxIdsNum := by
  unfold culled
  split
  · rename_i hle
    rw [SortedMap.mem_take_iff (proxy.arrivalTimes.sorted.filter _), List.mem_filter,
      List.filter_filter, ← SortedMap.mem_def]
    simp [hle, and_assoc]
  · rename_i hle
    simp [hle]

/-- The entries that stay. -/
def kept (proxy : EstimatorProxy) (sequence arrivalTs : Int) : SortedMap Int Int :=
  ((proxy.culled sequence arrivalTs).map (·.1)).foldl SortedMap.erase proxy.arrivalTimes

theorem kept_eq (proxy : EstimatorProxy) (sequence arrivalTs : Int) :
    (if proxy.maxArrivalSeq ≤ proxy.wndStartSeq then
      (collectIds sequence arrivalTs proxy.arrivalTimes.toList).foldl SortedMap.erase
        proxy.arrivalTimes
    else proxy.arrivalTimes) = proxy.kept sequence arrivalTs := by
  unfold kept culled
  split
  · rw [collectIds_eq]
  · rfl

theorem mem_kept {sequence arrivalTs : Int} {b : Int × Int} :
    b ∈ proxy.kept sequence arrivalTs ↔
      b ∈ proxy.arrivalTimes ∧ b ∉ proxy.culled sequence arrivalTs := by
  rw [kept, SortedMap.mem_foldl_erase]
  refine and_congr_right fun hb => not_congr ?_
  constructor
  · intro hmem
    obtain ⟨c, hc, heq⟩ := List.mem_map.mp hmem
    rwa [← SortedMap.eq_of_mem (mem_culled.mp hc).2.1 hb heq]
  · exact fun hmem => List.mem_map_of_mem hmem

/-! ## Arrivals -/

/-- The unwrapped sequence number of the next arrival. -/
def unwrapped (proxy : EstimatorProxy) (seq : TransportSeq) : Int :=
  proxy.unwrapper.wrap16Update seq

/-- The proxy after an arrival that it records. -/
def recording (proxy : EstimatorProxy) (arrivalTs : Int) (ssrc : BitVec 32)
    (seq : TransportSeq) : EstimatorProxy :=
  { proxy with
    ssrc
    unwrapper := ⟨proxy.unwrapped seq⟩
    wndStartSeq := if proxy.wndStartSeq = -1 then (seq : Int)
      else min proxy.wndStartSeq (proxy.unwrapped seq)
    maxArrivalSeq := max proxy.maxArrivalSeq (proxy.unwrapped seq)
    arrivalTimes := (proxy.kept (proxy.unwrapped seq) arrivalTs).insert
      (proxy.unwrapped seq) arrivalTs }

theorem wndStartSeq_recording (proxy : EstimatorProxy) (arrivalTs : Int)
    (ssrc : BitVec 32) (seq : TransportSeq) :
    (proxy.recording arrivalTs ssrc seq).wndStartSeq
      = if proxy.wndStartSeq = -1 then (seq : Int)
        else min proxy.wndStartSeq (proxy.unwrapped seq) := rfl

/-- **An arrival** before time `0` is ignored. One that is too far ahead only
moves the unwrapper. Any other arrival is recorded. -/
theorem incoming_cases (proxy : EstimatorProxy) (arrivalTs : Int) (ssrc : BitVec 32)
    (seq : TransportSeq) :
    arrivalTs < 0 ∧ proxy.incoming arrivalTs ssrc seq = proxy ∨
    0 ≤ arrivalTs ∧ proxy.wndStartSeq + 32767 < proxy.unwrapped seq ∧
      proxy.incoming arrivalTs ssrc seq
        = { proxy with ssrc, unwrapper := ⟨proxy.unwrapped seq⟩ } ∨
    0 ≤ arrivalTs ∧ proxy.unwrapped seq ≤ proxy.wndStartSeq + 32767 ∧
      proxy.incoming arrivalTs ssrc seq = proxy.recording arrivalTs ssrc seq := by
  unfold incoming
  by_cases hts : arrivalTs < 0
  · exact .inl ⟨hts, if_pos hts⟩
  · right
    rw [if_neg hts]
    simp only [Unwrapper.wrapUint16, show proxy.unwrapper.wrap16Update seq
      = proxy.unwrapped seq from rfl]
    by_cases hfar : proxy.unwrapped seq > proxy.wndStartSeq + 32767
    · left
      exact ⟨not_lt.mp hts, hfar, if_pos hfar⟩
    · right
      refine ⟨not_lt.mp hts, not_lt.mp hfar, ?_⟩
      rw [if_neg hfar, kept_eq, recording]
      congr 1
      split_ifs <;> omega

/-! ## Feedback -/

/-- The sample that an entry is written as. -/
def sampleOf (b : Int × Int) : FeedbackSample :=
  ⟨BitVec.ofInt 16 b.1, BitVec.ofInt 64 b.2⟩

/-- `min_ts` after one more entry. -/
def minStep (minTs : BitVec 64) (b : Int × Int) : BitVec 64 :=
  if minTs = -1 ∨ (BitVec.ofInt 64 b.2).slt minTs then BitVec.ofInt 64 b.2 else minTs

/-- The message after some more entries. -/
def writing (msg : FeedbackMsg) (entries : List (Int × Int))
    (samples : Vector FeedbackSample maxFeelbackCount) : FeedbackMsg :=
  { msg with
    minTs := entries.foldl minStep msg.minTs
    samplesNum := BitVec.ofNat 8 (msg.samplesNum.toNat + entries.length)
    samples }

theorem writing_nil (msg : FeedbackMsg) : writing msg [] msg.samples = msg := by
  simp [writing]

/-- The first entries of the window, as many as there is room for. -/
def windowOf (wndStartSeq : Int) (bs : List (Int × Int)) (room : Nat) :
    List (Int × Int) :=
  (bs.filter fun b => decide (wndStartSeq ≤ b.1)).take room

theorem windowOf_cons_of_le {wndStartSeq : Int} {b : Int × Int} (h : wndStartSeq ≤ b.1)
    (rest : List (Int × Int)) (room : Nat) :
    windowOf wndStartSeq (b :: rest) (room + 1) = b :: windowOf wndStartSeq rest room := by
  simp [windowOf, h]

theorem windowOf_cons_of_lt {wndStartSeq : Int} {b : Int × Int} (h : ¬ wndStartSeq ≤ b.1)
    (rest : List (Int × Int)) (room : Nat) :
    windowOf wndStartSeq (b :: rest) room = windowOf wndStartSeq rest room := by
  simp [windowOf, h]

/-- **The loop** writes the first entries of the window, as many as fit. -/
theorem buildLoop_eq (wndStartSeq : Int) (bs : List (Int × Int)) {msg : FeedbackMsg}
    (n : Int) {room : Nat} (h : msg.samplesNum.toNat + (room + 1) = maxFeelbackCount) :
    ∃ samples,
      BoundedArray.storeAll msg.samples msg.samplesNum.toNat
        ((windowOf wndStartSeq bs (room + 1)).map sampleOf) = some samples ∧
      buildLoop wndStartSeq bs msg n = some
        (writing msg (windowOf wndStartSeq bs (room + 1)) samples,
          startBehind n (windowOf wndStartSeq bs (room + 1))) := by
  induction bs generalizing msg n room with
  | nil =>
      refine ⟨msg.samples, by simp [windowOf, BoundedArray.storeAll], ?_⟩
      simp [buildLoop, writing, startBehind, windowOf]
  | cons b rest ih =>
      by_cases hb : wndStartSeq ≤ b.1
      · obtain ⟨samples₁, hstore₁⟩ := BoundedArray.store_isSome (a := msg.samples)
          (show msg.samplesNum.toNat < maxFeelbackCount by omega) (sampleOf b)
        let msg₁ : FeedbackMsg := { msg with
          minTs := minStep msg.minTs b
          samples := samples₁
          samplesNum := msg.samplesNum + 1 }
        have hnum : msg₁.samplesNum.toNat = msg.samplesNum.toNat + 1 := by
          have hlt : msg.samplesNum.toNat + 1 < 2 ^ 8 := by
            unfold maxFeelbackCount at h
            omega
          show (msg.samplesNum + 1).toNat = _
          rw [BitVec.toNat_add]
          exact Nat.mod_eq_of_lt hlt
        have hwriting : ∀ entries samples,
            writing msg (b :: entries) samples = writing msg₁ entries samples := by
          intro entries samples
          have hlen : msg.samplesNum.toNat + (b :: entries).length
              = msg₁.samplesNum.toNat + entries.length := by
            rw [hnum, List.length_cons]
            omega
          unfold writing
          rw [hlen]
          rfl
        have hturn : buildLoop wndStartSeq (b :: rest) msg n
            = if msg₁.samplesNum.toNat ≥ maxFeelbackCount then some (msg₁, b.1 + 1)
              else buildLoop wndStartSeq rest msg₁ (b.1 + 1) := by
          rw [buildLoop, if_pos hb]
          simp only [show (⟨BitVec.ofInt 16 b.1, BitVec.ofInt 64 b.2⟩ : FeedbackSample)
            = sampleOf b from rfl, hstore₁, Option.bind_eq_bind, Option.bind_some]
          rfl
        rw [hturn, windowOf_cons_of_le hb]
        cases room with
        | zero =>
            -- the message is full
            refine ⟨samples₁, ?_, ?_⟩
            · simp [windowOf, BoundedArray.storeAll, hstore₁]
            · have hrest : windowOf wndStartSeq rest 0 = [] := List.take_zero
              rw [if_pos (by omega), hrest, hwriting]
              exact congrArg (fun m => some (m, b.1 + 1)) (writing_nil msg₁).symm
        | succ room =>
            have hroom : msg₁.samplesNum.toNat + (room + 1) = maxFeelbackCount := by omega
            obtain ⟨samples, hstore, hloop⟩ := ih (b.1 + 1) hroom
            refine ⟨samples, ?_, ?_⟩
            · rw [List.map_cons, BoundedArray.storeAll, hstore₁, Option.bind_eq_bind,
                Option.bind_some, ← hnum]
              exact hstore
            · rw [if_neg (by omega), hloop, hwriting]
              rfl
      · obtain ⟨samples, hstore, hloop⟩ := ih n h
        rw [windowOf_cons_of_lt hb]
        exact ⟨samples, hstore, by rw [buildLoop, if_neg (by simpa using hb), hloop]⟩

/-- The parts of a message that the proxy does not write. -/
def SameInfo (msg msg' : FeedbackMsg) : Prop :=
  msg'.flag = msg.flag ∧ msg'.remb = msg.remb ∧ msg'.fractionLoss = msg.fractionLoss ∧
    msg'.packetNum = msg.packetNum

/-- A message reports some entries, and no others. -/
structure Reports (msg : FeedbackMsg) (entries : List (Int × Int)) : Prop where
  samplesNum : msg.samplesNum.toNat = entries.length
  samples : ∀ i, i < entries.length →
    BoundedArray.load msg.samples i = (entries.map sampleOf)[i]?
  minTs : msg.minTs = entries.foldl minStep (-1)

theorem length_reportable_le (proxy : EstimatorProxy) :
    proxy.reportable.length ≤ maxFeelbackCount :=
  List.length_take_le ..

/-- **A feedback** that is built reports the entries of the window in order, as
many as fit, and moves the window behind them. Otherwise the proxy stays as it
is: the window holds at most two entries, or the newest arrival is not behind
its start. -/
theorem bulid_cases (proxy : EstimatorProxy) (msg : FeedbackMsg) :
    ∃ ret proxy' msg', proxy.bulidFeelbackPacket msg = some (ret, proxy', msg') ∧
      SameInfo msg msg' ∧
      (ret = -1 ∧ proxy' = proxy ∧
        (proxy.maxArrivalSeq ≤ proxy.wndStartSeq ∧ 2 < proxy.arrivalTimes.size ∨
          proxy.reportable.length ≤ 2) ∨
      ret = 0 ∧ 2 < proxy.reportable.length ∧
        proxy' = { proxy with wndStartSeq := startBehind (-1) proxy.reportable } ∧
        msg'.baseSeq = BitVec.ofInt 64 proxy.wndStartSeq ∧
        Reports msg' proxy.reportable) := by
  unfold bulidFeelbackPacket
  by_cases hidle : proxy.maxArrivalSeq ≤ proxy.wndStartSeq ∧ proxy.arrivalTimes.size > 2
  · rw [if_pos hidle]
    exact ⟨_, _, _, rfl, ⟨rfl, rfl, rfl, rfl⟩, .inl ⟨rfl, rfl, .inl hidle⟩⟩
  · rw [if_neg hidle]
    let msg₀ : FeedbackMsg := { msg with
      minTs := -1
      samplesNum := 0
      baseSeq := BitVec.ofInt 64 proxy.wndStartSeq }
    obtain ⟨samples, hstore, hloop⟩ := buildLoop_eq proxy.wndStartSeq
      proxy.arrivalTimes.toList (-1)
      (show msg₀.samplesNum.toNat + (127 + 1) = maxFeelbackCount from rfl)
    change BoundedArray.storeAll _ 0 (proxy.reportable.map sampleOf) = _ at hstore
    change _ = some (writing msg₀ proxy.reportable samples,
      startBehind (-1) proxy.reportable) at hloop
    have hle := proxy.length_reportable_le
    have hnum : (writing msg₀ proxy.reportable samples).samplesNum.toNat
        = proxy.reportable.length := by
      show (BitVec.ofNat 8 (0 + proxy.reportable.length)).toNat = _
      rw [BitVec.toNat_ofNat, Nat.zero_add]
      unfold maxFeelbackCount at hle
      omega
    simp only [show ({ msg with
      minTs := -1
      samplesNum := 0
      baseSeq := BitVec.ofInt 64 proxy.wndStartSeq } : FeedbackMsg) = msg₀ from rfl,
      hloop, Option.bind_eq_bind, Option.bind_some, hnum]
    by_cases hmany : proxy.reportable.length > 2
    · rw [if_pos hmany]
      refine ⟨_, _, _, rfl, ⟨rfl, rfl, rfl, rfl⟩, .inr ⟨rfl, hmany, rfl, rfl, hnum, ?_, rfl⟩⟩
      intro i hi
      have hfit : 0 + (proxy.reportable.map sampleOf).length ≤ maxFeelbackCount := by
        simpa using hle
      obtain ⟨samples', hstore', hnew, _⟩ := BoundedArray.storeAll_eq (a := msg₀.samples) hfit
      obtain rfl := Option.some.inj (hstore.symm.trans hstore')
      have hload := hnew i (by simpa using hi)
      rwa [Nat.zero_add] at hload
    · rw [if_neg hmany]
      exact ⟨_, _, _, rfl, ⟨rfl, rfl, rfl, rfl⟩, .inl ⟨rfl, rfl, .inr (not_lt.mp hmany)⟩⟩

end EstimatorProxy

end Razor
