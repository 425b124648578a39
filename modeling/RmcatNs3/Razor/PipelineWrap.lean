import RmcatNs3.Razor.PipelineRuns

/-!
# Packet ids that are used again

The pacer takes the unsent packet with the least id, so behind a wrap of the ids an old
packet can wait while all later ones are sent. The pacer keeps these, marked, and
rejects a new packet with the id of one of them, which `m_cache` accepts. A run that
does so is built here from a pacer whose budget is spent exactly: at 32 kbps, `j`
packets of 32 bytes in `8 * j` milliseconds.
-/

namespace Razor

open Runs PacerQueue MachineInt

namespace PaceSender

variable {pace : PaceSender} {L : List Queued} {now : Int}

/-- Sending a packet of 32 bytes spends as much of the budget. -/
theorem send_exact {event : PacketEvent} {j : Nat} (hcb : pace.sendCb = true)
    (hsize : event.size = 32) (hbudget : pace.mediaBudget.bytesRemaining = 32 * (j + 1 : Nat))
    (hmax : pace.mediaBudget.maxBytesInBudget = 2000) (hsmall : j ≤ 2) :
    pace.send event = (0, { pace with
      sendLog := pace.sendLog ++ [event.call]
      mediaBudget := { pace.mediaBudget with bytesRemaining := 32 * (j : Int) } }) := by
  have hspent : pace.mediaBudget.useBudget (toSigned 32 event.size) =
      { pace.mediaBudget with bytesRemaining := 32 * (j : Int) } := by
    have hbytes : toSigned 32 ((event.size : Nat) : Int) = 32 := by
      rw [hsize]
      rfl
    have hleft : toSigned 32 (pace.mediaBudget.bytesRemaining - 32) = 32 * (j : Int) := by
      rw [hbudget, toSigned_of_bounds (by omega) (by omega)]
      omega
    have hfloor : max (-pace.mediaBudget.maxBytesInBudget) (32 * (j : Int)) = 32 * j :=
      max_eq_right (by omega)
    unfold IntervalBudget.useBudget
    rw [hbytes, hleft, hfloor]
  have hpos : ¬ pace.mediaBudget.budgetRemaining = 0 := by
    unfold IntervalBudget.budgetRemaining
    rw [hbudget, if_pos (by omega)]
    omega
  rw [send, if_neg hpos, hspent, if_pos hcb]

/-- **The loop** sends as many packets as it has the budget for, least ids first. -/
theorem transmitLoop_exact (nowTs : Int) {j : Nat} (h : Inv pace.que L now)
    (hcb : pace.sendCb = true) (hsize : ∀ p ∈ unsent L, p.event.size = 32)
    (hbudget : pace.mediaBudget.bytesRemaining = 32 * j)
    (hmax : pace.mediaBudget.maxBytesInBudget = 2000) (hsmall : j ≤ 3)
    (hj : j ≤ (unsent L).length) (sentBytes : Int) :
    ∃ que' L' news first bytes', (∀ fuel, j < fuel →
        transmitLoop nowTs fuel pace sentBytes = some ({ pace with
          que := que'
          firstSentTs := first
          sendLog := pace.sendLog ++ calls news
          mediaBudget := { pace.mediaBudget with bytesRemaining := 0 } }, bytes')) ∧
      Inv que' L' now ∧ (unsent L).Perm (news ++ unsent L') ∧ news.length = j ∧
      (∀ p ∈ news, ∀ q ∈ unsent L', p.event.seq ≤ q.event.seq) ∧
      L'.map (·.event.seq) <:+ L.map (·.event.seq) := by
  induction j generalizing pace L sentBytes with
  | zero =>
      have hzero : pace.mediaBudget.bytesRemaining = 0 := hbudget
      have hsame : ({ pace.mediaBudget with bytesRemaining := 0 } : IntervalBudget) =
          pace.mediaBudget := by
        rw [← hzero]
      refine ⟨pace.que, L, [], pace.firstSentTs, sentBytes, ?_, h, .refl _, rfl, nofun,
        List.suffix_rfl⟩
      intro fuel hfuel
      obtain ⟨k, rfl⟩ := Nat.exists_eq_succ_of_ne_zero (Nat.ne_zero_of_lt hfuel)
      rw [hsame, show calls [] = [] from rfl, List.append_nil]
      rcases h.front with ⟨hnil, _⟩ | ⟨p, hp, hfront, _⟩
      · have hsize : pace.que.cache.size = 0 := h.cache_size_of_unsent hnil
        simp [transmitLoop, empty, hsize]
      · have hsend : pace.send p.event = (-1, pace) := by
          simp [send, IntervalBudget.budgetRemaining, hzero]
        rw [Nat.succ_eq_add_one, transmitLoop_turn nowTs k (mem_unsent.mp hp).1 h hfront, hsend]
        rfl
  | succ j ih =>
      rcases h.front with ⟨hnil, _⟩ | ⟨p, hp, hfront, hleast⟩
      · rw [hnil] at hj
        exact absurd hj (by simp)
      · obtain ⟨que₁, L₁, hsent, hinv₁, hperm₁, hsuffix₁⟩ := h.sent hp
        have hrest : ∀ q ∈ unsent L₁, q ∈ unsent L := fun q hq =>
          hperm₁.mem_iff.mpr (List.mem_cons_of_mem _ hq)
        have hsend := send_exact hcb (hsize p hp) hbudget hmax (by omega)
        let pace₁ : PaceSender := { pace with
          sendLog := pace.sendLog ++ [p.event.call]
          mediaBudget := { pace.mediaBudget with bytesRemaining := 32 * (j : Int) }
          firstSentTs := if pace.firstSentTs = -1 then nowTs else pace.firstSentTs
          que := que₁ }
        have hcount : j ≤ (unsent L₁).length := by
          have hlength := hperm₁.length_eq
          rw [List.length_cons] at hlength
          omega
        obtain ⟨que', L', news, first, bytes', hloop, hinv', hperm', hlength, hleast', hsuffix'⟩ :=
          ih (show Inv pace₁.que L₁ now from hinv₁) hcb (fun q hq => hsize q (hrest q hq)) rfl hmax
            (by omega) hcount (toSigned 32 (sentBytes + p.event.size))
        refine ⟨que', L', p :: news, first, bytes', ?_, hinv', ?_, ?_, ?_,
          hsuffix'.trans hsuffix₁⟩
        · intro fuel hfuel
          obtain ⟨k, rfl⟩ := Nat.exists_eq_succ_of_ne_zero (Nat.ne_zero_of_lt hfuel)
          rw [Nat.succ_eq_add_one, transmitLoop_turn nowTs k (mem_unsent.mp hp).1 h hfront, hsend,
            if_pos rfl]
          simp only [hsent, Option.bind_eq_bind, Option.bind_some]
          refine (hloop k (by omega)).trans ?_
          simp [pace₁, calls]
        · exact hperm₁.trans (hperm'.cons p)
        · rw [List.length_cons, hlength]
        · intro r hr q hq
          rcases List.mem_cons.mp hr with rfl | hr
          · exact hleast q (hrest q (hperm'.mem_iff.mpr (List.mem_append_right _ hq)))
          · exact hleast' r hr q hq

/-- A pacer at 32 kbps that has spent its budget, at this time. -/
structure Spent (pace : PaceSender) (now : Int) : Prop where
  sendCb : pace.sendCb = true
  remaining : pace.mediaBudget.bytesRemaining = 0
  build : pace.mediaBudget.canBuildUpUnderuse ≠ 0
  rate : pace.pacingBitrateKpbs = 32
  alr : pace.alr.budget.maxBytesInBudget ≠ 0
  updated : pace.lastUpdateTs = now

/-- Few packets do not raise the rate. -/
theorem targetBitrate_le {que : PacerQueue} (htotal : que.totalSize ≤ 192)
    (hold : que.oldestTs = now)
    (h0 : 0 ≤ now) {j : Nat} (hpos : 0 < j) (hj : j ≤ 3) :
    que.targetBitrateKbps (now + 8 * j) ≤ 32 := by
  have hmax := que.maxQueMs_ge
  simp only [kMaxPaceQueueMs] at hmax
  have hspace : toUnsigned 32 (now + 8 * j - que.oldestTs) = 8 * j := by
    rw [hold, show now + 8 * (j : Int) - now = ((8 * j : Nat) : Int) by omega]
    exact toUnsigned_of_lt (by omega)
  have hlate : que.oldestTs ≠ -1 ∧ now + 8 * (j : Int) > que.oldestTs := by omega
  have hwaits : ¬ 8 * j ≥ que.maxQueMs := by omega
  unfold targetBitrateKbps
  simp only [if_pos hlate, hspace, if_neg hwaits]
  split
  · have hdiv : que.totalSize * 8 % 2 ^ 64 / (que.maxQueMs - 8 * j) ≤ 32 := by
      rw [Nat.mod_eq_of_lt (by omega)]
      apply Nat.div_le_of_le_mul
      have hmul : 226 * 32 ≤ (que.maxQueMs - 8 * j) * 32 := Nat.mul_le_mul_right _ (by omega)
      omega
    rw [toUnsigned_of_lt (by omega)]
    exact hdiv
  · exact Nat.zero_le _

theorem bytes_of_size {size : Nat} {M : List Queued} (h : ∀ p ∈ M, p.event.size = size) :
    bytes M = size * M.length := by
  induction M with
  | nil => rfl
  | cons p rest ih =>
      have hrest := ih fun q hq => h q (List.mem_cons_of_mem _ hq)
      have hcons : bytes (p :: rest) = p.event.size + bytes rest := rfl
      rw [hcons, h p (List.mem_cons_self ..), hrest, List.length_cons, Nat.mul_succ]
      omega

theorem Spent.elapsed (hspent : Spent pace now) {j : Nat} (hsmall : j ≤ 3) :
    pace.elapsed (now + 8 * j) = 8 * j := by
  rw [PaceSender.elapsed, hspent.updated, toSigned_of_bounds (by omega) (by omega)]
  omega

theorem min_interval {j : Nat} (hsmall : j ≤ 3) :
    min (8 * (j : Int)) kMaxIntervalMs = 8 * j :=
  min_eq_left (by simp only [kMaxIntervalMs]; omega)

/-- The budget of the interval. -/
theorem Spent.startBudget_exact (hspent : Spent pace now) {j : Nat} (hsmall : j ≤ 3)
    (hrate : pace.que.targetBitrateKbps (now + 8 * j) ≤ 32) :
    pace.startBudget (now + 8 * j) = { pace.mediaBudget with
      targetRateKbps := 32, maxBytesInBudget := 2000, bytesRemaining := 32 * (j : Int) } := by
  have htarget : pace.targetKbps (now + 8 * j) = 32 := by
    rw [targetKbps, hspent.rate]
    split
    · exact max_eq_left hrate
    · rfl
  have hbytes : (toSigned 32 (32 * (8 * (j : Int)))).tdiv 8 = 32 * j := by
    rw [toSigned_of_bounds (by omega) (by omega),
      show 32 * (8 * (j : Int)) = 32 * j * 8 by omega]
    exact Int.mul_tdiv_cancel _ (by decide)
  have hleast : min (32 * (j : Int)) 2000 = 32 * j := min_eq_left (by omega)
  have hwindow : (toSigned 32 (IntervalBudget.kWindowMs * 32)).tdiv 8 = 2000 := by decide
  have hrate : toSigned 32 ((32 : Nat) : Int) = 32 := by decide
  have hbuild := hspent.build
  rw [startBudget, targetBudget, htarget, hspent.elapsed hsmall, min_interval hsmall]
  unfold IntervalBudget.setTargetRateKbps IntervalBudget.increaseBudget
  simp only [hrate, hwindow, hspent.remaining, hbytes, hbuild, or_false]
  simp [hleast]

/-- **`pace_try_transmit`** after `8 * j` milliseconds sends `j` packets of those that
have come last, least ids first. -/
theorem tryTransmit_exact {j : Nat} (h : Inv pace.que L now) (hspent : Spent pace now)
    (hsize : ∀ p ∈ L, p.event.size = 32) (htimes : ∀ p ∈ L, p.event.queTs = now)
    (hlen : L.length ≤ 6) (hpos : 0 < j) (hsmall : j ≤ 3) (hj : j ≤ (unsent L).length)
    (sysMs : Int) :
    ∃ pace' L' news, (∀ fuel, j < fuel →
        pace.tryTransmit fuel (now + 8 * j) sysMs = some pace') ∧
      Inv pace'.que L' (now + 8 * j) ∧ Spent pace' (now + 8 * j) ∧
      pace'.sendLog = pace.sendLog ++ calls news ∧
      (unsent L).Perm (news ++ unsent L') ∧ news.length = j ∧
      (∀ p ∈ news, ∀ q ∈ unsent L', p.event.seq ≤ q.event.seq) ∧
      L'.map (·.event.seq) <:+ L.map (·.event.seq) := by
  have hsizes : ∀ p ∈ unsent L, p.event.size = 32 := fun p hp => hsize p (mem_unsent.mp hp).1
  obtain ⟨first, rest, hL⟩ : ∃ first rest, L = first :: rest := by
    cases L with
    | nil => exact absurd hj (by simp [unsent]; omega)
    | cons first rest => exact ⟨first, rest, rfl⟩
  have hfirst : first ∈ L := hL ▸ List.mem_cons_self ..
  have hold : pace.que.oldestTs = now := by
    rw [h.oldestTs, hL]
    exact htimes first hfirst
  have h0 : 0 ≤ now := htimes first hfirst ▸ (h.times first hfirst).1
  have hcount : (unsent L).length ≤ L.length := List.length_filter_le ..
  have htotal : pace.que.totalSize ≤ 192 := by
    rw [h.totalSize, bytes_of_size hsizes]
    omega
  have helapsed := hspent.elapsed hsmall
  have hbudget := hspent.startBudget_exact hsmall (targetBitrate_le htotal hold h0 hpos hsmall)
  let pace₁ : PaceSender := { pace with
    mediaBudget := { pace.mediaBudget with
      targetRateKbps := 32, maxBytesInBudget := 2000, bytesRemaining := 32 * (j : Int) } }
  obtain ⟨que', L', news, first, bytes', hloop, hinv', hperm, hlength, hleast, hsuffix⟩ :=
    transmitLoop_exact (now + 8 * j) (show Inv pace₁.que L now from h) hspent.sendCb hsizes rfl rfl
      hsmall hj 0
  obtain ⟨alr', halr⟩ := Option.isSome_iff_exists.mp
    ((@bytesSent_isSome_iff pace.alr (toUnsigned 64 bytes') (8 * j) sysMs).mpr hspent.alr)
  have halr' : alr'.budget.maxBytesInBudget ≠ 0 := by
    rw [maxBytes_bytesSent halr]
    exact hspent.alr
  refine ⟨{ pace₁ with
    que := que', firstSentTs := first, sendLog := pace.sendLog ++ calls news
    mediaBudget := { pace₁.mediaBudget with bytesRemaining := 0 }
    lastUpdateTs := now + 8 * j, alr := alr' }, L', news, ?_, hinv'.later (by omega),
    ⟨hspent.sendCb, rfl, hspent.build, hspent.rate, halr', rfl⟩, rfl, hperm, hlength, hleast,
    hsuffix⟩
  intro fuel hfuel
  rw [tryTransmit_unfold, helapsed, if_neg (by simp only [kMinPacketLimitMs]; omega),
    min_interval hsmall, hbudget]
  refine (congrArg (Option.bind · _) (hloop fuel hfuel)).trans ?_
  simp only [pace₁, halr, Option.bind_some]

end PaceSender

namespace SimPipeline

variable {c c' : SimPipeline} {L : List Queued}

/-- A run in which there are always fewer than `2 ^ 32` unsent segments. -/
def Reaches (c c' : SimPipeline) : Prop :=
  ∃ ops, Run (fun c op c' => Step c op c' ∧ c'.FewUnsent) c ops c'

theorem Reaches.trans {c'' : SimPipeline} (h : Reaches c c') (h' : Reaches c' c'') :
    Reaches c c'' := by
  obtain ⟨ops, hrun⟩ := h
  obtain ⟨ops', hrun'⟩ := h'
  exact ⟨ops ++ ops', hrun.append hrun'⟩

theorem Reaches.step (op : Op) (hstep : Step c op c') (hfew : c'.FewUnsent) : Reaches c c' :=
  ⟨[op], .snoc .nil ⟨hstep, hfew⟩⟩

/-- Sender and pacer agree, the pacer has spent its budget, and a frame of no bytes is
one segment. -/
structure Ready (c : SimPipeline) (L : List Queued) : Prop where
  inv : Inv c L
  spent : PaceSender.Spent c.pace c.now
  segmentSize : c.snd.segmentSize = 1000

theorem Inv.fewUnsent (h : Inv c L) (hfew : (unsent L).length < 2 ^ 32) : c.FewUnsent := by
  have hmade := h.owes.once.length_eq
  have hkeys := h.owes.keys.length_eq
  simp only [List.length_append, List.length_map] at hmade hkeys
  unfold FewUnsent
  omega

theorem exists_free {que : PacerQueue} (h : Holds que L) : ∃ a, que.packets a = none := by
  have hbound : ∀ l : List Addr, ∃ a, ∀ b ∈ l, b < a := by
    intro l
    induction l with
    | nil => exact ⟨0, nofun⟩
    | cons b rest ih =>
        obtain ⟨a, ha⟩ := ih
        refine ⟨max a (b + 1), ?_⟩
        intro d hd
        rcases List.mem_cons.mp hd with rfl | hd
        · exact lt_of_lt_of_le (Nat.lt_succ_self _) (le_max_right _ _)
        · exact lt_of_lt_of_le (ha d hd) (le_max_left _ _)
  obtain ⟨a, ha⟩ := hbound (L.map (·.addr))
  refine ⟨a, ?_⟩
  by_contra hne
  obtain ⟨ev, hev⟩ := Option.ne_none_iff_exists'.mp hne
  have hmem := (h.packets ⟨a, ev⟩).mp hev
  exact Nat.lt_irrefl a (ha a (List.mem_map_of_mem hmem))

/-- A frame of no bytes is put in. -/
theorem step_zero {a : Addr} (hsegment : c.snd.segmentSize = 1000)
    (ha : c.pace.que.packets a = none) :
    ∃ c' seg, Step c (.putFakeData 0 0 c.now) c' ∧
      c.snd.madeSegments 0 0 c.now = [seg] ∧ seg.dataSize = 0 ∧
      c'.pace = (c.pace.insertPacket a c.snd.packetId.toFin 0 32 c.now).2 ∧
      c'.snd.cache = c.snd.cache.insert c.snd.packetId.toNat seg ∧
      c'.snd.packetId = c.snd.packetId + 1 ∧ c'.snd.segmentSize = 1000 ∧ c'.now = c.now ∧
      c'.sent = c.sent ∧ c'.made.length = c.made.length + 1 := by
  have hsplits : SimSender.frameSplit c.snd.segmentSize.toNat (0 : BitVec 32).toNat = [0] := by
    rw [hsegment]
    rfl
  obtain ⟨seg, hsegs, hdata, hid⟩ : ∃ seg, c.snd.madeSegments 0 0 c.now = [seg] ∧
      seg.dataSize = 0 ∧ seg.packetId = c.snd.packetId := by
    simp only [SimSender.madeSegments, hsplits, FrameFields.segments]
    exact ⟨_, rfl, rfl, rfl⟩
  obtain ⟨snd, hput⟩ : ∃ snd, c.snd.putFakeData 0 0 c.now = some snd := by
    unfold SimSender.putFakeData
    rw [if_pos (by rw [hsegment]; decide)]
    exact ⟨_, rfl⟩
  obtain ⟨_, hsnd⟩ := putFakeData_spec hput
  rw [hsegs] at hsnd
  have hadd : c.pace.AddPackets c.now [seg]
      (c.pace.insertPacket a c.snd.packetId.toFin 0 32 c.now).2 := by
    refine ⟨a, ha, ?_⟩
    rw [hid, hdata]
    rfl
  rw [← hsegs] at hadd
  refine ⟨_, seg, ⟨le_refl _, snd, _, hput, hadd, rfl⟩, hsegs, hdata, rfl, ?_, ?_, ?_, rfl, rfl,
    ?_⟩
  · rw [hsnd]
    show c.snd.cache.insert seg.packetId.toNat seg = _
    rw [hid]
  · rw [hsnd]
    rfl
  · rw [hsnd]
    exact hsegment
  · unfold made
    rw [List.flatMap_append, List.length_append, List.flatMap_singleton, hsegs]
    rfl

/-- A new packet id joins at the end. -/
theorem Ready.put (h : Ready c L) (hfits : L.length < 2 ^ 32)
    (hfew : (unsent L).length + 1 < 2 ^ 32) :
    ∃ c' p, Reaches c c' ∧ Ready c' (L ++ [p]) ∧ p.event.seq = c.snd.packetId.toFin ∧
      p.event.size = 32 ∧ p.event.queTs = (c.now : Int) ∧ p.event.sent = false ∧
      c'.now = c.now ∧ c'.snd.packetId = c.snd.packetId + 1 := by
  obtain ⟨a, ha⟩ := exists_free h.inv.que.holds
  obtain ⟨c', seg, hstep, hsegs, hdata, _, _, hpacketId, hsegment, hnow, _, _⟩ :=
    step_zero h.segmentSize ha
  have hfits' : Fits c (.putFakeData 0 0 c.now) := by
    simp only [Fits, hsegs, h.inv.que.holds.l, List.length_map, List.length_singleton]
    omega
  obtain ⟨M, hinv, hunsent, hseqs, hsizes, htimes, _, hpace⟩ := h.inv.putFakeData hstep hfits'
  rw [hsegs] at hseqs hsizes
  obtain ⟨p, hM⟩ : ∃ p, M = [p] := by
    rw [← List.length_eq_one_iff, ← List.length_map (fun p : Queued => p.event.size), hsizes]
    rfl
  subst hM
  have hspent : PaceSender.Spent c'.pace c'.now := by
    rw [hpace, hnow]
    exact ⟨h.spent.sendCb, h.spent.remaining, h.spent.build, h.spent.rate, h.spent.alr,
      h.spent.updated⟩
  have hsent : p.event.sent = false := by
    have hmem : p ∈ unsent [p] := hunsent.symm ▸ List.mem_singleton_self p
    exact (mem_unsent.mp hmem).2
  refine ⟨c', p, .step _ hstep (hinv.fewUnsent ?_), ⟨hinv, hspent, hsegment⟩, ?_, ?_,
    htimes p (List.mem_singleton_self p), hsent, hnow, hpacketId⟩
  · rw [unsent_append, hunsent, List.length_append]
    exact hfew
  · rw [List.length_singleton, packetIds_succ] at hseqs
    exact List.head_eq_of_cons_eq hseqs
  · refine (List.head_eq_of_cons_eq hsizes).trans ?_
    show seg.dataSize.toNat + headerLen.toNat = 32
    rw [hdata]
    rfl

/-- New packet ids join at the end, one after the other. -/
theorem Ready.puts (n : Nat) (h : Ready c L) (hfits : L.length + n ≤ 2 ^ 32)
    (hfew : (unsent L).length + n < 2 ^ 32) :
    ∃ c' M, Reaches c c' ∧ Ready c' (L ++ M) ∧ unsent M = M ∧
      M.map (·.event.seq) = (packetIds c.snd.packetId n).map (·.toFin) ∧
      (∀ p ∈ M, p.event.size = 32 ∧ p.event.queTs = (c.now : Int)) ∧
      c'.now = c.now ∧ c'.snd.packetId = c.snd.packetId + BitVec.ofNat 32 n := by
  induction n generalizing c L with
  | zero =>
      refine ⟨c, [], ⟨[], .nil⟩, by rwa [List.append_nil], rfl, rfl, nofun, rfl, ?_⟩
      exact (BitVec.add_zero _).symm
  | succ n ih =>
      obtain ⟨c₁, p, hreach₁, hready₁, hseq, hsize, htime, hsent, hnow₁, hid₁⟩ :=
        h.put (by omega) (by omega)
      have hunsent : unsent (L ++ [p]) = unsent L ++ [p] := by
        rw [unsent_append, unsent_cons_of_unsent hsent]
        rfl
      obtain ⟨c', M, hreach, hready, hM, hseqs, hfields, hnow, hid⟩ := ih hready₁
        (by rw [List.length_append, List.length_singleton]; omega)
        (by rw [hunsent, List.length_append, List.length_singleton]; omega)
      refine ⟨c', p :: M, hreach₁.trans hreach, ?_, ?_, ?_, ?_, hnow.trans hnow₁, ?_⟩
      · rwa [List.append_assoc] at hready
      · rw [unsent_cons_of_unsent hsent, hM]
      · rw [packetIds_succ, List.map_cons, List.map_cons, hseq, hseqs, hid₁]
      · intro q hq
        rcases List.mem_cons.mp hq with rfl | hq
        · exact ⟨hsize, htime⟩
        · exact hnow₁ ▸ hfields q hq
      · rw [hid, hid₁, BitVec.add_assoc, Nat.add_comm n 1, BitVec.ofNat_add]
        rfl

/-- The pacer sends `j` packets of those that have come last, least ids first. -/
theorem Ready.heartbeat {j : Nat} (h : Ready c L)
    (hfields : ∀ p ∈ L, p.event.size = 32 ∧ p.event.queTs = (c.now : Int)) (hlen : L.length ≤ 6)
    (hpos : 0 < j) (hsmall : j ≤ 3) (hj : j ≤ (unsent L).length) :
    ∃ c' L' news, Reaches c c' ∧ Ready c' L' ∧ (unsent L).Perm (news ++ unsent L') ∧
      news.length = j ∧ (∀ p ∈ news, ∀ q ∈ unsent L', p.event.seq ≤ q.event.seq) ∧
      L'.map (·.event.seq) <:+ L.map (·.event.seq) ∧
      c'.snd.packetId = c.snd.packetId := by
  have hclock : (c.now : Int) + 8 * j = ((c.now + 8 * j : Nat) : Int) := by omega
  obtain ⟨pace', L', news, hrun, hque, hspent, hlog, hperm, hlength, hleast, hsuffix⟩ :=
    PaceSender.tryTransmit_exact h.inv.que h.spent (fun p hp => (hfields p hp).1)
      (fun p hp => (hfields p hp).2) hlen hpos hsmall hj ((c.now + 8 * j : Nat) : Int)
  rw [hclock] at hrun hque hspent
  have hmoves : PaceSender.Moves c.pace L pace' L' := by
    refine ⟨?_, ⟨_, hlog.symm⟩, hsuffix⟩
    unfold PaceSender.allCalls
    rw [hlog, List.append_assoc]
    refine List.Perm.append_left _ ?_
    rw [PaceSender.calls, PaceSender.calls, PaceSender.calls, ← List.map_append]
    exact hperm.map _
  obtain ⟨hinv, hcounters⟩ := h.inv.transmitted hque hmoves hspent.sendCb
  obtain ⟨_, hrest⟩ := Prod.mk.inj hcounters
  obtain ⟨hpacketId, hsegment⟩ := Prod.mk.inj hrest
  have hfew : (unsent L').length < 2 ^ 32 := by
    have hcount := hperm.length_eq
    have hle : (unsent L).length ≤ L.length := List.length_filter_le ..
    rw [List.length_append] at hcount
    omega
  refine ⟨_, L', news, .step (.heartbeat (c.now + 8 * j)) ⟨by omega, j + 1, pace', ?_, rfl⟩
      (hinv.fewUnsent hfew), ⟨hinv, hspent, hsegment.trans h.segmentSize⟩, hperm, hlength, hleast,
    hsuffix, hpacketId⟩
  exact fun fuel hfuel => hrun fuel hfuel

/-- Packets are sent one by one, and none waits. -/
theorem Ready.idle (n : Nat) (h : Ready c []) :
    ∃ c', Reaches c c' ∧ Ready c' [] ∧
      c'.snd.packetId = c.snd.packetId + BitVec.ofNat 32 n := by
  induction n generalizing c with
  | zero => exact ⟨c, ⟨[], .nil⟩, h, (BitVec.add_zero _).symm⟩
  | succ n ih =>
      obtain ⟨c₁, M, hreach₁, hready₁, hM, hseqs, hfields, hnow₁, hid₁⟩ :=
        h.puts 1 (by decide) (by decide)
      have hlen : M.length = 1 := by
        have := congrArg List.length hseqs
        simpa [length_packetIds] using this
      rw [List.nil_append] at hready₁
      obtain ⟨c₂, L', news, hreach₂, hready₂, hperm, hcount, _, _, hid₂⟩ :=
        hready₁.heartbeat (j := 1) (by rwa [hnow₁]) (by omega) (by decide) (by decide)
          (by rw [hM, hlen])
      have hnil : L' = [] := by
        by_contra hne
        obtain ⟨p, hp⟩ := hready₂.inv.que.exists_unsent hne
        have hlength := hperm.length_eq
        have hpos := List.length_pos_of_mem hp
        rw [hM, List.length_append] at hlength
        omega
      subst hnil
      obtain ⟨c', hreach, hready, hid⟩ := ih hready₂
      refine ⟨c', (hreach₁.trans hreach₂).trans hreach, hready, ?_⟩
      rw [hid, hid₂, hid₁, BitVec.add_assoc, ← BitVec.ofNat_add, Nat.add_comm 1 n]

/-- The pacer rejects an id that it holds. -/
theorem put_seen (h : PacerQueue.Inv c.pace.que L c.now) (hsegment : c.snd.segmentSize = 1000)
    (hheld : c.snd.packetId.toFin ∈ L.map (·.event.seq)) :
    ∃ c', Step c (.putFakeData 0 0 c.now) c' ∧ c'.pace = c.pace ∧
      (c'.snd.cache.find? c.snd.packetId.toNat).isSome ∧
      c'.snd.packetId = c.snd.packetId + 1 ∧ c'.snd.segmentSize = 1000 ∧ c'.now = c.now ∧
      c'.sent = c.sent ∧ c'.made.length = c.made.length + 1 := by
  obtain ⟨a, ha⟩ := exists_free h.holds
  obtain ⟨c', seg, hstep, _, _, hpace, hcache, hid, hsegment', hnow, hsent, hmade⟩ :=
    step_zero hsegment ha
  obtain ⟨p, hp, hseq⟩ := List.mem_map.mp hheld
  refine ⟨c', hstep, ?_, ?_, hid, hsegment', hnow, hsent, hmade⟩
  · have hpush : c.pace.que.push a
        { seq := c.snd.packetId.toFin, retrans := 0, size := 32, queTs := c.now, sent := false } =
        (-1, c.pace.que) := h.push_seen a hp hseq (le_refl _)
    rw [hpace]
    simp only [PaceSender.insertPacket]
    rw [hpush]
  · rw [hcache]
    exact SortedMap.isSome_find?_insert ..

/-- An old packet waits while three that came later are sent. -/
theorem Ready.overtaken (h : Ready c []) (hid : c.snd.packetId = -1) :
    ∃ c' L', Reaches c c' ∧ Ready c' L' ∧ L'.length = 6 ∧ (unsent L').length = 3 ∧
      (-1 : BitVec 32).toFin ∈ L'.map (·.event.seq) ∧
      (0 : BitVec 32).toFin ∈ L'.map (·.event.seq) ∧
      (0 : BitVec 32).toFin ∉ (unsent L').map (·.event.seq) ∧ c'.snd.packetId = 5 := by
  obtain ⟨c₁, M, hreach₁, hready₁, hM, hseqs, hfields, hnow₁, hid₁⟩ :=
    h.puts 6 (by decide) (by decide)
  rw [hid] at hseqs hid₁
  rw [List.nil_append] at hready₁
  have hlen : M.length = 6 := by
    have hlength := congrArg List.length hseqs
    simpa [length_packetIds] using hlength
  obtain ⟨c', L', news, hreach, hready, hperm, hcount, hleast, hsuffix, hid'⟩ :=
    hready₁.heartbeat (j := 3) (by rwa [hnow₁]) (by omega) (by decide) (by decide)
      (by rw [hM, hlen]; decide)
  rw [hM] at hperm
  have hunsent : (unsent L').length = 3 := by
    have hlength := hperm.length_eq
    rw [List.length_append] at hlength
    omega
  -- the ids of the packets sent and of those left
  have hids : (news.map (·.event.seq) ++ (unsent L').map (·.event.seq)).Perm
      ((packetIds (-1) 6).map (·.toFin)) := by
    rw [← List.map_append, ← hseqs]
    exact (hperm.map _).symm
  have hnodup : (news.map (·.event.seq) ++ (unsent L').map (·.event.seq)).Nodup :=
    hids.nodup_iff.mpr (by decide)
  have hdisjoint := (List.nodup_append.mp hnodup).2.2
  have hlast : (-1 : BitVec 32).toFin ∈ (unsent L').map (·.event.seq) := by
    have hmem : (-1 : BitVec 32).toFin ∈ news.map (·.event.seq) ++
        (unsent L').map (·.event.seq) := hids.mem_iff.mpr (by decide)
    refine (List.mem_append.mp hmem).resolve_left ?_
    intro hnew
    obtain ⟨p, hp, hpseq⟩ := List.mem_map.mp hnew
    obtain ⟨q, hq⟩ := List.exists_mem_of_length_pos (by omega : 0 < (unsent L').length)
    have hle := hleast p hp q hq
    have hmax : q.event.seq ≤ (-1 : BitVec 32).toFin := Fin.le_last q.event.seq
    refine hdisjoint _ hnew _ (List.mem_map_of_mem hq) ?_
    exact le_antisymm (hpseq ▸ hle) hmax
  have hzero : (0 : BitVec 32).toFin ∉ (unsent L').map (·.event.seq) := by
    intro hleft
    obtain ⟨q, hq, hqseq⟩ := List.mem_map.mp hleft
    obtain ⟨p, hp⟩ := List.exists_mem_of_length_pos (by omega : 0 < news.length)
    have hle := hleast p hp q hq
    refine hdisjoint _ (List.mem_map_of_mem hp) _ hleft ?_
    exact le_antisymm (hqseq ▸ hle) (Fin.zero_le _)
  -- the old packet is the first, so the pacer lets go of none
  have hall : L'.map (·.event.seq) = M.map (·.event.seq) := by
    have hheld : (-1 : BitVec 32).toFin ∈ L'.map (·.event.seq) := by
      obtain ⟨p, hp, hpseq⟩ := List.mem_map.mp hlast
      exact List.mem_map.mpr ⟨p, (mem_unsent.mp hp).1, hpseq⟩
    rw [hseqs] at hsuffix ⊢
    refine (List.suffix_cons_iff.mp hsuffix).resolve_right ?_
    intro hrest
    exact absurd (hrest.subset hheld) (by decide)
  refine ⟨c', L', hreach₁.trans hreach, hready, ?_, hunsent, ?_, ?_, hzero, ?_⟩
  · rw [← hlen, ← List.length_map (fun p : Queued => p.event.seq), hall, List.length_map]
  · rw [hall, hseqs]
    decide
  · rw [hall, hseqs]
    decide
  · rw [hid', hid₁]
    rfl

/-- **The sizes of segments** do not sum to the size of a frame if a segment is longer
than its field counts. -/
theorem reaches_truncated : ∃ c, Reaches (create 70000 3000 0) c ∧ ¬ Coupled c := by
  let c₀ : SimPipeline := create 70000 3000 0
  obtain ⟨snd, hput⟩ : ∃ snd, c₀.snd.putFakeData 0 70000 0 = some snd := by
    unfold SimSender.putFakeData
    rw [if_pos (by decide)]
    exact ⟨_, rfl⟩
  have hsplits : SimSender.frameSplit c₀.snd.segmentSize.toNat (70000 : BitVec 32).toNat =
      [4464] := by decide
  obtain ⟨seg, hsegs, hsegSize⟩ : ∃ seg, c₀.snd.madeSegments 0 70000 0 = [seg] ∧
      seg.dataSize = 4464 := by
    simp only [SimSender.madeSegments, hsplits, FrameFields.segments]
    exact ⟨_, rfl, rfl⟩
  obtain ⟨pace, hadd⟩ : ∃ pace, c₀.pace.AddPackets (0 : Nat)
      (c₀.snd.madeSegments 0 70000 0) pace := by
    rw [hsegs]
    exact ⟨_, 0, rfl, rfl⟩
  obtain ⟨c, hstep, hmade, hsent, hframes⟩ : ∃ c, Step c₀ (.putFakeData 0 70000 0) c ∧
      c.made.length = 1 ∧ c.sent.length = 0 ∧ c.frames = [(70000, [seg])] := by
    refine ⟨_, ⟨le_refl _, snd, pace, hput, hadd, rfl⟩, ?_, rfl, ?_⟩
    · rw [hsegs]
      rfl
    · rw [hsegs]
      rfl
  have hfew : c.FewUnsent := by
    unfold FewUnsent
    rw [hmade, hsent]
    decide
  refine ⟨c, .step _ hstep hfew, ?_⟩
  intro hcoupled
  obtain ⟨_, hisFrame⟩ := hcoupled.isFrame (70000, [seg]) (hframes ▸ List.mem_cons_self ..)
  have hsum := hisFrame.dataSize
  simp only [List.map_cons, List.map_nil, List.sum_singleton, hsegSize] at hsum
  exact absurd hsum (by decide)

/-- **The cache and the pacer part** where a sent packet that the pacer holds lends its
id to a new one. Fewer than `2 ^ 32` segments are ever unsent. -/
theorem reaches_collision : ∃ c, Reaches (create 1000 3000 0) c ∧ ¬ Coupled c := by
  let c₀ : SimPipeline := { create 1000 3000 0 with
    pace := (create 1000 3000 0).pace.setEstimateBitrate 32000 }
  have hready₀ : Ready c₀ [] := by
    refine ⟨{ create_inv (by decide) (by decide) 3000 0 with }, ?_, rfl⟩
    exact ⟨rfl, rfl, by decide, rfl, by decide, rfl⟩
  have hreach₀ : Reaches (create 1000 3000 0) c₀ :=
    .step (.setEstimateBitrate 32000) rfl (by
      show 0 < 0 + 2 ^ 32
      decide)
  obtain ⟨c₁, hreach₁, hready₁, hid₁⟩ := hready₀.idle (2 ^ 32 - 2)
  obtain ⟨c₂, L, hreach₂, hready₂, hlen, hcount, hold, hsent, hzero, hid₂⟩ :=
    hready₁.overtaken (hid₁.trans (by decide))
  obtain ⟨c₃, M, hreach₃, hready₃, hM, hseqs, _, _, hid₃⟩ :=
    hready₂.puts (2 ^ 32 - 6) (by omega) (by omega)
  have hMlen : M.length = 2 ^ 32 - 6 := by
    have hlength := congrArg List.length hseqs
    rwa [List.length_map, List.length_map, length_packetIds] at hlength
  have hzero₃ : (0 : BitVec 32).toFin ∉ (unsent (L ++ M)).map (·.event.seq) := by
    rw [unsent_append, hM, List.map_append]
    intro hmem
    have hnodup := hready₃.inv.que.holds.seq_nodup
    rw [List.map_append] at hnodup
    rcases List.mem_append.mp hmem with hmem | hmem
    · exact hzero hmem
    · exact (List.nodup_append.mp hnodup).2.2 _ hsent _ hmem rfl
  have hmade₃ : c₃.made.length = c₃.sent.length + (2 ^ 32 - 3) := by
    have hmade := hready₃.inv.owes.once.length_eq
    have hkeys := hready₃.inv.owes.keys.length_eq
    rw [unsent_append, hM] at hkeys
    simp only [List.length_append, List.length_map] at hmade hkeys
    omega
  have hid₃' : c₃.snd.packetId = -1 := by
    rw [hid₃, hid₂]
    decide
  -- the id of the old packet, and the id of one that has been sent
  obtain ⟨c₄, hstep₄, hpace₄, _, hid₄, hsegment₄, hnow₄, hsent₄, hmade₄⟩ :=
    put_seen hready₃.inv.que hready₃.segmentSize (by
      rw [hid₃', List.map_append]
      exact List.mem_append_left _ hold)
  have hid₄' : c₄.snd.packetId = 0 := by
    rw [hid₄, hid₃']
    decide
  obtain ⟨c₅, hstep₅, hpace₅, hfind₅, _, _, _, hsent₅, hmade₅⟩ :=
    put_seen (c := c₄) (L := L ++ M) (by
      rw [hpace₄, hnow₄]
      exact hready₃.inv.que) hsegment₄ (by
      rw [hid₄', List.map_append]
      exact List.mem_append_left _ hsent)
  have hreach₄ : Reaches c₃ c₄ := .step _ hstep₄ (by
    unfold FewUnsent
    rw [hmade₄, hsent₄]
    omega)
  have hreach₅ : Reaches c₄ c₅ := .step _ hstep₅ (by
    unfold FewUnsent
    rw [hmade₅, hsent₅, hmade₄, hsent₄]
    omega)
  refine ⟨c₅, ((((hreach₀.trans hreach₁).trans hreach₂).trans hreach₃).trans hreach₄).trans
    hreach₅, ?_⟩
  intro hcoupled
  have hunsent : c₅.unsentSeqs = (unsent (L ++ M)).map (·.event.seq) := by
    apply unsentSeqs_eq
    rw [hpace₅, hpace₄]
    exact hready₃.inv.que.holds
  obtain ⟨b, hb, hkey⟩ := SortedMap.isSome_find?_iff.mp hfind₅
  have hmem : b.1 ∈ c₅.unsentSeqs.map (·.val) :=
    hcoupled.keys.mem_iff.mp (List.mem_map_of_mem hb)
  obtain ⟨seq, hseq, hval⟩ := List.mem_map.mp hmem
  apply hzero₃
  rw [hunsent] at hseq
  have hfin : seq = (0 : BitVec 32).toFin := by
    apply Fin.ext
    rw [hval, hkey, hid₄']
    rfl
  exact hfin ▸ hseq

/-- Sender and pacer do not always agree: a segment may be too long for its field, and
an old packet may wait until its successors lend their ids again. -/
theorem coupled_not_always :
    (∃ c, Reaches (create 70000 3000 0) c ∧ ¬ Coupled c) ∧
    ∃ c, Reaches (create 1000 3000 0) c ∧ ¬ Coupled c :=
  ⟨reaches_truncated, reaches_collision⟩

end SimPipeline

end Razor
