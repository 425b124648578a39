import RmcatNs3.Lib.Runs
import RmcatNs3.Razor.ProxySteps
import RmcatNs3.Razor.RazorHeader
import RmcatNs3.Razor.ReceiverCc

/-!
# Which feedback survives the wire

Runs of the receiver's congestion controller. A feedback always fits in the
packet. It is decoded as it was sent, unless the arrivals that it reports lie
more than 65535 ms apart: nothing in the proxy bounds their distance.
-/

namespace Razor

open Runs EstimatorProxy FeedbackMsg

/-! ## The earliest arrival -/

/-- Arrival times as `int64_t` numbers that are not negative. -/
def InRange (ts : Int) : Prop := 0 ≤ ts ∧ ts < 2 ^ 63

theorem toInt_ofInt {ts : Int} (h : InRange ts) : (BitVec.ofInt 64 ts).toInt = ts := by
  obtain ⟨h0, hlt⟩ := h
  rw [BitVec.toInt_ofInt]
  exact Int.bmod_eq_of_le (by omega) (by omega)

theorem minStep_ofInt {m : Int} (hm : InRange m) {b : Int × Int} (hb : InRange b.2) :
    minStep (BitVec.ofInt 64 m) b = BitVec.ofInt 64 (min m b.2) := by
  have hne : BitVec.ofInt 64 m ≠ -1 := by
    intro heq
    have htoInt := congrArg BitVec.toInt heq
    rw [toInt_ofInt hm] at htoInt
    have h0 := hm.1
    have hneg : (-1 : BitVec 64).toInt = -1 := rfl
    omega
  unfold minStep
  simp only [hne, false_or, BitVec.slt, toInt_ofInt hm, toInt_ofInt hb, decide_eq_true_eq]
  by_cases hlt : b.2 < m
  · rw [if_pos hlt, min_eq_right (le_of_lt hlt)]
  · rw [if_neg hlt, min_eq_left (not_lt.mp hlt)]

theorem foldl_minStep {entries : List (Int × Int)} {m : Int} (hm : InRange m)
    (h : ∀ b ∈ entries, InRange b.2) :
    ∃ k, entries.foldl minStep (BitVec.ofInt 64 m) = BitVec.ofInt 64 k ∧ k ≤ m ∧
      (k = m ∨ ∃ b ∈ entries, k = b.2) ∧ ∀ b ∈ entries, k ≤ b.2 := by
  induction entries generalizing m with
  | nil => exact ⟨m, rfl, le_refl m, .inl rfl, nofun⟩
  | cons b rest ih =>
      have hb := h b List.mem_cons_self
      have hmin : InRange (min m b.2) :=
        ⟨le_min hm.1 hb.1, lt_of_le_of_lt (min_le_left _ _) hm.2⟩
      obtain ⟨k, hfold, hle, hfrom, hall⟩ :=
        ih hmin fun c hc => h c (List.mem_cons_of_mem _ hc)
      refine ⟨k, ?_, hle.trans (min_le_left _ _), ?_, ?_⟩
      · rw [List.foldl_cons, minStep_ofInt hm hb, hfold]
      · rcases hfrom with rfl | ⟨c, hc, rfl⟩
        · rcases min_choice m b.2 with hmin | hmin
          · exact .inl hmin
          · exact .inr ⟨b, List.mem_cons_self, hmin⟩
        · exact .inr ⟨c, List.mem_cons_of_mem _ hc, rfl⟩
      · intro c hc
        rcases List.mem_cons.mp hc with rfl | hc
        · exact hle.trans (min_le_right _ _)
        · exact hall c hc

/-- **`min_ts`** is the earliest arrival time. -/
theorem minTs_eq {entries : List (Int × Int)} (hne : entries ≠ [])
    (h : ∀ b ∈ entries, InRange b.2) :
    ∃ a ∈ entries, entries.foldl minStep (-1) = BitVec.ofInt 64 a.2 ∧
      ∀ b ∈ entries, a.2 ≤ b.2 := by
  cases entries with
  | nil => exact absurd rfl hne
  | cons b rest =>
      have hb := h b List.mem_cons_self
      obtain ⟨k, hfold, hle, hfrom, hall⟩ :=
        foldl_minStep hb fun c hc => h c (List.mem_cons_of_mem _ hc)
      have hfirst : minStep (-1) b = BitVec.ofInt 64 b.2 := if_pos (.inl rfl)
      have hleast : ∀ c ∈ b :: rest, k ≤ c.2 := by
        intro c hc
        rcases List.mem_cons.mp hc with rfl | hc
        · exact hle
        · exact hall c hc
      rcases hfrom with rfl | ⟨c, hc, rfl⟩
      · exact ⟨b, List.mem_cons_self, by rw [List.foldl_cons, hfirst, hfold], hleast⟩
      · exact ⟨c, List.mem_cons_of_mem _ hc, by rw [List.foldl_cons, hfirst, hfold], hleast⟩

/-- Two of the entries are too far apart for the wire. -/
def Wide (entries : List (Int × Int)) : Prop :=
  ∃ a ∈ entries, ∃ b ∈ entries, 65535 < b.2 - a.2

instance (entries : List (Int × Int)) : Decidable (Wide entries) :=
  inferInstanceAs (Decidable (∃ a ∈ entries, ∃ b ∈ entries, 65535 < b.2 - a.2))

/-- **The arrival times of a report are near** exactly if no two are too far
apart. -/
theorem near_iff {msg : FeedbackMsg} {entries : List (Int × Int)}
    (hflag : msg.hasFlag proxyTsMsg = true) (hreports : Reports msg entries)
    (hne : entries ≠ []) (h : ∀ b ∈ entries, InRange b.2) :
    msg.Near ↔ ¬ Wide entries := by
  obtain ⟨a, ha, hmin, hleast⟩ := minTs_eq hne h
  have hdist : ∀ b ∈ entries,
      ((sampleOf b).ts - msg.minTs).toNat < 2 ^ 16 ↔ b.2 - a.2 ≤ 65535 := by
    intro b hb
    have hle := hleast b hb
    have hlt := (h b hb).2
    have h0 := (h a ha).1
    rw [hreports.minTs, hmin, sampleOf, BitVec.sub_eq_add_neg, ← BitVec.ofInt_neg,
      ← BitVec.ofInt_add, BitVec.toNat_ofInt]
    omega
  constructor
  · rintro hnear ⟨c, hc, b, hb, hfar⟩
    obtain ⟨i, hi, hget⟩ := List.mem_iff_getElem.mp hb
    have hload : BoundedArray.load msg.samples i = some (sampleOf b) := by
      rw [hreports.samples i hi, List.getElem?_map, List.getElem?_eq_getElem hi, hget]
      rfl
    have hb' := (hdist b hb).mp
      (hnear hflag i (by rw [hreports.samplesNum]; exact hi) _ hload)
    have hc' := hleast c hc
    omega
  · intro hwide _ i hi sample hload
    rw [hreports.samplesNum] at hi
    rw [hreports.samples i hi, List.getElem?_map, List.getElem?_eq_getElem hi] at hload
    obtain rfl := Option.some.inj hload
    have hb := List.getElem_mem hi
    refine (hdist _ hb).mpr ?_
    by_contra hfar
    exact hwide ⟨a, ha, _, hb, by omega⟩

/-! ## One heartbeat -/

/-- The proxy has a feedback to build. -/
def EstimatorProxy.Builds (proxy : EstimatorProxy) (curTs : Int) : Prop :=
  curTs ≥ proxy.hbTs + proxy.sendIntervalMs ∧
  ¬ (proxy.maxArrivalSeq ≤ proxy.wndStartSeq ∧ 2 < proxy.arrivalTimes.size) ∧
  2 < proxy.reportable.length

instance (proxy : EstimatorProxy) (curTs : Int) : Decidable (proxy.Builds curTs) :=
  inferInstanceAs (Decidable (_ ∧ _))

theorem bulid_idle (proxy : EstimatorProxy) (msg : FeedbackMsg)
    (hidle : proxy.maxArrivalSeq ≤ proxy.wndStartSeq ∧ 2 < proxy.arrivalTimes.size) :
    proxy.bulidFeelbackPacket msg = some (-1, proxy, msg) :=
  if_pos hidle

/-- `estimator_proxy_heartbeat` returns `0` exactly if there is a feedback to
build. -/
theorem proxyHeartbeat_cases (proxy : EstimatorProxy) (curTs : Int) (msg : FeedbackMsg) :
    ∃ ret proxy' msg', proxy.heartbeat curTs msg = some (ret, proxy', msg') ∧
      SameInfo msg msg' ∧ proxy'.arrivalTimes = proxy.arrivalTimes ∧
      (ret = -1 ∧ ¬ proxy.Builds curTs ∨
        ret = 0 ∧ proxy.Builds curTs ∧ Reports msg' proxy.reportable) := by
  unfold EstimatorProxy.heartbeat
  by_cases hdue : curTs ≥ proxy.hbTs + proxy.sendIntervalMs
  · rw [if_pos hdue]
    obtain ⟨ret, proxy', msg', hbulid, hinfo, hcases⟩ :=
      bulid_cases { proxy with hbTs := curTs } msg
    rcases hcases with ⟨rfl, rfl, hwhy⟩ | ⟨rfl, hmany, rfl, _, hreports⟩
    · refine ⟨-1, _, msg', hbulid, hinfo, rfl, .inl ⟨rfl, ?_⟩⟩
      rintro ⟨_, hidle, hmany⟩
      rcases hwhy with h | h
      · exact hidle h
      · exact absurd hmany (not_lt.mpr h)
    · refine ⟨0, _, msg', hbulid, hinfo, rfl, .inr ⟨rfl, ⟨hdue, ?_, hmany⟩, hreports⟩⟩
      intro hidle
      have heq := (bulid_idle { proxy with hbTs := curTs } msg hidle).symm.trans hbulid
      simp at heq
  · rw [if_neg hdue]
    exact ⟨-1, proxy, msg, rfl, ⟨rfl, rfl, rfl, rfl⟩, rfl, .inl ⟨rfl, fun h => hdue h.1⟩⟩

namespace ReceiverCc

/-- The message before the proxy writes its part has not its flag. -/
theorem collect_eq (cc : ReceiverCc) (nowTs rbeRet : Int) (remb : BitVec 32)
    (msg : FeedbackMsg) :
    ∃ msg₁ lossStat, (msg₁.flag &&& proxyTsMsg == proxyTsMsg) = false ∧
      ((msg₁.flag ||| proxyTsMsg) &&& proxyTsMsg == proxyTsMsg) = true ∧
      cc.collect nowTs rbeRet remb msg = (cc.proxy.heartbeat nowTs msg₁).bind fun r =>
        some ({ proxy := r.2.1, lossStat }, if r.1 = 0 then
          { r.2.2 with flag := r.2.2.flag ||| proxyTsMsg } else r.2.2) := by
  rcases hloss : cc.lossStat.calculate nowTs with ⟨lossRet, fractionLoss, packetNum, lossStat⟩
  let flag : BitVec 8 :=
    (if rbeRet = 0 then rembMsg else 0) ||| (if lossRet = 0 then lossInfoMsg else 0)
  refine ⟨{ msg with flag, remb, fractionLoss, packetNum }, lossStat, ?_, ?_, ?_⟩
  · simp only [flag]
    split_ifs <;> decide
  · simp only [flag]
    split_ifs <;> decide
  · unfold collect
    simp only [hloss, flag]
    by_cases hrbe : rbeRet = 0
    · by_cases hlost : lossRet = 0
      · simp [hrbe, hlost]
      · simp [hrbe, hlost]
    · by_cases hlost : lossRet = 0
      · simp [hrbe, hlost]
      · simp [hrbe, hlost]

/-- The message of a heartbeat reports the entries that the proxy has to
report. -/
theorem collect_cases (cc : ReceiverCc) (nowTs rbeRet : Int) (remb : BitVec 32)
    (msg : FeedbackMsg) :
    ∃ cc' msg', cc.collect nowTs rbeRet remb msg = some (cc', msg') ∧
      cc'.proxy.arrivalTimes = cc.proxy.arrivalTimes ∧
      (¬ cc.proxy.Builds nowTs ∧ msg'.hasFlag proxyTsMsg = false ∨
        cc.proxy.Builds nowTs ∧ msg'.hasFlag proxyTsMsg = true ∧
          Reports msg' cc.proxy.reportable) := by
  obtain ⟨msg₁, lossStat, hunset, hset, hcollect⟩ := cc.collect_eq nowTs rbeRet remb msg
  obtain ⟨ret, proxy', msg', hheart, ⟨hflag, _⟩, htimes, hcases⟩ :=
    proxyHeartbeat_cases cc.proxy nowTs msg₁
  rw [hcollect, hheart, Option.bind_some]
  rcases hcases with ⟨rfl, hnot⟩ | ⟨rfl, hbuilds, hreports⟩
  · refine ⟨_, _, rfl, htimes, .inl ⟨hnot, ?_⟩⟩
    rw [if_neg (show ¬ (-1 : Int) = 0 by decide), hasFlag, hflag, hunset]
  · refine ⟨_, _, rfl, htimes, .inr ⟨hbuilds, ?_, ?_⟩⟩
    · rw [if_pos rfl, hasFlag, hflag, hset]
    · rw [if_pos rfl]
      exact ⟨hreports.samplesNum, hreports.samples, hreports.minTs⟩

/-- **A heartbeat** returns, and sends the bytes of its message. -/
theorem heartbeat_cases (cc : ReceiverCc) (nowTs rbeRet : Int) (remb : BitVec 32)
    (msg : FeedbackMsg) (data : StructMemory.Mem) :
    ∃ cc' out, cc.heartbeat nowTs rbeRet remb msg data = some (cc', out) ∧
      cc'.proxy.arrivalTimes = cc.proxy.arrivalTimes ∧
      (∀ m ∈ out, m.1.WellFormed ∧ m.2 = m.1.wire) ∧
      (¬ cc.proxy.Builds nowTs ∧ (∀ m ∈ out, m.1.hasFlag proxyTsMsg = false) ∨
        cc.proxy.Builds nowTs ∧ ∃ m, out = some m ∧ m.1.hasFlag proxyTsMsg = true ∧
          Reports m.1 cc.proxy.reportable) := by
  obtain ⟨cc', msg', hcollect, htimes, hcases⟩ := cc.collect_cases nowTs rbeRet remb msg
  have hwf : msg'.WellFormed := by
    intro hset
    rcases hcases with ⟨_, hunset⟩ | ⟨_, _, hreports⟩
    · rw [hunset] at hset
      cases hset
    · rw [hreports.samplesNum]
      exact cc.proxy.length_reportable_le
  obtain ⟨strm, hencode, hwriting⟩ := encode_eq (BinStream.init_writing data) hwf
  have hbytes : StructMemory.bytesAt strm.data 0 strm.used = msg'.wire := by
    rw [hwriting.used]
    exact hwriting.data
  unfold heartbeat
  rw [hcollect, Option.bind_eq_bind, Option.bind_some]
  by_cases hzero : msg'.flag = 0
  · refine ⟨cc', none, if_neg (not_not.mpr hzero), htimes, nofun, ?_⟩
    rcases hcases with ⟨hnot, _⟩ | ⟨_, hset, _⟩
    · exact .inl ⟨hnot, nofun⟩
    · rw [hasFlag, hzero] at hset
      cases hset
  · refine ⟨cc', some (msg', msg'.wire), ?_, htimes, ?_, ?_⟩
    · simp only [if_pos hzero, hencode, Option.bind_eq_bind, Option.bind_some, hbytes]
    · intro m hm
      obtain rfl := Option.some.inj hm
      exact ⟨hwf, rfl⟩
    · rcases hcases with ⟨hnot, hunset⟩ | ⟨hbuilds, hset, hreports⟩
      · refine .inl ⟨hnot, ?_⟩
        intro m hm
        obtain rfl := Option.some.inj hm
        exact hunset
      · exact .inr ⟨hbuilds, _, rfl, hset, hreports⟩

end ReceiverCc

/-! ## Runs of the receiver -/

/-- The receiver, and every feedback it has sent. -/
structure ReceiverRun where
  cc : ReceiverCc
  sent : List Feedback

/-- The calls, with what `GET_SYS_MS` and the estimator of the bitrate return in
them. -/
inductive ReceiverOp where
  | onReceived (nowTs : BitVec 64) (seq : TransportSeq) (remb : Int)
  | heartbeat (nowTs : BitVec 64) (rbeRet : Int) (remb : BitVec 32) (msg : FeedbackMsg)
      (data : StructMemory.Mem)

namespace ReceiverRun

def create : ReceiverRun := ⟨.create, []⟩

def Step (c : ReceiverRun) : ReceiverOp → ReceiverRun → Prop
  | .onReceived nowTs seq remb, c' =>
      c' = { c with cc := c.cc.onReceived nowTs.toInt seq remb }
  | .heartbeat nowTs rbeRet remb msg data, c' =>
      ∃ cc out, c.cc.heartbeat nowTs.toInt rbeRet remb msg data = some (cc, out) ∧
        c' = { cc, sent := c.sent ++ out.toList }

/-- Every feedback is decoded as it was sent. -/
def AllRoundTrip (c : ReceiverRun) : Prop :=
  ∀ m ∈ c.sent, m.1.RoundTrips m.2

/-- A heartbeat is safe unless it builds a feedback about arrivals that are too
far apart. -/
def Safe (c : ReceiverRun) : ReceiverOp → Prop
  | .onReceived .. => True
  | .heartbeat nowTs .. => ¬ (c.cc.proxy.Builds nowTs.toInt ∧ Wide c.cc.proxy.reportable)

/-- What holds after every run. -/
structure Inv (c : ReceiverRun) : Prop where
  inRange : ∀ b ∈ c.cc.proxy.arrivalTimes, InRange b.2
  fits : ∀ m ∈ c.sent, m.2.length ≤ simFeedbackSize

variable {c c' : ReceiverRun} {ops : List ReceiverOp}

theorem Inv.onReceived (h : Inv c) (nowTs : BitVec 64) (seq : TransportSeq) (remb : Int) :
    Inv { c with cc := c.cc.onReceived nowTs.toInt seq remb } := by
  refine ⟨?_, h.fits⟩
  by_cases hremb : remb = 0
  · simpa only [ReceiverCc.onReceived, if_pos hremb] using h.inRange
  · simp only [ReceiverCc.onReceived, if_neg hremb]
    rcases c.cc.proxy.incoming_cases nowTs.toInt 0 seq with
      ⟨_, heq⟩ | ⟨_, _, heq⟩ | ⟨h0, _, heq⟩
    · simpa only [heq] using h.inRange
    · simpa only [heq] using h.inRange
    · rw [heq]
      intro b hb
      rcases SortedMap.mem_insert.mp hb with hb | ⟨_, rfl⟩
      · exact h.inRange b (mem_kept.mp hb).1
      · have hlt := nowTs.toInt_lt
        exact ⟨h0, by simpa using hlt⟩

/-- **A heartbeat** sends at most one feedback. It is decoded as it was sent
exactly if the heartbeat is safe. -/
theorem Inv.heartbeat (h : Inv c) (nowTs : BitVec 64) (rbeRet : Int) (remb : BitVec 32)
    (msg : FeedbackMsg) (data : StructMemory.Mem)
    (hstep : Step c (.heartbeat nowTs rbeRet remb msg data) c') :
    Inv c' ∧ ∃ out : Option Feedback, c'.sent = c.sent ++ out.toList ∧
      ((∀ m ∈ out, m.1.RoundTrips m.2) ↔ Safe c (.heartbeat nowTs rbeRet remb msg data)) := by
  obtain ⟨cc, out, hheart, rfl⟩ := hstep
  obtain ⟨cc', out', hheart', htimes, hwire, hcases⟩ :=
    c.cc.heartbeat_cases nowTs.toInt rbeRet remb msg data
  obtain ⟨rfl, rfl⟩ := Prod.mk.inj (Option.some.inj (hheart.symm.trans hheart'))
  refine ⟨⟨?_, ?_⟩, out, rfl, ?_⟩
  · simpa only [htimes] using h.inRange
  · intro m hm
    rcases List.mem_append.mp hm with hm | hm
    · exact h.fits m hm
    · obtain ⟨hwf, hbytes⟩ := hwire m (Option.mem_toList.mp hm)
      rw [hbytes]
      exact (length_wire_le hwf).trans (by decide)
  · rcases hcases with ⟨hnot, hunset⟩ | ⟨hbuilds, m, rfl, hset, hreports⟩
    · refine iff_of_true (fun m hm => ?_) fun hbad => hnot hbad.1
      obtain ⟨hwf, hbytes⟩ := hwire m hm
      rw [hbytes, roundTrips_wire_iff hwf]
      intro hset
      rw [hunset m hm] at hset
      cases hset
    · obtain ⟨hwf, hbytes⟩ := hwire m rfl
      have hne : c.cc.proxy.reportable ≠ [] :=
        List.ne_nil_of_length_pos (Nat.zero_lt_of_lt hbuilds.2.2)
      have hnear := near_iff hset hreports hne
        fun b hb => h.inRange b (mem_reportable hb).1
      have hall : (∀ m' ∈ some m, m'.1.RoundTrips m'.2) ↔ m.1.RoundTrips m.2 := by
        simp
      rw [hall, hbytes, roundTrips_wire_iff hwf, hnear]
      exact ⟨fun hwide hbad => hwide hbad.2, fun hsafe hwide => hsafe ⟨hbuilds, hwide⟩⟩

theorem create_inv : Inv create := ⟨nofun, nofun⟩

theorem Inv.step (h : Inv c) {op : ReceiverOp} (hstep : Step c op c') : Inv c' := by
  cases op with
  | onReceived nowTs seq remb =>
      obtain rfl := hstep
      exact h.onReceived nowTs seq remb
  | heartbeat nowTs rbeRet remb msg data =>
      exact (h.heartbeat nowTs rbeRet remb msg data hstep).1

/-- **One call** keeps the feedbacks intact exactly if it is safe. -/
theorem Inv.allRoundTrip_iff (h : Inv c) (hall : AllRoundTrip c) {op : ReceiverOp}
    (hstep : Step c op c') : AllRoundTrip c' ↔ Safe c op := by
  cases op with
  | onReceived nowTs seq remb =>
      obtain rfl := hstep
      exact iff_of_true hall trivial
  | heartbeat nowTs rbeRet remb msg data =>
      obtain ⟨_, out, hsent, htrip⟩ := h.heartbeat nowTs rbeRet remb msg data hstep
      rw [← htrip, AllRoundTrip, hsent]
      constructor
      · intro hnew m hm
        exact hnew m (List.mem_append_right _ (Option.mem_toList.mpr hm))
      · intro hnew m hm
        rcases List.mem_append.mp hm with hm | hm
        · exact hall m hm
        · exact hnew m (Option.mem_toList.mp hm)

theorem inv_of_run (hrun : Run Step create ops c) : Inv c :=
  hrun.stateInvariant create_inv fun _ _ _ h hstep => h.step hstep

/-- **Every call returns.** -/
theorem exists_step (c : ReceiverRun) (op : ReceiverOp) : ∃ c', Step c op c' := by
  cases op with
  | onReceived nowTs seq remb => exact ⟨_, rfl⟩
  | heartbeat nowTs rbeRet remb msg data =>
      obtain ⟨cc, out, hheart, _⟩ :=
        c.cc.heartbeat_cases nowTs.toInt rbeRet remb msg data
      exact ⟨_, cc, out, hheart, rfl⟩

/-- A call after which every feedback is decoded as it was sent. -/
def FaithfulStep (c : ReceiverRun) (op : ReceiverOp) (c' : ReceiverRun) : Prop :=
  Step c op c' ∧ AllRoundTrip c'

def SafeStep (c : ReceiverRun) (op : ReceiverOp) (c' : ReceiverRun) : Prop :=
  Step c op c' ∧ Safe c op

/-- **The feedbacks of a run are decoded as they were sent, exactly as long as
every heartbeat is safe**; and in every run the bytes of each fit in the packet. -/
theorem faithful_iff_safe :
    (Run FaithfulStep create ops c ↔ Run SafeStep create ops c) ∧
    (Run Step create ops c → ∀ m ∈ c.sent, m.2.length ≤ simFeedbackSize) := by
  have hall : ∀ {ops c}, Run FaithfulStep create ops c → AllRoundTrip c := by
    intro ops c hrun
    exact hrun.stateInvariant nofun fun _ _ _ _ hstep => hstep.2
  refine ⟨⟨fun hrun => ?_, fun hrun => ?_⟩, fun hrun => (inv_of_run hrun).fits⟩
  · induction hrun with
    | nil => exact .nil
    | snoc hr hs ih =>
        have hinv := inv_of_run (hr.mono fun _ _ _ h => h.1)
        exact .snoc ih ⟨hs.1, (hinv.allRoundTrip_iff (hall hr) hs.1).mp hs.2⟩
  · induction hrun with
    | nil => exact .nil
    | snoc hr hs ih =>
        have hinv := inv_of_run (hr.mono fun _ _ _ h => h.1)
        exact .snoc ih ⟨hs.1, (hinv.allRoundTrip_iff (hall ih) hs.1).mpr hs.2⟩

/-- The arrivals at 0, 100 and 70100 ms are reported together, and the last one
comes back as 4564. -/
theorem late_arrival_garbled : ∃ c, Run Step create
      [.onReceived 0 0 1, .onReceived 100 1 1, .onReceived 70100 2 1,
        .heartbeat 70100 (-1) 0 ⟨0, 0, 0, 0, 0, 0, 0, .replicate _ ⟨0, 0⟩⟩ fun _ => 0] c ∧
    ¬ AllRoundTrip c := by
  obtain ⟨c₁, hrun, hfar⟩ : ∃ c₁, Run Step create
      [.onReceived 0 0 1, .onReceived 100 1 1, .onReceived 70100 2 1] c₁ ∧
      c₁.cc.proxy.Builds 70100 ∧ Wide c₁.cc.proxy.reportable ∧ c₁.sent = [] :=
    ⟨_, .snoc (.snoc (.snoc .nil rfl) rfl) rfl, by decide, by decide, rfl⟩
  obtain ⟨c, hstep⟩ := exists_step c₁
    (.heartbeat 70100 (-1) 0 ⟨0, 0, 0, 0, 0, 0, 0, .replicate _ ⟨0, 0⟩⟩ fun _ => 0)
  refine ⟨c, .snoc hrun hstep, fun hall => ?_⟩
  have hbefore : AllRoundTrip c₁ := by
    intro m hm
    rw [hfar.2.2] at hm
    cases hm
  exact ((inv_of_run hrun).allRoundTrip_iff hbefore hstep).mp hall ⟨hfar.1, hfar.2.1⟩

end ReceiverRun

end Razor
