import RmcatNs3.Lib.Runs
import RmcatNs3.Razor.ProxySteps

/-!
# Arrivals under their true sequence numbers

Runs in which the arrivals have true sequence numbers, of which the proxy is
given the low 16 bits. The unwrapper follows the true numbers, so every arrival
that is not too far ahead of the window is recorded under its own; and the base
of a feedback is the start of the window, a recorded arrival or the place where
the last feedback ended.
-/

namespace Razor

open Runs EstimatorProxy

/-- The proxy, the true sequence numbers of the arrivals, every sequence number
that has ever been in `arrival_times`, and the last one that the previous
feedback has reported. -/
structure TrueRun where
  proxy : EstimatorProxy
  arrived : List Nat
  recorded : List Int
  lastReported : Option Int

inductive TrueOp where
  | arrive (s : Nat) (arrivalTs : Int) (ssrc : BitVec 32)
  | bulidFeelbackPacket (msg : FeedbackMsg)

namespace TrueRun

def create (ssrc : BitVec 32) : TrueRun := ⟨.create ssrc, [], [], none⟩

/-- The first arrival has a 16-bit number, and no arrival is `2 ^ 15` away from
the one before it. -/
def Near : Option Nat → Nat → Prop
  | none, s => s < 2 ^ 16
  | some p, s => s < p + 2 ^ 15 ∧ p < s + 2 ^ 15

instance : ∀ p s, Decidable (Near p s)
  | none, s => inferInstanceAs (Decidable (s < 2 ^ 16))
  | some p, s => inferInstanceAs (Decidable (s < p + 2 ^ 15 ∧ p < s + 2 ^ 15))

/-- One call. The clock that gives the arrival times starts at `0`. -/
def Step (c : TrueRun) : TrueOp → TrueRun → Prop
  | .arrive s arrivalTs ssrc, c' =>
      0 ≤ arrivalTs ∧ Near c.arrived.getLast? s ∧
      c' = { c with
        proxy := c.proxy.incoming arrivalTs ssrc (Unwrapper.low16 s)
        arrived := c.arrived ++ [s]
        recorded := c.recorded ++
          (c.proxy.incoming arrivalTs ssrc (Unwrapper.low16 s)).arrivalTimes.toList.map
            (·.1) }
  | .bulidFeelbackPacket msg, c' =>
      ∃ ret proxy msg', c.proxy.bulidFeelbackPacket msg = some (ret, proxy, msg') ∧
        c' = { c with
          proxy
          lastReported := if ret = 0 then (c.proxy.reportable.getLast?).map (·.1)
            else c.lastReported }

/-- What holds after every run. -/
structure Inv (c : TrueRun) : Prop where
  lastValue : c.proxy.unwrapper.lastValue = ((c.arrived.getLast?).getD 0 : Nat)
  recorded : ∀ b ∈ c.proxy.arrivalTimes, b.1 ∈ c.recorded
  arrived : ∀ k ∈ c.recorded, ∃ s ∈ c.arrived, k = (s : Int)
  start : c.proxy.wndStartSeq = -1 ∧ c.proxy.arrivalTimes.toList = [] ∨
    0 ≤ c.proxy.wndStartSeq ∧ (c.proxy.wndStartSeq ∈ c.recorded ∨
      ∃ k, c.lastReported = some k ∧ c.proxy.wndStartSeq = k + 1)

theorem create_inv (ssrc : BitVec 32) : Inv (create ssrc) :=
  ⟨rfl, nofun, nofun, .inl ⟨rfl, rfl⟩⟩

variable {c c' : TrueRun}

/-- **The unwrapper follows** the true sequence numbers. -/
theorem Inv.unwrapped_eq (h : Inv c) {s : Nat} (hnear : Near c.arrived.getLast? s) :
    c.proxy.unwrapped (Unwrapper.low16 s) = s := by
  have hlast := h.lastValue
  cases hprev : c.arrived.getLast? with
  | none =>
      rw [hprev] at hnear hlast
      have hinit : c.proxy.unwrapper = Unwrapper.init16 := congrArg Unwrapper.mk hlast
      have hcast := Unwrapper.low16_cast s
      have hlt : s < 2 ^ 16 := hnear
      rw [unwrapped, hinit, Unwrapper.wrap16Update_init, hcast]
      omega
  | some p =>
      rw [hprev] at hnear hlast
      have hpos : c.proxy.unwrapper.lastValue = (p : Int) := hlast
      obtain ⟨hhigh, hlow⟩ := hnear
      exact Unwrapper.wrap16Update_low16 (Int.natCast_nonneg s) (by omega) (by omega)

/-- The sequence numbers that are recorded after an arrival. -/
theorem mem_recording {proxy : EstimatorProxy} {arrivalTs : Int} {ssrc : BitVec 32}
    {seq : TransportSeq} {b : Int × Int}
    (hb : b ∈ (proxy.recording arrivalTs ssrc seq).arrivalTimes) :
    b ∈ proxy.arrivalTimes ∨ b.1 = proxy.unwrapped seq := by
  rcases SortedMap.mem_insert.mp hb with hb | ⟨_, rfl⟩
  · exact .inl (mem_kept.mp hb).1
  · exact .inr rfl

/-- The number of an arrival that is recorded is in `arrival_times`. -/
theorem recording_mem (proxy : EstimatorProxy) (arrivalTs : Int) (ssrc : BitVec 32)
    (seq : TransportSeq) :
    ∃ ts, (proxy.unwrapped seq, ts) ∈ (proxy.recording arrivalTs ssrc seq).arrivalTimes := by
  cases hf : (proxy.kept (proxy.unwrapped seq) arrivalTs).find? (proxy.unwrapped seq) with
  | none => exact ⟨arrivalTs, SortedMap.mem_insert.mpr (.inr ⟨hf, rfl⟩)⟩
  | some b =>
      obtain ⟨hb, heq⟩ := SortedMap.find?_eq_some_iff.mp hf
      rw [← heq]
      exact ⟨b.2, SortedMap.mem_insert.mpr (.inl hb)⟩

theorem Inv.arrive (h : Inv c) {s : Nat} {arrivalTs : Int} {ssrc : BitVec 32}
    (hstep : Step c (.arrive s arrivalTs ssrc) c') : Inv c' := by
  obtain ⟨hts, hnear, rfl⟩ := hstep
  have hunw := h.unwrapped_eq hnear
  have hlast : (s : Int) = (((c.arrived ++ [s]).getLast?).getD 0 : Nat) := by simp
  have hold : ∀ k ∈ c.recorded, ∃ t ∈ c.arrived ++ [s], k = (t : Int) := by
    intro k hk
    obtain ⟨t, ht, rfl⟩ := h.arrived k hk
    exact ⟨t, List.mem_append_left _ ht, rfl⟩
  -- nothing but the unwrapper changes unless the arrival is recorded
  have hsame : ∀ proxy' : EstimatorProxy, proxy'.unwrapper.lastValue = s →
      proxy'.arrivalTimes = c.proxy.arrivalTimes →
      proxy'.wndStartSeq = c.proxy.wndStartSeq →
      Inv { c with
        proxy := proxy'
        arrived := c.arrived ++ [s]
        recorded := c.recorded ++ proxy'.arrivalTimes.toList.map (·.1) } := by
    intro proxy' hl ht hw
    refine ⟨hl.trans hlast, ?_, ?_, ?_⟩
    · exact fun b hb => List.mem_append_right _ (List.mem_map_of_mem hb)
    · intro k hk
      rcases List.mem_append.mp hk with hk | hk
      · exact hold k hk
      · obtain ⟨b, hb, rfl⟩ := List.mem_map.mp hk
        rw [ht] at hb
        exact hold _ (h.recorded b hb)
    · show proxy'.wndStartSeq = -1 ∧ proxy'.arrivalTimes.toList = [] ∨ _
      rw [hw, ht]
      exact h.start.imp_right fun ⟨h0, hfrom⟩ =>
        ⟨h0, hfrom.imp_left (List.mem_append_left _)⟩
  rcases c.proxy.incoming_cases arrivalTs ssrc (Unwrapper.low16 s) with
    ⟨hneg, _⟩ | ⟨_, _, heq⟩ | ⟨_, hle, heq⟩
  · omega
  · rw [heq]
    exact hsame _ hunw rfl rfl
  · rw [heq]
    have hmem : ∀ b ∈ (c.proxy.recording arrivalTs ssrc (Unwrapper.low16 s)).arrivalTimes,
        b.1 ∈ c.recorded ++ ((c.proxy.recording arrivalTs ssrc
          (Unwrapper.low16 s)).arrivalTimes.toList.map (·.1)) :=
      fun b hb => List.mem_append_right _ (List.mem_map_of_mem hb)
    obtain ⟨ts, hrec⟩ := recording_mem c.proxy arrivalTs ssrc (Unwrapper.low16 s)
    have hnew := hmem _ hrec
    rw [hunw] at hnew hle
    refine ⟨?_, hmem, ?_, .inr ?_⟩
    · rw [← hlast]
      exact hunw
    · intro k hk
      rcases List.mem_append.mp hk with hk | hk
      · exact hold k hk
      · obtain ⟨b, hb, rfl⟩ := List.mem_map.mp hk
        rcases mem_recording hb with hb | hb
        · exact hold _ (h.recorded b hb)
        · exact ⟨s, by simp, hb.trans hunw⟩
    · have hwnd : (c.proxy.recording arrivalTs ssrc (Unwrapper.low16 s)).wndStartSeq
          = if c.proxy.wndStartSeq = -1 then ((Unwrapper.low16 s : Nat) : Int)
            else min c.proxy.wndStartSeq s := by
        rw [wndStartSeq_recording, hunw]
      simp only [hwnd]
      by_cases hfirst : c.proxy.wndStartSeq = -1
      · -- the first recorded arrival starts the window
        have hlow : ((Unwrapper.low16 s : Nat) : Int) = s := by
          rw [Unwrapper.low16_cast]
          omega
        rw [if_pos hfirst, hlow]
        exact ⟨Int.natCast_nonneg s, .inl hnew⟩
      · rw [if_neg hfirst]
        rcases h.start with ⟨hw, _⟩ | ⟨h0, hfrom⟩
        · exact absurd hw hfirst
        · rcases min_choice c.proxy.wndStartSeq s with hmin | hmin
          · rw [hmin]
            exact ⟨h0, hfrom.imp_left (List.mem_append_left _)⟩
          · rw [hmin]
            exact ⟨Int.natCast_nonneg s, .inl hnew⟩

/-- The window of a feedback ends at its last sample. -/
theorem startBehind_getLast {n : Int} {entries : List (Int × Int)} (hne : entries ≠ []) :
    ∃ k, (entries.getLast?).map (·.1) = some k ∧ startBehind n entries = k + 1 := by
  obtain ⟨init, b, rfl⟩ := (List.eq_nil_or_concat' entries).resolve_left hne
  exact ⟨b.1, by simp, startBehind_concat n init b⟩

theorem Inv.bulid (h : Inv c) {msg : FeedbackMsg}
    (hstep : Step c (.bulidFeelbackPacket msg) c') : Inv c' := by
  obtain ⟨ret, proxy, msg', hbulid, rfl⟩ := hstep
  obtain ⟨_, _, _, heq, _, hcases⟩ := bulid_cases c.proxy msg
  rw [hbulid, Option.some.injEq, Prod.mk.injEq, Prod.mk.injEq] at heq
  obtain ⟨rfl, rfl, rfl⟩ := heq
  rcases hcases with ⟨rfl, rfl, _⟩ | ⟨rfl, hmany, rfl, _, _⟩
  · exact ⟨h.lastValue, h.recorded, h.arrived, h.start⟩
  · have hne : c.proxy.reportable ≠ [] := List.ne_nil_of_length_pos (by omega)
    obtain ⟨k, hk, hbehind⟩ := startBehind_getLast (n := -1) hne
    refine ⟨h.lastValue, h.recorded, h.arrived, .inr ⟨?_, .inr ⟨k, ?_, hbehind⟩⟩⟩
    · obtain ⟨b, hb, heq⟩ := startBehind_eq (n := -1) hne
      obtain ⟨s, _, hs⟩ := h.arrived _ (h.recorded b (mem_reportable hb).1)
      show 0 ≤ startBehind (-1) c.proxy.reportable
      omega
    · rw [if_pos rfl, hk]

theorem Inv.step (h : Inv c) {op : TrueOp} (hstep : Step c op c') : Inv c' := by
  cases op with
  | arrive s arrivalTs ssrc => exact h.arrive hstep
  | bulidFeelbackPacket msg => exact h.bulid hstep

theorem inv_of_run {ssrc : BitVec 32} {ops : List TrueOp}
    (hrun : Run Step (create ssrc) ops c) : Inv c :=
  hrun.stateInvariant (create_inv ssrc) fun _ _ _ h hstep => h.step hstep

/-- **Arrivals keep their true numbers.** After every run, only true sequence
numbers have been recorded, an arrival that is at most 32767 ahead of the window
is recorded under its own, and the base of a feedback is a recorded number or
one past the last sample of the previous feedback. -/
theorem trueSequences_of_run {ssrc : BitVec 32} {ops : List TrueOp}
    (hrun : Run Step (create ssrc) ops c) :
    (∀ k ∈ c.recorded, ∃ s ∈ c.arrived, k = (s : Int)) ∧
    (∀ s arrivalTs ssrc c', Step c (.arrive s arrivalTs ssrc) c' →
      (s : Int) ≤ c.proxy.wndStartSeq + 32767 →
        ∃ ts, ((s : Int), ts) ∈ c'.proxy.arrivalTimes) ∧
    ∀ msg proxy msg', c.proxy.bulidFeelbackPacket msg = some (0, proxy, msg') →
      ∃ base : Int, msg'.baseSeq = BitVec.ofInt 64 base ∧
        (base ∈ c.recorded ∨ ∃ k, c.lastReported = some k ∧ base = k + 1) := by
  have h := inv_of_run hrun
  refine ⟨h.arrived, ?_, ?_⟩
  · rintro s arrivalTs ssrc c' ⟨hts, hnear, rfl⟩ hle
    have hunw := h.unwrapped_eq hnear
    rcases c.proxy.incoming_cases arrivalTs ssrc (Unwrapper.low16 s) with
      ⟨hneg, _⟩ | ⟨_, hfar, _⟩ | ⟨_, _, heq⟩
    · omega
    · omega
    · have hrec := recording_mem c.proxy arrivalTs ssrc (Unwrapper.low16 s)
      rw [hunw, ← heq] at hrec
      exact hrec
  · intro msg proxy msg' hbulid
    obtain ⟨_, _, _, heq, _, hcases⟩ := bulid_cases c.proxy msg
    rw [hbulid, Option.some.injEq, Prod.mk.injEq, Prod.mk.injEq] at heq
    obtain ⟨rfl, rfl, rfl⟩ := heq
    rcases hcases with ⟨h0, _⟩ | ⟨_, hmany, _, hbase, _⟩
    · cases h0
    · refine ⟨_, hbase, ?_⟩
      rcases h.start with ⟨_, hnil⟩ | ⟨_, hfrom⟩
      · have hnone : c.proxy.reportable = [] := by
          rw [reportable, pending, hnil]
          rfl
        rw [hnone] at hmany
        cases hmany
      · exact hfrom

/-- An empty message. -/
def blankMsg : FeedbackMsg :=
  ⟨0, 0, 0, 0, 0, 0, 0, Vector.replicate _ ⟨0, 0⟩⟩

/-- A feedback about three arrivals, and then arrivals on both sides of the wrap. -/
def acrossWrap : List TrueOp :=
  [.arrive 30000 0 0, .arrive 62000 1 0, .arrive 62001 2 0, .bulidFeelbackPacket blankMsg,
    .arrive 65535 3 0, .arrive 65536 4 0]

/-- The arrival after the wrap, of which the proxy is given `1`, is recorded as `65537`, and
the next feedback goes on where the first one ended. -/
theorem trueSequences_of_run_acrossWrap : ∃ c c', Run Step (create 0) acrossWrap c ∧
    Step c (.arrive 65537 5 0) c' ∧ Unwrapper.low16 65537 = 1 ∧
    (∃ ts, ((65537 : Int), ts) ∈ c'.proxy.arrivalTimes) ∧
    (∀ k ∈ c'.recorded, ∃ s ∈ c'.arrived, k = (s : Int)) ∧
    ∃ proxy msg', c'.proxy.bulidFeelbackPacket blankMsg = some (0, proxy, msg') ∧
      msg'.baseSeq = 62002 ∧ ∃ base : Int, msg'.baseSeq = BitVec.ofInt 64 base ∧
        (base ∈ c'.recorded ∨ ∃ k, c'.lastReported = some k ∧ base = k + 1) := by
  have hrun : ∃ c, Run Step (create 0) acrossWrap c ∧ c.arrived.getLast? = some 65536 ∧
      c.proxy.wndStartSeq = 62002 ∧
      ∃ proxy msg', (c.proxy.incoming 5 0 (Unwrapper.low16 65537)).bulidFeelbackPacket blankMsg =
        some (0, proxy, msg') ∧ msg'.baseSeq = 62002 := by
    refine ⟨_, .snoc (.snoc (.snoc (.snoc (.snoc (.snoc .nil ⟨?_, ?_, rfl⟩) ⟨?_, ?_, rfl⟩)
      ⟨?_, ?_, rfl⟩) ⟨_, _, _, rfl, rfl⟩) ⟨?_, ?_, rfl⟩) ⟨?_, ?_, rfl⟩, ?_, ?_, _, _, rfl, ?_⟩
    all_goals decide
  obtain ⟨c, hrun, hlast, hstart, proxy, msg', hbulid, hbase⟩ := hrun
  have hnear : Near c.arrived.getLast? 65537 := by
    rw [hlast]
    decide
  have hstep : Step c (.arrive 65537 5 0) _ := ⟨by decide, hnear, rfl⟩
  have hmore := trueSequences_of_run (hrun.snoc hstep)
  refine ⟨c, _, hrun, hstep, by decide, ?_, hmore.1, proxy, msg', hbulid, hbase, ?_⟩
  · refine (trueSequences_of_run hrun).2.1 65537 5 0 _ hstep ?_
    rw [hstart]
    decide
  · exact hmore.2.2 blankMsg proxy msg' hbulid

/-- After a feedback about `0`, `1` and `2`, the one about `5`, `6` and `7`
starts at `3`, which no arrival has; and `40000` is not recorded behind `20000`,
though it is near. -/
theorem base_not_recorded : (∃ c, Run Step (create 0)
      [.arrive 0 0 0, .arrive 1 1 0, .arrive 2 2 0, .bulidFeelbackPacket blankMsg,
        .arrive 5 5 0, .arrive 6 6 0, .arrive 7 7 0] c ∧
      ∃ proxy msg', c.proxy.bulidFeelbackPacket blankMsg = some (0, proxy, msg') ∧
        msg'.baseSeq = 3 ∧ 3 ∉ c.arrived) ∧
    ∃ c, Run Step (create 0) [.arrive 0 0 0, .arrive 20000 1 0, .arrive 40000 2 0] c ∧
      c.proxy.wndStartSeq = 0 ∧ (40000 : Int) ∉ c.recorded := by
  constructor
  · refine ⟨_, .snoc (.snoc (.snoc (.snoc (.snoc (.snoc (.snoc .nil ⟨?_, ?_, rfl⟩)
      ⟨?_, ?_, rfl⟩) ⟨?_, ?_, rfl⟩) ⟨_, _, _, rfl, rfl⟩) ⟨?_, ?_, rfl⟩)
      ⟨?_, ?_, rfl⟩) ⟨?_, ?_, rfl⟩, _, _, rfl, ?_, ?_⟩
    all_goals decide
  · refine ⟨_, .snoc (.snoc (.snoc .nil ⟨?_, ?_, rfl⟩) ⟨?_, ?_, rfl⟩)
      ⟨?_, ?_, rfl⟩, ?_, ?_⟩
    all_goals decide

end TrueRun

end Razor
